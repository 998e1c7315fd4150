-- SUMMARY: What the passes do to payloads: each one takes something away, none does so twice, and no comment is brought about.
import MdxSafe.Proofs.Rewrite.Comment
import MdxSafe.Proofs.Rewrite.LinkRoot
import MdxSafe.Proofs.Rewrite.VoidTag
import MdxSafe.Rewrite.Pass

/-!
# Rewritten payloads

A payload that a pass changes loses weight: a `<`, or some of its length if it is the target of a link
(`weight_rewrite_lt`). Only closing void tags leaves the weight as it is, so passes that follow it never undo what it
did. Closing a tag splits no comment off: what is a comment afterwards was one before (`occurs_of_step`).
-/

namespace MdxSafe

variable {s : Settings} {p : Pass} {t u : Text}

-- ---------------------------------------------------------------------------
-- Escaped texts
-- ---------------------------------------------------------------------------

namespace Text

theorem replaceChar_eq_self {c : Char} (new : Text) (h : c ∉ t) : replaceChar c new t = t := by
  induction t with
  | nil => rfl
  | cons d t ih =>
    rw [List.mem_cons, not_or] at h
    rw [replaceChar, List.flatMap_cons, if_neg (Ne.symm h.1), List.singleton_append]
    exact congrArg (d :: ·) (ih h.2)

theorem notMem_replaceChar {c : Char} {new : Text} (hnew : c ∉ new) (t : Text) : c ∉ replaceChar c new t := by
  intro hmem
  obtain ⟨d, -, hd⟩ := List.mem_flatMap.1 hmem
  split at hd
  · exact hnew hd
  · next hne => exact hne (List.mem_singleton.1 hd).symm

end Text

-- ---------------------------------------------------------------------------
-- Comments and tags
-- ---------------------------------------------------------------------------

namespace Comment

theorem occurs_of_step (hstep : VoidTag.Step t u) (h : Occurs u) : Occurs t := by
  obtain ⟨lead, blanks, rest, -⟩ := hstep
  have hlead : opener <:+: lead ++ [' '] → opener <:+: lead := fun hopener =>
    (Text.infix_of_infix_append_cons (by decide) hopener).resolve_right (by decide)
  have hrest : closer <:+: '>' :: rest → closer <:+: rest := fun hcloser =>
    (List.infix_cons_iff.1 hcloser).resolve_left fun ⟨v, hv⟩ => by
      rw [closer_append] at hv
      cases hv
  have hsplit : lead ++ ' ' :: '/' :: '>' :: rest = (lead ++ [' ']) ++ '/' :: '>' :: rest := by simp
  have hafter : rest <:+ lead ++ (blanks ++ '>' :: rest) := ⟨lead ++ (blanks ++ ['>']), by simp⟩
  rw [hsplit] at h
  rcases occurs_of_occurs_append_cons (by decide) (by decide) h with h | ⟨hopener, hcloser⟩ | h
  · rcases occurs_of_occurs_append_cons (by decide) (by decide) h with h | ⟨-, hcloser⟩ | h
    · exact h.of_infix (List.prefix_append lead _).isInfix
    · exact absurd hcloser (by decide)
    · exact absurd h not_occurs_nil
  · exact ⟨lead, blanks ++ '>' :: rest, rfl, hlead hopener, (hrest hcloser).trans ⟨blanks ++ ['>'], [], by simp⟩⟩
  · rcases occurs_cons.1 h with ⟨v, hv, -⟩ | h
    · rw [opener_append] at hv
      cases hv
    · exact h.of_infix hafter.isInfix

/-- Closing void tags brings no comment about. -/
theorem not_occurs_closeAll (names : List Text) (h : ¬ Occurs t) : ¬ Occurs (VoidTag.closeAll names t) := by
  have hsteps := (VoidTag.mended_closeAll names t).steps
  generalize VoidTag.closeAll names t = u at hsteps ⊢
  induction hsteps with
  | refl => exact h
  | tail _ hstep ih => exact fun hoccurs => ih (occurs_of_step hstep hoccurs)

end Comment

-- ---------------------------------------------------------------------------
-- Rewriting
-- ---------------------------------------------------------------------------

namespace Pass

/-- What of a payload a pass takes away: angle brackets, or characters of the target of a link. -/
def weight : Pass → Text → Nat
  | rewriteLinks, t => t.length
  | _, t => t.count '<'

/-- A payload that changes gets lighter, unless void tags are closed in it. -/
theorem weight_rewrite_lt (hp : p ≠ closeVoidTags) (h : p.rewrite s t ≠ t) :
    p.weight (p.rewrite s t) < p.weight t := by
  cases p with
  | escapeText =>
    have hnone : (escapeText.rewrite s t).count '<' = 0 :=
      List.count_eq_zero.2 (Text.notMem_replaceChar (by decide) t)
    have hsome : 0 < t.count '<' := List.count_pos_iff.2 (by
      by_contra hmem
      exact h (Text.replaceChar_eq_self _ hmem))
    calc
      (escapeText.rewrite s t).count '<' = 0 := hnone
      _ < t.count '<' := hsome
  | convertComments => exact Comment.count_convert_lt h
  | closeVoidTags => exact absurd rfl hp
  | rewriteLinks => exact LinkRoot.length_strip_lt h

/-- Closing void tags adds and removes no `<`. -/
theorem count_rewrite_closeVoidTags (s : Settings) (t : Text) :
    (closeVoidTags.rewrite s t).count '<' = t.count '<' := by
  rw [rewrite]
  split
  · rfl
  · exact VoidTag.count_closeAll s.voidElements t

/-- Where the names of elements are plain, one rewriting is enough, comments apart. -/
theorem rewrite_rewrite (hp : p ≠ convertComments) (hnames : ∀ name ∈ s.voidElements, VoidTag.IsPlain name)
    (t : Text) : p.rewrite s (p.rewrite s t) = p.rewrite s t := by
  cases p with
  | escapeText => exact Text.replaceChar_eq_self _ (Text.notMem_replaceChar (by decide) t)
  | convertComments => exact absurd rfl hp
  | closeVoidTags =>
    simp only [rewrite]
    split
    · rfl
    · exact VoidTag.closeAll_closeAll hnames t
  | rewriteLinks => exact LinkRoot.strip_strip s.linkRoot t

/-- Closing void tags brings no comment about. -/
theorem not_occurs_rewrite_closeVoidTags (h : ¬ Comment.Occurs t) : ¬ Comment.Occurs (closeVoidTags.rewrite s t) := by
  rw [rewrite]
  split
  · exact h
  · exact Comment.not_occurs_closeAll s.voidElements h

end Pass
end MdxSafe
