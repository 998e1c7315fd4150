-- SUMMARY: What is left of a link target when its root is removed, and that it is removed in full.
import MdxSafe.Proofs.Text.Search
import MdxSafe.Rewrite.LinkRoot

/-!
# Targets without their root

A target is some copies of the root and then what is left of it (`exists_copies`), which does not start with the root
again (`not_prefix_strip`). There is one such text (`eq_strip_iff`), and it is what removing one copy after the other ends
with (`exists_strips`). So a target stays as it is just if it does not start with the root.
-/

namespace MdxSafe.LinkRoot

variable {root url rest rest' : Text} {k k' : Nat}

theorem exists_copies_stripUpTo (root : Text) (limit : Nat) (url : Text) :
    ∃ k, url = (List.replicate k root).flatten ++ stripUpTo root limit url := by
  induction limit generalizing url with
  | zero => exact ⟨0, rfl⟩
  | succ limit ih =>
    rw [stripUpTo]
    cases hafter : Text.after? root url with
    | none => exact ⟨0, rfl⟩
    | some rest =>
      obtain ⟨k, hk⟩ := ih rest
      refine ⟨k + 1, ?_⟩
      rw [Text.after?_eq_some_iff.1 hafter, List.replicate_succ, List.flatten_cons, List.append_assoc]
      exact congrArg (root ++ ·) hk

/-- Nothing but copies of the root is removed. -/
theorem exists_copies (root url : Text) : ∃ k, url = (List.replicate k root).flatten ++ strip root url := by
  rw [strip]
  split
  · exact ⟨0, rfl⟩
  · exact exists_copies_stripUpTo root url.length url

theorem not_prefix_stripUpTo (hroot : root ≠ []) {limit : Nat} (hlimit : url.length ≤ limit) :
    ¬ root <+: stripUpTo root limit url := by
  induction limit generalizing url with
  | zero =>
    rw [List.length_eq_zero_iff.1 (Nat.le_zero.1 hlimit)]
    exact fun h => hroot (List.prefix_nil.1 h)
  | succ limit ih =>
    rw [stripUpTo]
    cases hafter : Text.after? root url with
    | none => exact Text.after?_eq_none_iff.1 hafter
    | some rest =>
      refine ih ?_
      have hpos := List.length_pos_iff.2 hroot
      rw [Text.after?_eq_some_iff.1 hafter, List.length_append] at hlimit
      omega

/-- What is left does not start with the root. -/
theorem not_prefix_strip (hroot : root ≠ []) (url : Text) : ¬ root <+: strip root url := by
  rw [strip, if_neg hroot]
  exact not_prefix_stripUpTo hroot (Nat.le_refl _)

theorem strip_eq_self (h : ¬ root <+: url) : strip root url = url := by
  rw [strip]
  split
  · rfl
  · cases hlength : url.length with
    | zero => rfl
    | succ limit => rw [stripUpTo, Text.after?_eq_none_iff.2 h]

/-- A target from which the root is removed has nothing left to remove. -/
theorem strip_strip (root url : Text) : strip root (strip root url) = strip root url := by
  by_cases hroot : root = []
  · rw [strip, if_pos hroot]
  · exact strip_eq_self (not_prefix_strip hroot url)

theorem strip_nil (url : Text) : strip [] url = url := if_pos rfl

/-- A target changes just if it starts with a root that is not empty. -/
theorem strip_ne_self_iff : strip root url ≠ url ↔ root ≠ [] ∧ root <+: url := by
  constructor
  · intro h
    refine ⟨?_, Classical.not_not.1 (mt strip_eq_self h)⟩
    rintro rfl
    exact h (strip_nil url)
  · rintro ⟨hroot, hprefix⟩ hself
    rw [← hself] at hprefix
    exact not_prefix_strip hroot url hprefix

/-- A target that changes gets shorter. -/
theorem length_strip_lt (h : strip root url ≠ url) : (strip root url).length < url.length := by
  obtain ⟨k, hk⟩ := exists_copies root url
  have hsuffix : strip root url <:+ url := ⟨_, hk.symm⟩
  exact Nat.lt_of_le_of_ne hsuffix.length_le fun hlength => h (hsuffix.eq_of_length hlength)

-- ---------------------------------------------------------------------------
-- Round after round
-- ---------------------------------------------------------------------------

/-- How many rounds it takes to remove the root, one copy in each, and what is left when the target does not start with it
any more. -/
inductive Strips (root : Text) : Nat → Text → Text → Prop
  | done {url : Text} (h : ¬ root <+: url) : Strips root 0 url url
  | round {k : Nat} {url rest : Text} (h : Strips root k url rest) : Strips root (k + 1) (root ++ url) rest

theorem strips_iff : Strips root k url rest ↔ url = (List.replicate k root).flatten ++ rest ∧ ¬ root <+: rest := by
  constructor
  · intro h
    induction h with
    | done h => exact ⟨rfl, h⟩
    | round _ ih =>
      obtain ⟨rfl, hrest⟩ := ih
      exact ⟨by rw [List.replicate_succ, List.flatten_cons, List.append_assoc], hrest⟩
  · rintro ⟨rfl, hrest⟩
    induction k with
    | zero => exact .done hrest
    | succ k ih =>
      rw [List.replicate_succ, List.flatten_cons, List.append_assoc]
      exact .round ih

/-- There is one way to go through the rounds. -/
theorem Strips.unique (h : Strips root k url rest) (h' : Strips root k' url rest') : rest = rest' := by
  induction h generalizing k' with
  | done hstop =>
    cases h' with
    | done _ => rfl
    | round _ => exact absurd (List.prefix_append root _) hstop
  | @round k url rest _ ih =>
    generalize hcopy : root ++ url = whole at h'
    cases h' with
    | done hstop => exact absurd ⟨url, hcopy⟩ hstop
    | round h' => exact ih (List.append_cancel_left hcopy ▸ h')

/-- The rounds come to an end if the root is not empty. -/
theorem exists_strips (hroot : root ≠ []) (url : Text) : ∃ k, Strips root k url (strip root url) := by
  obtain ⟨k, hk⟩ := exists_copies root url
  exact ⟨k, strips_iff.2 ⟨hk, not_prefix_strip hroot url⟩⟩

/-- What is left is the one text without the root at its start that follows copies of the root. -/
theorem eq_strip_iff (hroot : root ≠ []) :
    rest = strip root url ↔ (∃ k, url = (List.replicate k root).flatten ++ rest) ∧ ¬ root <+: rest := by
  constructor
  · rintro rfl
    exact ⟨exists_copies root url, not_prefix_strip hroot url⟩
  · rintro ⟨⟨k, hk⟩, hrest⟩
    obtain ⟨j, hj⟩ := exists_strips hroot url
    exact (strips_iff.2 ⟨hk, hrest⟩).unique hj

end MdxSafe.LinkRoot
