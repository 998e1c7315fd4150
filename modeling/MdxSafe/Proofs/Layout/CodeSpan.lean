-- SUMMARY: A code span is read back from its text, whatever backticks and spaces stand in it.
import Mathlib.Data.List.SplitBy
import MdxSafe.Proofs.Layout.Inline

/-!
# Reading a code span back

`CodeSpan.read?` follows the rule for code spans on a text of its own, without the rest of the language: the text is
cut at its maximal runs of backticks, the first one opens the span, the next one that is equal closes it, and a space
is dropped from both ends of what stands between. The layout pads code at whose ends a backtick or a space would be
taken for something else. Padding brings no run about (`hasRun_of_padded`), so a span whose code has no run as long as
its marks ends where its text does.
-/

namespace MdxSafe

-- ---------------------------------------------------------------------------
-- The rule
-- ---------------------------------------------------------------------------

namespace CodeSpan

/-- Whether two characters both are backticks, or neither is. -/
def alike (a b : Char) : Bool := (a == '`') == (b == '`')

/-- The maximal runs of backticks of a text, and the texts between them. -/
def runs (t : Text) : List Text := t.splitBy alike

/-- Code without a space at either end, if both are there and something else than blanks is between them. -/
def withoutPadding (t : Text) : Text :=
  let inner := (t.drop 1).dropLast
  if t.head? = some ' ' ∧ t.getLast? = some ' ' ∧ (inner.any fun c => !isBlank c) then inner else t

/-- A code span as it is read from a text: its code, and the text after it. -/
structure Span where
  code : Text
  after : Text
  deriving Repr, DecidableEq

/-- The code span that a text starts with; nothing if no backtick does, or the run of backticks that does is met no
second time. -/
def read? (t : Text) : Option Span :=
  match runs t with
  | [] => none
  | opener :: gs =>
    if opener.head? = some '`' then
      match gs.dropWhile (· ≠ opener) with
      | [] => none
      | _ :: after => some { code := withoutPadding (gs.takeWhile (· ≠ opener)).flatten, after := after.flatten }
    else none

/-- A text has a maximal run of exactly so many backticks. -/
def HasRun (k : Nat) (t : Text) : Prop :=
  ∃ before after, t = before ++ (List.replicate k '`' ++ after)
    ∧ before.getLast? ≠ some '`' ∧ after.head? ≠ some '`'

variable {k : Nat} {t : Text}

theorem alike_backtick {c : Char} (h : c ≠ '`') : alike '`' c = false ∧ alike c '`' = false := by
  simp [alike, h]

theorem runs_replicate (hk : 0 < k) : runs (List.replicate k '`') = [List.replicate k '`'] := by
  refine List.splitBy_of_isChain (by simp; omega) ?_
  exact List.isChain_replicate_of_rel k (by decide)

/-- A run of backticks that no further one follows is a group. -/
theorem runs_replicate_append (hk : 0 < k) (h : t.head? ≠ some '`') :
    runs (List.replicate k '`' ++ t) = List.replicate k '`' :: runs t := by
  rw [← List.singleton_append, ← runs_replicate hk]
  refine List.splitBy_append fun x hx y hy => ?_
  obtain rfl := List.eq_of_mem_replicate (List.mem_of_mem_getLast? hx)
  exact (alike_backtick fun hback => h (hback ▸ hy)).1

/-- A run of backticks that none is before starts a group. -/
theorem runs_append_replicate (hk : 0 < k) (h : t.getLast? ≠ some '`') (u : Text) :
    runs (t ++ (List.replicate k '`' ++ u)) = runs t ++ runs (List.replicate k '`' ++ u) := by
  refine List.splitBy_append fun x hx y hy => ?_
  rw [List.head?_append_of_ne_nil _ (by simp; omega)] at hy
  obtain rfl := List.eq_of_mem_replicate (List.mem_of_mem_head? hy)
  exact (alike_backtick fun hback => h (hback ▸ hx)).2

theorem hasRun_of_mem_runs (h : List.replicate k '`' ∈ runs t) : HasRun k t := by
  obtain ⟨before, after, hruns⟩ := List.append_of_mem h
  have htext : t = before.flatten ++ (List.replicate k '`' ++ after.flatten) := by
    rw [← List.flatten_splitBy alike t]
    exact (congrArg List.flatten hruns).trans (by simp)
  have hchain := List.isChain_getLast_head_splitBy alike t
  rw [show t.splitBy alike = _ from hruns, List.isChain_append, List.isChain_cons] at hchain
  obtain ⟨-, ⟨hnext, -⟩, hprev⟩ := hchain
  refine ⟨before.flatten, after.flatten, htext, ?_, ?_⟩
  · -- the group before ends with another character
    rcases List.eq_nil_or_concat before with rfl | ⟨gs, g, rfl⟩
    · simp
    obtain ⟨hne, _, hdiffer⟩ := hprev g (by simp) (List.replicate k '`') (by simp)
    intro hlast
    rw [List.concat_eq_append, List.flatten_append, List.flatten_singleton, List.getLast?_append_of_ne_nil _ hne,
      List.getLast?_eq_some_getLast hne, Option.some.injEq] at hlast
    rw [hlast, List.head_replicate] at hdiffer
    exact absurd hdiffer (by decide)
  · cases after with
    | nil => simp
    | cons g gs =>
      obtain ⟨_, hne, hdiffer⟩ := hnext g (by simp)
      intro hhead
      rw [List.flatten_cons, List.head?_append_of_ne_nil _ hne, List.head?_eq_some_head hne, Option.some.injEq] at hhead
      rw [hhead, List.getLast_replicate] at hdiffer
      exact absurd hdiffer (by decide)

/-- The runs of backticks among the groups of a text are its maximal ones. -/
theorem mem_runs_iff (hk : 0 < k) : List.replicate k '`' ∈ runs t ↔ HasRun k t := by
  refine ⟨hasRun_of_mem_runs, ?_⟩
  rintro ⟨before, after, rfl, hbefore, hafter⟩
  rw [runs_append_replicate hk hbefore, runs_replicate_append hk hafter]
  simp

/-- Between equal runs of backticks, a text that neither starts nor ends with one keeps its own groups. -/
theorem runs_delimited (hk : 0 < k) (hne : t ≠ []) (hhead : t.head? ≠ some '`') (hlast : t.getLast? ≠ some '`') :
    runs (List.replicate k '`' ++ (t ++ List.replicate k '`'))
      = List.replicate k '`' :: (runs t ++ [List.replicate k '`']) := by
  have hclose := runs_append_replicate hk hlast []
  rw [List.append_nil, runs_replicate hk] at hclose
  rw [runs_replicate_append hk (by rwa [List.head?_append_of_ne_nil _ hne]), hclose]

/-- The code between equal runs of backticks is all that is read. -/
theorem read?_delimited (hk : 0 < k) (hne : t ≠ []) (hhead : t.head? ≠ some '`') (hlast : t.getLast? ≠ some '`')
    (hrun : List.replicate k '`' ∉ runs t) :
    read? (List.replicate k '`' ++ (t ++ List.replicate k '`')) = some { code := withoutPadding t, after := [] } := by
  have hgo : ∀ g ∈ runs t, decide (g ≠ List.replicate k '`') = true := fun g hg =>
    decide_eq_true fun h => hrun (h ▸ hg)
  have hopener : (List.replicate k '`').head? = some '`' := by
    rw [List.head?_replicate, if_neg (by omega)]
  rw [read?, runs_delimited hk hne hhead hlast]
  simp only [hopener, if_true, List.dropWhile_append_of_pos hgo, List.takeWhile_append_of_pos hgo]
  simp [List.flatten_splitBy, runs]

/-- Spaces around a text bring no run of backticks about. -/
theorem hasRun_of_padded (hk : 0 < k) (h : HasRun k (' ' :: (t ++ [' ']))) : HasRun k t := by
  obtain ⟨before, after, htext, hbefore, hafter⟩ := h
  obtain ⟨m, rfl⟩ : ∃ m, k = m + 1 := ⟨k - 1, by omega⟩
  cases before with
  | nil =>
    rw [List.nil_append, List.replicate_succ] at htext
    cases htext
  | cons c before =>
    obtain ⟨rfl, hinner⟩ := List.cons_eq_cons.1 (htext.trans List.cons_append)
    rcases List.eq_nil_or_concat after with rfl | ⟨after, d, rfl⟩
    · rw [List.replicate_succ', List.append_nil, ← List.append_assoc] at hinner
      exact absurd (List.append_inj_right' hinner rfl) (by decide)
    rw [List.concat_eq_append, ← List.append_assoc, ← List.append_assoc] at hinner
    refine ⟨before, after, ?_, ?_, ?_⟩
    · rw [List.append_inj_left' hinner rfl, List.append_assoc]
    · cases before with
      | nil => simp
      | cons => simpa using hbefore
    · cases after with
      | nil => simp
      | cons => simpa using hafter

end CodeSpan

-- ---------------------------------------------------------------------------
-- The layout
-- ---------------------------------------------------------------------------

namespace Layout

open CodeSpan

variable {n : Node} {k : Nat} {t : Text}

/-- A text as it is read from between the marks of a code span: what it stands for is the code. -/
structure Stands (t code : Text) : Prop where
  ne_nil : t ≠ []
  head : t.head? ≠ some '`'
  last : t.getLast? ≠ some '`'
  code_eq : withoutPadding t = code

/-- Spaces around a text are its padding, unless it consists of blanks. -/
theorem stands_padded (h : t.any fun c => !isBlank c) : Stands (' ' :: (t ++ [' '])) t where
  ne_nil := by simp
  head := by simp
  last := by simp [List.getLast?_cons]
  code_eq := by simp [withoutPadding, List.getLast?_cons, h]

theorem withoutPadding_eq_self (h : ¬ (t.head? = some ' ' ∧ t.getLast? = some ' ' ∧ (t.any fun c => !isBlank c))) :
    withoutPadding t = t := by
  refine if_neg fun hpadded => h ⟨hpadded.1, hpadded.2.1, ?_⟩
  obtain ⟨c, hc, hblank⟩ := List.any_eq_true.1 hpadded.2.2
  exact List.any_eq_true.2 ⟨c, List.mem_of_mem_drop ((List.dropLast_prefix _).mem hc), hblank⟩

/-- Padded code stands for the code, and has no run of backticks that the code does not have. -/
theorem stands_paddedCode (hk : 0 < k) (hne : t ≠ []) (hrun : List.replicate k '`' ∉ runs t) :
    Stands (paddedCode t) t ∧ List.replicate k '`' ∉ runs (paddedCode t) := by
  obtain ⟨c, u, rfl⟩ := List.exists_cons_of_ne_nil hne
  rw [paddedCode]
  split
  · next h =>
    simp only [Bool.or_eq_true, Bool.and_eq_true, decide_eq_true_eq] at h
    have hsolid : ((c :: u).any fun d => !isBlank d) = true := by
      rcases h with (rfl | hlast) | h
      · rfl
      · exact List.any_eq_true.2 ⟨'`', List.mem_of_getLast? hlast, rfl⟩
      · exact h.2
    refine ⟨stands_padded hsolid, fun h => hrun ?_⟩
    rw [mem_runs_iff hk] at h ⊢
    exact hasRun_of_padded hk h
  · next h =>
    simp only [Bool.or_eq_true, Bool.and_eq_true, decide_eq_true_eq, not_or] at h
    obtain ⟨⟨hhead, hlast⟩, hpadded⟩ := h
    refine ⟨⟨hne, by simpa using hhead, hlast, withoutPadding_eq_self fun h => hpadded ?_⟩, hrun⟩
    exact ⟨⟨by simpa using h.1, h.2.1⟩, h.2.2⟩

/-- The text of a code span outside of tables is read as its code, and nothing is left after it, whatever the code is,
as long as no maximal run of backticks in it is as long as the marks. -/
theorem read?_inline_of_code {p : Place} (hcell : p.inCell = false) (hkind : n.kind = .inlineCode)
    (hmarkup : n.markup = List.replicate k '`') (hk : 0 < k) (hpayload : n.payload ≠ [])
    (hrun : List.replicate k '`' ∉ CodeSpan.runs n.payload) :
    CodeSpan.read? (inline p n) = some { code := n.payload, after := [] } := by
  obtain ⟨hstands, hrun⟩ := stands_paddedCode hk hpayload hrun
  have hticks : n.markup ≠ [] := by
    rw [hmarkup]
    simp
    omega
  have htext : inline p n = List.replicate k '`' ++ (paddedCode n.payload ++ List.replicate k '`') := by
    rw [inline_of_code p hkind, codeSpan, if_neg hticks, hmarkup, Place.escapePipes, hcell, List.append_assoc]
    rfl
  rw [htext, read?_delimited hk hstands.ne_nil hstands.head hstands.last hrun, hstands.code_eq]

/-- Code that starts with a space and a backtick and ends with a longer run of them and a space. -/
theorem read?_inline_of_code_sample :
    CodeSpan.read? (inline {} { kind := .inlineCode, markup := "``".toList, value := some " ` a ``` ".toList })
        = some { code := " ` a ``` ".toList, after := [] } :=
  read?_inline_of_code (k := 2) rfl rfl rfl (by decide) (by decide) (by decide)

end Layout
end MdxSafe
