-- SUMMARY: Lines that differ only in what a layout chooses, and what such lines are together.
import Mathlib.Data.List.Forall2
import MdxSafe.Proofs.Outline.Page
import MdxSafe.Proofs.Text.Search
import MdxSafe.Proofs.Text.Trim

/-!
# Alike lines

Two layouts of a document differ in the characters of fences and in the gaps after list markers, and so in the spaces
under the markers. Lines that differ in nothing else are alike. Apart from leading parts with little in them
(`Alike.exists_heads`) they are the same, and so they are thematic breaks together, or may start front matter.
-/

namespace MdxSafe

namespace Outline

/-- Lines that are the same but for fences, gaps after list markers, and spaces under the markers. -/
inductive Alike : Text → Text → Prop where
  | same (s : Text) : Alike s s
  | fence {s s' : Text} {f f' : Fence} (h : Fence.open? s = some f) (h' : Fence.open? s' = some f')
    (hinfo : f.info = f'.info) : Alike s s'
  | quoted {s s' : Text} : Alike s s' → Alike (Line.quoted s) (Line.quoted s')
  | item {digits : Text} {mark : Char} {gap gap' : Nat} {s s' : Text} (hmarker : isMarker digits mark) (hgap : 1 ≤ gap)
    (hgap' : 1 ≤ gap') (hs : flush s) (hs' : flush s') : Alike s s' →
    Alike (digits ++ [mark] ++ spaces gap ++ s) (digits ++ [mark] ++ spaces gap' ++ s')
  | shifted {width width' : Nat} {s s' : Text} (hwidth : 1 ≤ width) (hwidth' : 1 ≤ width') : Alike s s' →
    Alike (indented width s) (indented width' s')

/-- As many lines that are alike one by one. -/
abbrev AllAlike : List Text → List Text → Prop := List.Forall₂ Alike

variable {s s' : Text}

theorem flush_of_open? {f : Fence} (h : Fence.open? s = some f) : flush s := by
  obtain ⟨heq, hlength, hmark⟩ := Fence.eq_of_open? h
  rw [heq]
  exact flush_replicate hmark (by omega) _

theorem quoted_eq (h : s ≠ []) : Line.quoted s = "> ".toList ++ s := by
  rw [Line.quoted, if_neg h]
  rfl

theorem indented_nil (width : Nat) : indented width [] = [] := if_pos rfl

theorem indented_eq (h : s ≠ []) (width : Nat) : indented width s = spaces width ++ s := if_neg h

theorem flush_indented {width : Nat} (hwidth : 1 ≤ width) (s : Text) : flush (indented width s) = false := by
  obtain ⟨n, rfl⟩ : ∃ n, width = n + 1 := ⟨width - 1, by omega⟩
  unfold indented
  split <;> rfl

theorem Alike.nil_iff (h : Alike s s') : s = [] ↔ s' = [] := by
  have hindented : ∀ width s, indented width s = [] ↔ s = [] := by
    intro width s
    unfold indented
    split
    · next hs => simp [hs]
    · next hs => simp [hs]
  induction h with
  | same s => exact Iff.rfl
  | fence h h' _ => exact iff_of_false (ne_nil_of_flush (flush_of_open? h)) (ne_nil_of_flush (flush_of_open? h'))
  | quoted _ _ => exact iff_of_false (ne_nil_of_flush (Line.flush_quoted _)) (ne_nil_of_flush (Line.flush_quoted _))
  | item _ _ _ _ _ _ _ => exact iff_of_false (by simp) (by simp)
  | shifted _ _ _ ih => exact (hindented _ _).trans (ih.trans (hindented _ _).symm)

-- ---------------------------------------------------------------------------
-- Leading parts
-- ---------------------------------------------------------------------------

/-- A leading part of a line that cuts no row and starts no run of hyphens. -/
structure IsHead (a : Text) : Prop where
  pipe : '|' ∉ a
  escape : '\\' ∉ a
  plain : a.all isPlainChar
  hyphens : ∀ x, "--".toList <:+: a ++ x → "--".toList <:+: x

theorem IsHead.append {a b : Text} (ha : IsHead a) (hb : IsHead b) : IsHead (a ++ b) where
  pipe hmem := (List.mem_append.1 hmem).elim ha.pipe hb.pipe
  escape hmem := (List.mem_append.1 hmem).elim ha.escape hb.escape
  plain := by rw [List.all_append, ha.plain, hb.plain]; rfl
  hyphens x h := hb.hyphens x (ha.hyphens (b ++ x) (by rwa [← List.append_assoc]))

/-- Whether a character may stand anywhere in a leading part. -/
def isHeadChar (c : Char) : Bool := c != '|' && c != '\\' && c != '-' && isPlainChar c

theorem isHead_of_all {a : Text} (h : a.all isHeadChar) : IsHead a := by
  have hchar : ∀ c ∈ a, ((c ≠ '|' ∧ c ≠ '\\') ∧ c ≠ '-') ∧ isPlainChar c := by
    simpa only [List.all_eq_true, isHeadChar, Bool.and_eq_true, bne_iff_ne] using h
  refine ⟨fun hmem => (hchar _ hmem).1.1.1 rfl, fun hmem => (hchar _ hmem).1.1.2 rfl,
    List.all_eq_true.2 fun c hc => (hchar c hc).2, fun x hinfix => ?_⟩
  clear h
  induction a with
  | nil => exact hinfix
  | cons c a ih =>
    refine ih (fun d hd => hchar d (List.mem_cons_of_mem _ hd)) ?_
    rw [List.cons_append, List.infix_cons_iff] at hinfix
    refine hinfix.resolve_left fun hprefix => (hchar c List.mem_cons_self).1.2 ?_
    exact (List.cons_prefix_cons.1 hprefix).1.symm

theorem isHead_replicate {c : Char} (h : isHeadChar c) (n : Nat) : IsHead (List.replicate n c) := by
  refine isHead_of_all (List.all_eq_true.2 fun d hd => ?_)
  rwa [List.eq_of_mem_replicate hd]

theorem isHead_spaces (n : Nat) : IsHead (spaces n) := isHead_replicate rfl n

theorem isHeadChar_of_isDigit {c : Char} (h : c.isDigit) : isHeadChar c := by
  have hzero : c.toNat ≠ 0 := by
    rw [Char.isDigit, Bool.and_eq_true, decide_eq_true_eq, decide_eq_true_eq] at h
    have hlow : 48 ≤ c.toNat := h.1
    omega
  simp only [isHeadChar, isPlainChar, Bool.and_eq_true, bne_iff_ne]
  exact ⟨⟨⟨isDigit_ne h rfl, isDigit_ne h rfl⟩, isDigit_ne h rfl⟩, isDigit_ne h rfl, hzero⟩

/-- The marker of an item starts no run of hyphens, as a blank follows. -/
theorem isHead_marker {digits : Text} {mark : Char} (h : isMarker digits mark) {gap : Nat} (hgap : 1 ≤ gap) :
    IsHead (digits ++ [mark] ++ spaces gap) := by
  obtain ⟨n, rfl⟩ : ∃ n, gap = n + 1 := ⟨gap - 1, by omega⟩
  have hdigits : IsHead digits :=
    isHead_of_all (List.all_eq_true.2 fun c hc => isHeadChar_of_isDigit (digits_all_isDigit h c hc))
  have hmark : IsHead [mark, ' '] := by
    have hcases := mark_mem h
    simp only [List.mem_cons, List.not_mem_nil, or_false] at hcases
    rcases hcases with rfl | rfl | rfl | rfl | rfl
    · refine ⟨by decide, by decide, by decide, fun x hinfix => ?_⟩
      have hblank : "--".toList = ['-', '-'] := rfl
      simpa [List.infix_cons_iff, List.cons_prefix_cons, hblank] using hinfix
    all_goals exact isHead_of_all rfl
  have hsplit : digits ++ [mark] ++ spaces (n + 1) = digits ++ ([mark, ' '] ++ spaces n) := by
    simp [spaces, List.replicate_succ]
  rw [hsplit]
  exact hdigits.append (hmark.append (isHead_spaces n))

theorem isMargin_of_isDigit {c : Char} (h : c.isDigit) : isMargin c = false := by
  rw [Char.isDigit, Bool.and_eq_true, decide_eq_true_eq, decide_eq_true_eq] at h
  have hlow : 48 ≤ c.toNat := h.1
  have hhigh : c.toNat ≤ 57 := h.2
  simp only [isMargin, isWideSpace, Bool.or_eq_false_iff, Bool.and_eq_false_iff, decide_eq_false_iff_not,
    beq_eq_false_iff_ne]
  omega

/-- A marker does not belong to the margin of a line. -/
theorem marker_all_isMargin {digits : Text} {mark : Char} (h : isMarker digits mark) (t : Text) :
    (digits ++ [mark] ++ t).all isMargin = false := by
  obtain ⟨c, u, hu, hc⟩ := marker_eq_cons h
  rw [hu, List.cons_append, List.all_cons, Bool.and_eq_false_iff]
  left
  rcases hc with hc | rfl | rfl | rfl
  · exact isMargin_of_isDigit hc
  all_goals rfl

/-- Whether a character makes fences. -/
def IsTick (c : Char) : Prop := c = '~' ∨ c = '`'

/-- What stands in a line besides indentation. -/
def marks (s : Text) : Text := s.filter fun c => !isIndent c

theorem marks_append (s t : Text) : marks (s ++ t) = marks s ++ marks t := List.filter_append _ _

theorem marks_spaces (n : Nat) : marks (spaces n) = [] := by
  rw [marks, List.filter_eq_nil_iff]
  intro c hc
  rw [List.eq_of_mem_replicate hc]
  decide

/-- The leading parts in which alike lines differ. -/
structure Heads (a a' : Text) : Prop where
  left : IsHead a
  right : IsHead a'
  margin : a.all isMargin = a'.all isMargin
  first : a.head? = a'.head? ∨ (∃ c c', a.head? = some c ∧ a'.head? = some c' ∧ IsTick c ∧ IsTick c')
  marks_eq : marks a = marks a' ∨ ((∃ c ∈ marks a, IsTick c) ∧ ∃ c ∈ marks a', IsTick c)

theorem heads_self {a : Text} (h : IsHead a) : Heads a a := ⟨h, h, rfl, .inl rfl, .inl rfl⟩

theorem heads_nil : Heads [] [] := heads_self (isHead_of_all rfl)

theorem Heads.append {a a' b b' : Text} (ha : Heads a a') (hb : Heads b b') : Heads (a ++ b) (a' ++ b') where
  left := ha.left.append hb.left
  right := ha.right.append hb.right
  margin := by rw [List.all_append, List.all_append, ha.margin, hb.margin]
  first := by
    rw [List.head?_append, List.head?_append]
    rcases ha.first with heq | ⟨c, c', hc, hc', hticks⟩
    · rw [heq]
      cases a'.head? with
      | none => exact hb.first
      | some c => exact .inl rfl
    · exact .inr ⟨c, c', by rw [hc, Option.some_or], by rw [hc', Option.some_or], hticks⟩
  marks_eq := by
    rw [marks_append, marks_append]
    rcases ha.marks_eq with heq | ⟨⟨c, hc, htick⟩, c', hc', htick'⟩
    · rcases hb.marks_eq with heq' | ⟨⟨c, hc, htick⟩, c', hc', htick'⟩
      · exact .inl (by rw [heq, heq'])
      · exact .inr ⟨⟨c, List.mem_append_right _ hc, htick⟩, c', List.mem_append_right _ hc', htick'⟩
    · exact .inr ⟨⟨c, List.mem_append_left _ hc, htick⟩, c', List.mem_append_left _ hc', htick'⟩

theorem heads_spaces {n m : Nat} (hn : 1 ≤ n) (hm : 1 ≤ m) : Heads (spaces n) (spaces m) := by
  obtain ⟨n, rfl⟩ : ∃ k, n = k + 1 := ⟨n - 1, by omega⟩
  obtain ⟨m, rfl⟩ : ∃ k, m = k + 1 := ⟨m - 1, by omega⟩
  have hmargin : ∀ k, (spaces k).all isMargin = true := by
    intro k
    rw [List.all_eq_true]
    intro c hc
    rw [List.eq_of_mem_replicate hc]
    rfl
  exact ⟨isHead_spaces _, isHead_spaces _, by rw [hmargin, hmargin], .inl rfl,
    .inl (by rw [marks_spaces, marks_spaces])⟩

theorem heads_marker {digits : Text} {mark : Char} (h : isMarker digits mark) {gap gap' : Nat} (hgap : 1 ≤ gap)
    (hgap' : 1 ≤ gap') : Heads (digits ++ [mark] ++ spaces gap) (digits ++ [mark] ++ spaces gap') where
  left := isHead_marker h hgap
  right := isHead_marker h hgap'
  margin := by rw [marker_all_isMargin h, marker_all_isMargin h]
  first := by
    obtain ⟨c, t, ht, -⟩ := marker_eq_cons h
    exact .inl (by rw [ht]; rfl)
  marks_eq := .inl (by rw [marks_append, marks_append (digits ++ [mark]), marks_spaces, marks_spaces])

theorem heads_fence {n n' : Nat} {c c' : Char} (hn : 3 ≤ n) (hn' : 3 ≤ n') (hc : IsTick c) (hc' : IsTick c') :
    Heads (List.replicate n c) (List.replicate n' c') := by
  have hrun : ∀ {n c}, 3 ≤ n → IsTick c → IsHead (List.replicate n c) ∧ (List.replicate n c).all isMargin = false
      ∧ (List.replicate n c).head? = some c ∧ c ∈ marks (List.replicate n c) := by
    intro n c hn hc
    obtain ⟨m, rfl⟩ : ∃ m, n = m + 1 := ⟨n - 1, by omega⟩
    have hplain : isHeadChar c := by rcases hc with rfl | rfl <;> rfl
    have hmargin : isMargin c = false := by rcases hc with rfl | rfl <;> rfl
    have hindent : isIndent c = false := by rcases hc with rfl | rfl <;> rfl
    refine ⟨isHead_replicate hplain _, ?_, rfl, ?_⟩
    · rw [List.replicate_succ, List.all_cons, hmargin, Bool.false_and]
    · simp [marks, hindent]
  obtain ⟨hleft, hmargin, hfirst, hmem⟩ := hrun hn hc
  obtain ⟨hright, hmargin', hfirst', hmem'⟩ := hrun hn' hc'
  exact ⟨hleft, hright, by rw [hmargin, hmargin'], .inr ⟨c, c', hfirst, hfirst', hc, hc'⟩,
    .inr ⟨⟨c, hmem, hc⟩, c', hmem', hc'⟩⟩

/-- Alike lines are the same after such leading parts. -/
theorem Alike.exists_heads (h : Alike s s') : ∃ a a' x, s = a ++ x ∧ s' = a' ++ x ∧ Heads a a' := by
  induction h with
  | same s => exact ⟨[], [], s, rfl, rfl, heads_nil⟩
  | @fence s s' f f' h h' hinfo =>
    obtain ⟨heq, hlength, hmark⟩ := Fence.eq_of_open? h
    obtain ⟨heq', hlength', hmark'⟩ := Fence.eq_of_open? h'
    exact ⟨_, _, f.info, heq, by rw [hinfo]; exact heq', heads_fence hlength hlength' hmark hmark'⟩
  | @quoted s s' h ih =>
    by_cases hs : s = []
    · exact ⟨[], [], Line.quoted s, rfl, by rw [hs, h.nil_iff.1 hs]; rfl, heads_nil⟩
    · have hs' : s' ≠ [] := fun heq => hs (h.nil_iff.2 heq)
      rw [quoted_eq hs, quoted_eq hs']
      obtain ⟨a, a', x, rfl, rfl, hheads⟩ := ih
      have hquote : IsHead "> ".toList := isHead_of_all rfl
      exact ⟨_, _, x, (List.append_assoc _ _ _).symm, (List.append_assoc _ _ _).symm,
        (heads_self hquote).append hheads⟩
  | @item digits mark gap gap' s s' hmarker hgap hgap' _ _ _ ih =>
    obtain ⟨a, a', x, rfl, rfl, hheads⟩ := ih
    exact ⟨_, _, x, (List.append_assoc _ _ _).symm, (List.append_assoc _ _ _).symm,
      (heads_marker hmarker hgap hgap').append hheads⟩
  | @shifted width width' s s' hwidth hwidth' h ih =>
    by_cases hs : s = []
    · rw [hs, h.nil_iff.1 hs, indented_nil, indented_nil]
      exact ⟨[], [], [], rfl, rfl, heads_nil⟩
    · have hs' : s' ≠ [] := fun heq => hs (h.nil_iff.2 heq)
      rw [indented_eq hs, indented_eq hs']
      obtain ⟨a, a', x, rfl, rfl, hheads⟩ := ih
      exact ⟨_, _, x, (List.append_assoc _ _ _).symm, (List.append_assoc _ _ _).symm,
        (heads_spaces hwidth hwidth').append hheads⟩

-- ---------------------------------------------------------------------------
-- Thematic breaks
-- ---------------------------------------------------------------------------

/-- A line is a thematic break if nothing but one of three characters stands in it, and that often enough. -/
theorem thematicBreak?_isSome_iff (h : flush s) : (thematicBreak? s).isSome
    ↔ ∃ c, (c = '*' ∨ c = '-' ∨ c = '_') ∧ (∀ d ∈ marks s, d = c) ∧ 3 ≤ (marks s).length := by
  cases s with
  | nil => cases h
  | cons c s =>
    rw [flush_cons] at h
    have hall : ∀ d, (∀ e ∈ marks (c :: s), e = d) ↔ (c :: s).all fun e => e = d || isIndent e := by
      intro d
      simp only [marks, List.mem_filter, List.all_eq_true, Bool.or_eq_true, decide_eq_true_eq, Bool.not_eq_true',
        and_imp]
      refine forall₂_congr fun e _ => ?_
      cases isIndent e <;> simp
    have hcount : (∀ e ∈ marks (c :: s), e = c) → (marks (c :: s)).length = (c :: s).count c := by
      intro honly
      rw [← List.count_eq_length.2 fun e he => (honly e he).symm]
      exact List.count_filter h
    have hmem : c ∈ marks (c :: s) := List.mem_filter.2 ⟨List.mem_cons_self, h⟩
    unfold thematicBreak?
    dsimp only
    constructor
    · intro hsome
      split_ifs at hsome with hbreak hlong
      · refine ⟨c, hbreak.1, (hall c).2 hbreak.2, ?_⟩
        rwa [hcount ((hall c).2 hbreak.2)]
      · cases hsome
      · cases hsome
    · rintro ⟨d, hd, honly, hlong⟩
      obtain rfl := honly c hmem
      rw [if_pos ⟨hd, (hall c).1 honly⟩, if_pos (hcount honly ▸ hlong)]
      rfl

theorem Alike.flush_eq (h : Alike s s') : flush s = flush s' := by
  cases h with
  | same s => rfl
  | fence h h' _ => rw [flush_of_open? h, flush_of_open? h']
  | quoted _ => rw [Line.flush_quoted, Line.flush_quoted]
  | item hmarker _ _ _ _ _ => rw [List.append_assoc, List.append_assoc (_ ++ _), flush_append (flush_marker hmarker),
      flush_append (flush_marker hmarker)]
  | shifted hwidth hwidth' _ => rw [flush_indented hwidth, flush_indented hwidth']

/-- Alike lines are thematic breaks together. -/
theorem Alike.thematicBreak?_eq (h : Alike s s') (hs : flush s) :
    (thematicBreak? s).isSome = (thematicBreak? s').isSome := by
  have hs' : flush s' := h.flush_eq ▸ hs
  rw [Bool.eq_iff_iff, thematicBreak?_isSome_iff hs, thematicBreak?_isSome_iff hs']
  obtain ⟨a, a', x, rfl, rfl, hheads⟩ := h.exists_heads
  rw [marks_append, marks_append]
  rcases hheads.marks_eq with heq | ⟨⟨d, hd, htick⟩, d', hd', htick'⟩
  · rw [heq]
  · -- the character of a fence makes no break
    have hnone : ∀ {a d}, d ∈ marks a → IsTick d →
        ¬ ∃ c, (c = '*' ∨ c = '-' ∨ c = '_') ∧ (∀ e ∈ marks a ++ marks x, e = c) ∧ 3 ≤ (marks a ++ marks x).length := by
      rintro a d hd htick ⟨c, hc, honly, -⟩
      obtain rfl := honly d (List.mem_append_left _ hd)
      rcases htick with rfl | rfl <;> revert hc <;> decide
    exact iff_of_false (hnone hd htick) (hnone hd' htick')

-- ---------------------------------------------------------------------------
-- The start of a document
-- ---------------------------------------------------------------------------

/-- Alike lines start with the same character or with those of fences. -/
theorem Alike.head?_eq (h : Alike s s') :
    s.head? = s'.head? ∨ ∃ c c', s.head? = some c ∧ s'.head? = some c' ∧ IsTick c ∧ IsTick c' := by
  obtain ⟨a, a', x, rfl, rfl, hheads⟩ := h.exists_heads
  rw [List.head?_append, List.head?_append]
  rcases hheads.first with heq | ⟨c, c', hc, hc', hticks⟩
  · exact .inl (by rw [heq])
  · exact .inr ⟨c, c', by rw [hc, Option.some_or], by rw [hc', Option.some_or], hticks⟩

/-- Alike lines start front matter together. -/
theorem Alike.maybeFront_eq (h : Alike s s') : maybeFront s = maybeFront s' := by
  have hcontains : Text.contains s "--" = Text.contains s' "--" := by
    obtain ⟨a, a', x, rfl, rfl, hheads⟩ := h.exists_heads
    have hrest : ∀ {a}, IsHead a → (Text.contains (a ++ x) "--" ↔ "--".toList <:+: x) := fun {a} ha =>
      Text.contains_iff.trans ⟨ha.hyphens x, fun hx => hx.trans (List.suffix_append a x).isInfix⟩
    rw [Bool.eq_iff_iff, hrest hheads.left, hrest hheads.right]
  rw [maybeFront, maybeFront, hcontains]
  rcases h.head?_eq with heq | ⟨c, c', hc, hc', htick, htick'⟩
  · rw [heq]
  · have hhyphen : ∀ {c}, IsTick c → ¬ some c = some '-' := by
      rintro c (rfl | rfl) <;> decide
    rw [hc, hc', decide_eq_false (hhyphen htick), decide_eq_false (hhyphen htick')]

theorem Alike.all_isPlainChar (h : Alike s s') : s.all isPlainChar = s'.all isPlainChar := by
  obtain ⟨a, a', x, rfl, rfl, hheads⟩ := h.exists_heads
  rw [List.all_append, List.all_append, hheads.left.plain, hheads.right.plain]

/-- Alike lines start with a byte order mark together. -/
theorem Alike.startsPlain_eq {s s' : Text} (h : Alike s s') :
    (s.head?.all fun c => c.toNat != 0xFEFF) = s'.head?.all fun c => c.toNat != 0xFEFF := by
  rcases h.head?_eq with heq | ⟨c, c', hc, hc', htick, htick'⟩
  · rw [heq]
  · have hplain : ∀ {c}, IsTick c → (c.toNat != 0xFEFF) = true := by
      rintro c (rfl | rfl) <;> rfl
    rw [hc, hc', Option.all_some, Option.all_some, hplain htick, hplain htick']

end Outline
end MdxSafe
