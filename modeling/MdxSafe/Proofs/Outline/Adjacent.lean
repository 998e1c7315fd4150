-- SUMMARY: Lines that are alike make the same tables with the lines before them and end the same paragraphs.
import MdxSafe.Proofs.Outline.Alike

/-!
# Alike lines beside others

Two lines in a row make a table if the first one has as many cells as the second one has alignments, and a line may
end the paragraph before it. Neither depends on what tells alike lines apart: the cells are the same but for the
first one, and the line of an item starts no other block than that.
-/

namespace MdxSafe

namespace Outline

variable {s s' t t' : Text} {ss ss' : List Text}

-- ---------------------------------------------------------------------------
-- Tables
-- ---------------------------------------------------------------------------

/-- The line of an item is no line below the head of a table, as a blank follows the bullet. -/
theorem aligns?_item {digits : Text} {mark : Char} (hmarker : isMarker digits mark) {gap : Nat} (hgap : 1 ≤ gap)
    (s : Text) : Table.aligns? (digits ++ [mark] ++ spaces gap ++ s) = none := by
  obtain ⟨n, rfl⟩ : ∃ n, gap = n + 1 := ⟨gap - 1, by omega⟩
  cases digits with
  | nil =>
    have hblank : [] ++ [mark] ++ spaces (n + 1) ++ s = mark :: ' ' :: (spaces n ++ s) := rfl
    rw [hblank]
    by_cases hmark : mark = '-'
    · rw [hmark]
      rfl
    · cases isMarker_iff.1 hmarker with
      | bullet hbullet =>
        rcases hbullet with rfl | rfl | rfl
        · exact Table.aligns?_eq_none _ rfl
        · exact absurd rfl hmark
        · exact Table.aligns?_eq_none _ rfl
      | number hne _ _ _ => exact absurd rfl hne
  | cons d digits =>
    have hdigit := digits_all_isDigit hmarker d List.mem_cons_self
    refine Table.aligns?_eq_none _ ?_
    simp [Table.isDelimiter, isDigit_ne hdigit (d := '|') rfl, isDigit_ne hdigit (d := '-') rfl,
      isDigit_ne hdigit (d := ':') rfl]

theorem afterIndent_indented (width : Nat) (s : Text) : afterIndent (indented width s) = afterIndent s := by
  unfold indented
  split
  · next hs => rw [hs]
  · exact afterIndent_spaces_append width s

theorem aligns?_of_open? {f : Fence} (h : Fence.open? s = some f) : Table.aligns? s = none := by
  obtain ⟨heq, hlength, hmark⟩ := Fence.eq_of_open? h
  obtain ⟨n, hn⟩ : ∃ n, f.length = n + 1 := ⟨f.length - 1, by omega⟩
  rw [heq, hn, List.replicate_succ, List.cons_append]
  rcases hmark with hmark | hmark <;> exact Table.aligns?_eq_none _ (by rw [hmark]; rfl)

/-- Alike lines give the same alignments below the head of a table. -/
theorem Alike.aligns?_eq (h : Alike s s') :
    Table.aligns? (afterIndent s) = Table.aligns? (afterIndent s') := by
  induction h with
  | same s => rfl
  | fence h h' _ =>
    rw [afterIndent_of_flush (flush_of_open? h), afterIndent_of_flush (flush_of_open? h'), aligns?_of_open? h,
      aligns?_of_open? h']
  | quoted _ _ =>
    rw [afterIndent_of_flush (Line.flush_quoted _), afterIndent_of_flush (Line.flush_quoted _), aligns?_quoted,
      aligns?_quoted]
  | item hmarker hgap hgap' _ _ _ _ =>
    have hflush : ∀ gap s, flush (_ ++ spaces gap ++ s) := fun gap s =>
      flush_append (flush_append (flush_marker hmarker) (spaces gap)) s
    rw [afterIndent_of_flush (hflush _ _), afterIndent_of_flush (hflush _ _), aligns?_item hmarker hgap,
      aligns?_item hmarker hgap']
  | shifted _ _ _ ih => rw [afterIndent_indented, afterIndent_indented, ih]

theorem cutRow_head {a y p : Text} {ps : List Text} (hpipe : '|' ∉ a) (hescape : '\\' ∉ a)
    (h : Table.cutRow false y = p :: ps) : Table.cutRow false (a ++ y) = (a ++ p) :: ps := by
  induction a with
  | nil => exact h
  | cons c a ih =>
    rw [List.mem_cons, not_or] at hpipe hescape
    rw [List.cons_append, Table.cutRow, if_neg fun hc => hpipe.1 hc.1.symm, if_neg fun hc => hescape.1 hc.1.symm,
      ih hpipe.2 hescape.2]
    rfl

/-- How many cells there are does not depend on what the first one holds, if it holds something. -/
theorem length_cells_eq {r r' q q' : Text} {ps : List Text} (hr : Table.splitRow r = q :: ps)
    (hr' : Table.splitRow r' = q' :: ps) (hq : q ≠ []) (hq' : q' ≠ []) :
    (Table.cells r).length = (Table.cells r').length := by
  obtain ⟨c, q, rfl⟩ := List.exists_cons_of_ne_nil hq
  obtain ⟨c', q', rfl⟩ := List.exists_cons_of_ne_nil hq'
  simp only [Table.cells, hr, hr', List.reverse_cons]
  cases ps.reverse with
  | nil => rfl
  | cons p rest => cases p <;> simp

theorem isMargin_of_isIndent {c : Char} (h : isIndent c) : isMargin c := by
  simp only [isIndent, Bool.or_eq_true, decide_eq_true_eq] at h
  rcases h with rfl | rfl <;> rfl

theorem trimMargin_afterIndent (s : Text) : Text.trimMargin (afterIndent s) = Text.trimMargin s := by
  unfold Text.trimMargin Text.trim Text.trimLeft
  congr 1
  induction s with
  | nil => rfl
  | cons c s ih =>
    by_cases hc : isIndent c
    · have hdrop : afterIndent (c :: s) = afterIndent s := List.dropWhile_cons_of_pos hc
      rw [hdrop, ih, List.dropWhile_cons_of_pos (isMargin_of_isIndent hc)]
    · have hkeep : afterIndent (c :: s) = c :: s := List.dropWhile_cons_of_neg hc
      rw [hkeep]

/-- A row after a leading part that is no margin keeps what is left of that part. -/
theorem trimMargin_append {a x : Text} (ha : a.all isMargin = false) (hhead : IsHead a) :
    ∃ b, b ≠ [] ∧ '|' ∉ b ∧ '\\' ∉ b ∧ Text.trimMargin (a ++ x)
      = if Text.trimRight isMargin x = [] then Text.trimRight isMargin b else b ++ Text.trimRight isMargin x := by
  have hsub : ∀ c ∈ a.dropWhile isMargin, c ∈ a := fun c hc => (List.dropWhile_suffix isMargin).subset hc
  refine ⟨a.dropWhile isMargin, ?_, fun hc => hhead.pipe (hsub _ hc), fun hc => hhead.escape (hsub _ hc), ?_⟩
  · intro hnil
    rw [List.dropWhile_eq_nil_iff, ← List.all_eq_true, ha] at hnil
    cases hnil
  · have hdrop : (a ++ x).dropWhile isMargin = a.dropWhile isMargin ++ x := by
      rw [List.dropWhile_append, if_neg]
      rw [List.isEmpty_iff, List.dropWhile_eq_nil_iff, ← List.all_eq_true, ha]
      nofun
    rw [Text.trimMargin, Text.trim, Text.trimLeft, hdrop, Text.trimRight_append]

/-- Rows after leading parts that cut nothing have pipes together, and the same number of cells. -/
theorem Heads.same_cells {a a' : Text} (h : Heads a a') (x : Text) :
    ('|' ∈ Text.trimMargin (a ++ x) ↔ '|' ∈ Text.trimMargin (a' ++ x))
      ∧ ('|' ∈ Text.trimMargin (a ++ x) →
        (Table.cells (Text.trimMargin (a ++ x))).length = (Table.cells (Text.trimMargin (a' ++ x))).length) := by
  cases hmargin : a.all isMargin with
  | true =>
    have hmargin' : a'.all isMargin = true := h.margin ▸ hmargin
    have hdrop : ∀ b : Text, b.all isMargin = true → Text.trimMargin (b ++ x) = Text.trimMargin x := by
      intro b hb
      rw [Text.trimMargin, Text.trim, Text.trimLeft,
        List.dropWhile_append_of_pos fun c hc => List.all_eq_true.1 hb c hc]
      rfl
    rw [hdrop a hmargin, hdrop a' hmargin']
    exact ⟨Iff.rfl, fun _ => rfl⟩
  | false =>
    obtain ⟨b, hb, hpipe, hescape, heq⟩ := trimMargin_append (x := x) hmargin h.left
    obtain ⟨b', hb', hpipe', hescape', heq'⟩ := trimMargin_append (x := x) (h.margin ▸ hmargin) h.right
    rw [heq, heq']
    split
    · have hnone : ∀ b : Text, '|' ∉ b → '|' ∉ Text.trimRight isMargin b := fun b hb hmem =>
        hb ((List.rdropWhile_prefix isMargin b).subset hmem)
      exact ⟨iff_of_false (hnone b hpipe) (hnone b' hpipe'), fun hmem => absurd hmem (hnone b hpipe)⟩
    · cases hcut : Table.cutRow false (Text.trimRight isMargin x) with
      | nil => exact absurd hcut (Table.cutRow_ne_nil false _)
      | cons p ps =>
        refine ⟨?_, fun _ => ?_⟩
        · rw [List.mem_append, List.mem_append]
          exact or_congr_left (iff_of_false hpipe hpipe')
        · exact length_cells_eq (cutRow_head hpipe hescape hcut) (cutRow_head hpipe' hescape' hcut) (by simp [hb])
            (by simp [hb'])

/-- Alike lines start a table with alike lines, or do not, together. -/
theorem Alike.head?_isNone (h : Alike s s') (ht : Alike t t') :
    (Table.head? (afterIndent s) (afterIndent t)).isNone = (Table.head? (afterIndent s') (afterIndent t')).isNone := by
  obtain ⟨a, a', x, rfl, rfl, hheads⟩ := h.exists_heads
  obtain ⟨hpipe, hlength⟩ := hheads.same_cells x
  unfold Table.head?
  rw [ht.aligns?_eq, trimMargin_afterIndent, trimMargin_afterIndent]
  generalize Text.trimMargin (a ++ x) = row at hpipe hlength ⊢
  generalize Text.trimMargin (a' ++ x) = row' at hpipe hlength ⊢
  cases Table.aligns? (afterIndent t') with
  | none => rfl
  | some aligns =>
    have hcond : ('|' ∈ row ∧ Table.cells row ≠ [] ∧ (Table.cells row).length = aligns.length)
        ↔ ('|' ∈ row' ∧ Table.cells row' ≠ [] ∧ (Table.cells row').length = aligns.length) := by
      rw [← hpipe]
      refine and_congr_right fun hmem => ?_
      rw [← List.length_pos_iff, ← List.length_pos_iff, hlength hmem]
    simp only [Option.bind_eq_bind, Option.bind_some]
    by_cases hrow : '|' ∈ row ∧ Table.cells row ≠ [] ∧ (Table.cells row).length = aligns.length
    · rw [if_pos hrow, if_pos (hcond.1 hrow)]
      rfl
    · rw [if_neg hrow, if_neg fun hrow' => hrow (hcond.2 hrow')]

/-- Alike lines hold tables together. -/
theorem noTable_eq (h : AllAlike ss ss') : noTable ss = noTable ss' := by
  induction h with
  | nil => rfl
  | cons hs hrest ih =>
    cases hrest with
    | nil => rfl
    | cons ht _ => rw [noTable, noTable, hs.head?_isNone ht, ih]

-- ---------------------------------------------------------------------------
-- Paragraphs
-- ---------------------------------------------------------------------------

theorem interrupts_of_open? {f : Fence} (h : Fence.open? s = some f) : interrupts s = true := by
  rw [interrupts, h]
  rfl

theorem interrupts_quoted (s : Text) : interrupts (Line.quoted s) = true := by
  obtain ⟨t, ht⟩ := Line.quoted_eq_cons s
  simp [interrupts, ht]

/-- The line of an item with something in it underlines nothing. -/
theorem underline?_item {digits : Text} {mark : Char} (hmarker : isMarker digits mark) {gap : Nat} (hgap : 1 ≤ gap)
    (hs : flush s) : Heading.underline? (digits ++ [mark] ++ spaces gap ++ s) = none := by
  obtain ⟨c, t, ht, hc⟩ := marker_eq_cons hmarker
  by_cases hhyphen : c = '-'
  · cases digits with
    | cons d digits =>
      obtain rfl := (List.cons_eq_cons.1 ht).1
      exact absurd hhyphen (isDigit_ne (digits_all_isDigit hmarker d List.mem_cons_self) rfl)
    | nil =>
      obtain ⟨rfl, rfl⟩ := List.cons_eq_cons.1 ht
      obtain ⟨n, rfl⟩ : ∃ n, gap = n + 1 := ⟨gap - 1, by omega⟩
      have hrest : ((spaces (n + 1) ++ s).all isIndent) = false := by
        rw [List.all_append]
        exact Bool.and_eq_false_iff.2 (.inr (blank_eq_false_of_flush hs))
      have hdrop : (mark :: (spaces (n + 1) ++ s)).dropWhile (· = mark) = spaces (n + 1) ++ s := by
        rw [hhyphen]
        rfl
      have hline : [] ++ [mark] ++ spaces (n + 1) ++ s = mark :: (spaces (n + 1) ++ s) := rfl
      rw [hline, Heading.underline?, hdrop, hrest, if_neg]
      exact fun h => Bool.noConfusion h.2
  · rw [ht, List.cons_append, List.cons_append]
    refine Heading.underline?_eq_none _ ⟨?_, hhyphen⟩
    rcases hc with hc | rfl | rfl | rfl
    · exact isDigit_ne hc rfl
    all_goals decide

/-- Nothing but the break or the item that the line of an item may be interrupts a paragraph there. -/
theorem breaksParagraph_item {digits : Text} {mark : Char} (hmarker : isMarker digits mark) {gap : Nat} (hgap : 1 ≤ gap)
    (hs : flush s) : breaksParagraph (digits ++ [mark] ++ spaces gap ++ s)
      = ((thematicBreak? (digits ++ [mark] ++ spaces gap ++ s)).isSome
        || (!(⟨digits, mark⟩ : ListMarker).isOrdered || (⟨digits, mark⟩ : ListMarker).number = 1)) := by
  have hread := read?_marker hmarker hgap s
  have hdrop : (digits ++ [mark] ++ spaces gap ++ s).drop (⟨digits, mark⟩ : ListMarker).width = spaces gap ++ s := by
    rw [List.append_assoc]
    exact List.drop_left' (by simp [ListMarker.width])
  have hafter : (spaces gap ++ s).all isIndent = false := by
    rw [List.all_append]
    exact Bool.and_eq_false_iff.2 (.inr (blank_eq_false_of_flush hs))
  have hverbatim := not_verbatim_marker hmarker (spaces gap ++ s)
  rw [← List.append_assoc] at hverbatim
  have hmarkup : HtmlBlock.kind? (digits ++ [mark] ++ spaces gap ++ s) = none
      ∧ Heading.read? (digits ++ [mark] ++ spaces gap ++ s) = none := by
    obtain ⟨c, t, ht, hc⟩ := marker_eq_cons hmarker
    rw [ht, List.cons_append, List.cons_append]
    have hne : c ≠ '<' ∧ c ≠ '#' := by
      rcases hc with hc | rfl | rfl | rfl
      · exact ⟨isDigit_ne hc rfl, isDigit_ne hc rfl⟩
      all_goals decide
    exact ⟨HtmlBlock.kind?_eq_none _ hne.1, Heading.read?_eq_none _ hne.2⟩
  rw [breaksParagraph, interrupts, startsFirmItem, hread, hverbatim.1, underline?_item hmarker hgap hs, hmarkup.1,
    hmarkup.2]
  simp only [Option.isSome_none, Bool.false_or, decide_eq_false hverbatim.2, hdrop, hafter, Option.any_none,
    Bool.or_false, Bool.not_false, Bool.and_true, Option.isNone_none]

/-- Alike lines end a paragraph before them together. -/
theorem Alike.breaksParagraph_eq (h : Alike s s') (hs : flush s) : breaksParagraph s = breaksParagraph s' := by
  have hfence : ∀ {t f}, Fence.open? t = some f → breaksParagraph t = true := by
    intro t f ht
    obtain ⟨heq, hlength, hmark⟩ := Fence.eq_of_open? ht
    obtain ⟨n, hn⟩ : ∃ n, f.length = n + 1 := ⟨f.length - 1, by omega⟩
    have hunderline : Heading.underline? t = none := by
      rw [heq, hn, List.replicate_succ, List.cons_append]
      exact Heading.underline?_eq_none _ (by rcases hmark with hmark | hmark <;> rw [hmark] <;> decide)
    rw [breaksParagraph, interrupts_of_open? ht, hunderline]
    rfl
  have hquoted : ∀ t, breaksParagraph (Line.quoted t) = true := by
    intro t
    have hunderline : Heading.underline? (Line.quoted t) = none := by
      obtain ⟨u, hu⟩ := Line.quoted_eq_cons t
      rw [hu]
      exact Heading.underline?_eq_none u (by decide)
    rw [breaksParagraph, interrupts_quoted, hunderline]
    rfl
  have hbreak := h.thematicBreak?_eq hs
  cases h with
  | same s => rfl
  | fence h h' _ => rw [hfence h, hfence h']
  | quoted _ => rw [hquoted, hquoted]
  | item hmarker hgap hgap' hcontent hcontent' _ =>
    rw [breaksParagraph_item hmarker hgap hcontent, breaksParagraph_item hmarker hgap' hcontent', hbreak]
  | shifted hwidth _ _ => rw [flush_indented hwidth] at hs; cases hs

/-- Alike lines may come after a block without an empty line together. -/
theorem Alike.admits_eq (h : Alike s s') (hs : flush s) (b : Block) : b.admits s = b.admits s' := by
  have hdelimiter : noDelimiter s = noDelimiter s' := by
    have haligns := h.aligns?_eq
    rw [afterIndent_of_flush hs, afterIndent_of_flush (h.flush_eq ▸ hs)] at haligns
    rw [noDelimiter, noDelimiter, haligns]
  cases b with
  | leaf l =>
    simp only [Block.admits, Leaf.admits, hdelimiter, h.breaksParagraph_eq hs]
  | quote bs => rfl
  | list mark tight its => rfl

end Outline
end MdxSafe
