-- SUMMARY: Tables are read back from their rows.
import MdxSafe.Proofs.Markdown.Verbatim
import MdxSafe.Proofs.Text.Trim

/-!
# Reading tables

A row is written with a pipe before every cell and one at its end. Cutting it at its pipes gives an empty
piece, the cells with the blanks around them, and an empty piece, as long as no cell is cut by itself.
-/

namespace MdxSafe

-- ---------------------------------------------------------------------------
-- Rows
-- ---------------------------------------------------------------------------

namespace Layout

/-- A row as its cells, each with the pipe after it. -/
theorem row_eq {cells : List Text} (h : cells ≠ []) :
    row cells = '|' :: cells.flatMap fun w => ' ' :: (w ++ [' ', '|']) := by
  suffices ' ' :: (Text.join " | ".toList cells ++ " |".toList)
      = cells.flatMap fun w => ' ' :: (w ++ [' ', '|']) by
    rw [← this]
    rfl
  induction cells with
  | nil => exact absurd rfl h
  | cons w ws ih =>
    cases ws with
    | nil => simp
    | cons x xs =>
      rw [List.flatMap_cons, ← ih (by simp), Text.join_cons_cons]
      simp

theorem trimMargin_row (cells : List Text) : Text.trimMargin (row cells) = row cells := by
  have hlast : (row cells).getLast? = some '|' := by
    rw [row, List.getLast?_append]
    rfl
  exact Text.trim_eq_self (c := '|') rfl (by decide) hlast (by decide)

theorem flush_row (cells : List Text) : flush (row cells) := rfl

theorem row_ne_nil (cells : List Text) : row cells ≠ [] := ne_nil_of_flush (flush_row cells)

end Layout

namespace Table

theorem cutRow_ne_nil (escaped : Bool) (t : Text) : cutRow escaped t ≠ [] := by
  induction t generalizing escaped with
  | nil => simp [cutRow]
  | cons c t ih =>
    rw [cutRow]
    split
    · simp
    · split
      · exact ih true
      · split <;> simp

/-- A piece that no pipe cuts, before a blank and a pipe. -/
theorem cutRow_append {escaped : Bool} {w p : Text} (h : cutRow escaped w = [p]) (t : Text) :
    cutRow escaped (w ++ ' ' :: '|' :: t) = (p ++ [' ']) :: cutRow false t := by
  induction w generalizing escaped p with
  | nil =>
    rw [cutRow, List.cons.injEq] at h
    simp [cutRow, ← h.1]
  | cons c w ih =>
    rw [cutRow] at h
    rw [List.cons_append, cutRow]
    split at h
    · exact absurd (List.cons.inj h).2 (cutRow_ne_nil false w)
    · next hc =>
      rw [if_neg hc]
      split at h
      · next hb =>
        have hhead : (w ++ ' ' :: '|' :: t).head? = some '|' := by
          cases w with
          | nil => simp at hb
          | cons d w => simpa using hb.2
        rw [if_pos ⟨hb.1, hhead⟩]
        exact ih h
      · next hb =>
        have hhead : ¬ (c = '\\' ∧ (w ++ ' ' :: '|' :: t).head? = some '|') := by
          cases w with
          | nil => simp
          | cons d w => simpa using hb
        rw [if_neg hhead]
        cases hw : cutRow false w with
        | nil => exact absurd hw (cutRow_ne_nil false w)
        | cons q qs =>
          rw [hw, List.cons.injEq] at h
          obtain ⟨rfl, rfl⟩ := h
          rw [ih hw]
          rfl

end Table

namespace Outline

theorem splitRow_eq_of_isCell {w : Text} (h : isCell w) : Table.splitRow w = [(Table.splitRow w).headD []] := by
  simp only [isCell, Bool.and_eq_true, decide_eq_true_eq] at h
  obtain ⟨p, hp⟩ := List.length_eq_one_iff.1 h.1
  rw [hp]
  rfl

/-- A row is cut into its cells. -/
theorem cells_row {cells : List Text} (hne : cells ≠ []) (h : ∀ w ∈ cells, isCell w) :
    Table.cells (Layout.row cells) = cells.map readCell := by
  have hcut : Table.cutRow false (cells.flatMap fun w => ' ' :: (w ++ [' ', '|'])) = cells.map readCell ++ [[]] := by
    induction cells with
    | nil => rfl
    | cons w ws ih =>
      have hw := Table.cutRow_append (splitRow_eq_of_isCell (h w List.mem_cons_self))
        (ws.flatMap fun w => ' ' :: (w ++ [' ', '|']))
      have hws : Table.cutRow false (ws.flatMap fun w => ' ' :: (w ++ [' ', '|'])) = ws.map readCell ++ [[]] := by
        cases ws with
        | nil => rfl
        | cons x xs => exact ih (by simp) fun w hw => h w (List.mem_cons_of_mem _ hw)
      rw [List.flatMap_cons, List.cons_append, List.append_assoc]
      simp only [List.cons_append, List.nil_append]
      rw [Table.cutRow, if_neg (by decide), if_neg (by simp), hw, hws]
      rfl
  have hsplit : Table.splitRow (Layout.row cells) = [] :: (cells.map readCell ++ [[]]) := by
    rw [Table.splitRow, Layout.row_eq hne, Table.cutRow, if_pos (by simp), hcut]
  simp [Table.cells, hsplit]

-- ---------------------------------------------------------------------------
-- The line below the head
-- ---------------------------------------------------------------------------

theorem delimiter_spec (a : Table.Align) :
    Table.align? (Text.trimMargin (' ' :: (delimiter a ++ [' ']))) = some a
      ∧ Text.trimMargin (' ' :: (delimiter a ++ [' '])) ≠ [] ∧ '|' ∉ ' ' :: (delimiter a ++ [' '])
      ∧ (delimiter a).all (fun c => Table.isDelimiter c || isIndent c) ∧ '\n' ∉ delimiter a := by
  cases a <;> decide

theorem alignsFrom_row {aligns : List Table.Align} (hne : aligns ≠ []) :
    Table.alignsFrom true (Text.splitOn '|' (Layout.row (aligns.map delimiter))) = some aligns := by
  have hsplit : ∀ as : List Table.Align, Text.splitOn '|' ((as.map delimiter).flatMap fun w => ' ' :: (w ++ [' ', '|']))
      = (as.map fun a => ' ' :: (delimiter a ++ [' '])) ++ [[]] := by
    intro as
    induction as with
    | nil => rfl
    | cons a as ih =>
      have hcell : (' ' :: (delimiter a ++ [' ', '|'])) = (' ' :: (delimiter a ++ [' '])) ++ ['|'] := by simp
      rw [List.map_cons, List.flatMap_cons, hcell, List.append_assoc, List.singleton_append,
        Text.splitOn_append_cons (delimiter_spec a).2.2.1, ih]
      rfl
  have hfrom : ∀ as : List Table.Align,
      Table.alignsFrom false ((as.map fun a => ' ' :: (delimiter a ++ [' '])) ++ [[]]) = some as := by
    intro as
    induction as with
    | nil => rfl
    | cons a as ih =>
      rw [List.map_cons, List.cons_append, Table.alignsFrom]
      simp only [(delimiter_spec a).2.1, if_false, (delimiter_spec a).1, ih]
      rfl
  rw [Layout.row_eq (by simpa using hne), ← List.nil_append ('|' :: _), Text.splitOn_append_cons (by simp), hsplit,
    Table.alignsFrom]
  exact hfrom aligns

theorem aligns?_row {aligns : List Table.Align} (hne : aligns ≠ []) :
    Table.aligns? (Layout.row (aligns.map delimiter)) = some aligns := by
  have hall : (Layout.row (aligns.map delimiter)).all fun c => Table.isDelimiter c || isIndent c := by
    rw [Layout.row_eq (by simpa using hne), List.all_cons]
    refine Bool.and_eq_true_iff.2 ⟨rfl, ?_⟩
    simp only [List.all_eq_true, List.mem_flatMap, List.mem_map, List.mem_cons, List.mem_append]
    rintro c ⟨w, ⟨a, -, rfl⟩, rfl | hc | rfl | rfl | hc⟩
    · rfl
    · exact List.all_eq_true.1 (delimiter_spec a).2.2.2.1 c hc
    · rfl
    · rfl
    · cases hc
  have hrow : ∃ t, Layout.row (aligns.map delimiter) = '|' :: ' ' :: t := ⟨_, rfl⟩
  have hfrom := alignsFrom_row hne
  obtain ⟨t, ht⟩ := hrow
  rw [ht] at hall hfrom ⊢
  simp only [List.all_cons, Bool.and_eq_true] at hall
  have hpipe : (Table.isDelimiter '|' && (Table.isDelimiter ' ' || isIndent ' ')
      && !('|' = '-' && isIndent ' ')) = true := by decide
  rw [Table.aligns?, if_pos]
  · exact hfrom
  · rw [hpipe, List.all_cons, List.all_cons, hall.1, hall.2.1, hall.2.2]
    rfl

/-- The first two rows of a table are its head. -/
theorem head?_rows {aligns : List Table.Align} {head : List Text} (hne : head ≠ [])
    (hlen : head.length = aligns.length) (hcells : ∀ w ∈ head, isCell w) :
    Table.head? (Layout.row head) (Layout.row (aligns.map delimiter)) = some (head.map readCell, aligns) := by
  have haligns : aligns ≠ [] := by
    rintro rfl
    exact hne (List.length_eq_zero_iff.1 hlen)
  have hpipe : '|' ∈ Layout.row head := List.mem_cons_self
  simp [Table.head?, aligns?_row haligns, Layout.trimMargin_row, cells_row hne hcells, hpipe, hne, hlen]

/-- The lines of a table are its rows. -/
theorem lines_table {opts : Layout.Options} {aligns : List Table.Align} {head : List Text} {rows : List (List Text)}
    (h : TableLaid aligns head rows) :
    (Leaf.table aligns head rows).lines opts = tableRows aligns head rows := by
  have hrow : ∀ cells : List Text, (∀ w ∈ cells, '\n' ∉ w) → '\n' ∉ Layout.row cells := by
    intro cells h
    by_cases hne : cells = []
    · subst hne
      decide
    · rw [Layout.row_eq hne]
      simp only [List.mem_cons, List.mem_flatMap, List.mem_append, not_or, not_exists, not_and]
      exact ⟨by decide, fun w hw => ⟨by decide, h w hw, by decide, by decide, by simp⟩⟩
  have hcell : ∀ w : Text, isCell w → '\n' ∉ w := by
    intro w hw
    simp only [isCell, Bool.and_eq_true, decide_eq_true_eq] at hw
    exact hw.2
  refine Text.splitOn_join ?_ (by simp [tableRows])
  intro t ht
  simp only [tableRows, List.mem_cons, List.mem_map] at ht
  rcases ht with rfl | rfl | ⟨r, hr, rfl⟩
  · exact hrow head fun w hw => hcell w (h.head w hw)
  · refine hrow _ fun w hw => ?_
    obtain ⟨a, -, rfl⟩ := List.mem_map.1 hw
    exact (delimiter_spec a).2.2.2.2
  · exact hrow r fun w hw => hcell w (h.row r hr w hw)

end Outline

namespace Block

open Outline

variable {z : Zone} {i stop fuel : Nat} {refs : List Reference} {opts : Layout.Options} {gap : Text → Prop}

-- ---------------------------------------------------------------------------
-- Tables
-- ---------------------------------------------------------------------------

theorem interrupts_row {cells : List Text} (hs : z.Shows i (Layout.row cells)) (stop : Nat) :
    z.interrupts .table i stop = false := by
  have hflush := Layout.flush_row cells
  have hrow : ∃ t, Layout.row cells = '|' :: t := ⟨_, rfl⟩
  obtain ⟨t, ht⟩ := hrow
  rw [ht] at hs hflush
  have hmarker : ListMarker.read? ('|' :: t) = none := ListMarker.read?_eq_none t (by decide) (by decide)
  simp [Zone.interrupts, hs.fence?_eq hflush, hs.isQuote_eq hflush, hs.break?_eq hflush, hs.marker?_eq hflush,
    hs.html?_eq hflush, hs.heading?_eq hflush, hmarker, Fence.open?_eq_none t (by decide : '|' ≠ '~' ∧ '|' ≠ '`'),
    thematicBreak?_eq_none t (by decide : '|' ≠ '*' ∧ '|' ≠ '-' ∧ '|' ≠ '_'),
    HtmlBlock.kind?_eq_none t (by decide : '|' ≠ '<'), Heading.read?_eq_none t (by decide : '|' ≠ '#')]

/-- The rows of a table end before what follows it. -/
theorem tableRows_end {touch : Text → Prop} {columns n : Nat} {missing : Int}
    (hfollow : z.Follows n stop touch gap) (hstop : stop ≤ z.bound) (htouch : ∀ f, ¬ touch f) :
    z.tableRows columns stop fuel n missing = .ok ([], n) := by
  cases fuel with
  | zero => rfl
  | succ fuel =>
    have hblank : z.Shows n [] → z.tableRows columns stop (fuel + 1) n missing = .ok ([], n) := by
      intro hs
      have hrow : Text.trimMargin (z.content n) = [] := by
        rw [hs.content_eq]
        rfl
      simp [Zone.tableRows, hs.isCutOff_eq, hrow]
    cases hfollow with
    | atEnd hn => simp [Zone.tableRows, Nat.le_trans hstop hn]
    | stopGap _ hs => exact hblank hs
    | outside _ hs => exact hblank hs
    | gap _ hs => exact hblank hs
    | sibling _ _ _ ho =>
      have ho : z.isOutside n = true := decide_eq_true ho
      simp [Zone.tableRows, ho]
    | touch _ f _ _ hf => exact absurd hf (htouch f)

theorem tableRows_eq {touch : Text → Prop} {columns : Nat} {rows : List (List Text)}
    (hshows : z.ShowsAll i (rows.map Layout.row)) (hle : i + rows.length ≤ stop)
    (hrows : ∀ r ∈ rows, r.length = columns ∧ ∀ w ∈ r, isCell w) (hcolumns : columns ≠ 0)
    (hfollow : z.Follows (i + rows.length) stop touch gap) (hstop : stop ≤ z.bound) (htouch : ∀ f, ¬ touch f)
    (hfuel : rows.length ≤ fuel) :
    z.tableRows columns stop fuel i 0 = .ok (rows.map fun r => r.map readCell, i + rows.length) := by
  induction rows generalizing i fuel with
  | nil => exact tableRows_end hfollow hstop htouch
  | cons r rows ih =>
    cases fuel with
    | zero => simp at hfuel
    | succ fuel =>
      have hlen : i + (r :: rows).length = i + 1 + rows.length := by
        rw [List.length_cons]
        omega
      rw [hlen] at hfollow hle ⊢
      have hs : z.Shows i (Layout.row r) := hshows.head
      have hflush := Layout.flush_row r
      obtain ⟨hcount, hcells⟩ := hrows r List.mem_cons_self
      have hne : r ≠ [] := by
        rintro rfl
        exact hcolumns hcount.symm
      have hmissing : (0 : Int) + (columns - (List.map readCell r).length) = 0 := by
        rw [List.length_map, hcount]
        omega
      have hrest := ih hshows.tail hle (fun q hq => hrows q (List.mem_cons_of_mem _ hq)) hfollow
        (Nat.le_of_succ_le_succ hfuel)
      have hmax : ¬ Table.maxMissing < 0 := by decide
      rw [Zone.tableRows]
      simp only [hs.isOutside_eq (ne_nil_of_flush hflush), hs.isCutOff_eq, hs.content_eq_self hflush,
        Layout.trimMargin_row, interrupts_row hs, Layout.row_ne_nil, hs.isCode_eq hflush, cells_row hne hcells,
        hmissing, hmax, hrest]
      rw [if_neg (by simp; omega)]
      rfl

theorem reads_table {aligns : List Table.Align} {head : List Text} {rows : List (List Text)}
    (hl : (Leaf.table aligns head rows).isLaid opts)
    (hsees : z.Sees i stop ((Leaf.table aligns head rows).lines opts))
    (hfollow : z.Follows (i + ((Leaf.table aligns head rows).lines opts).length) stop
      (fun f => (Leaf.table aligns head rows).admits f) gap) :
    block (fuel + 1) z refs i stop
      = .ok ⟨((Leaf.table aligns head rows).tokens opts false).toArray,
          i + ((Leaf.table aligns head rows).lines opts).length, refs, true⟩ := by
  replace hl := isLaid_table_iff.1 hl
  have htouch : ∀ f, ¬ (Leaf.table aligns head rows).admits f := by
    intro f hf
    simp [Leaf.admits, Leaf.isClosed] at hf
  rw [lines_table hl] at hsees hfollow ⊢
  have hcount : (tableRows aligns head rows).length = rows.length + 2 := by simp [tableRows]
  have hnext : i + 2 + rows.length = i + (tableRows aligns head rows).length := by omega
  have hle := hsees.le_stop
  have hs := hsees.shows.head
  have ht := hsees.shows.tail.head
  have hflush := Layout.flush_row head
  have hflusht := Layout.flush_row (aligns.map delimiter)
  have hhead : z.tableHead? i stop = some (head.map readCell, aligns) := by
    rw [Zone.tableHead?, hs.content_eq_self hflush, ht.content_eq_self hflusht, head?_rows hl.ne_nil hl.length_head hl.head,
      hs.isCode_eq hflush, ht.isCode_eq hflusht, ht.isOutside_eq (ne_nil_of_flush hflusht)]
    simp
    omega
  have hread : z.tableRows (head.map readCell).length stop (stop - i + 1) (i + 2) 0
      = .ok (rows.map fun r => r.map readCell, i + 2 + rows.length) := by
    rw [← hnext] at hfollow
    rw [List.length_map]
    refine tableRows_eq hsees.shows.tail.tail (by omega) (fun r hr => ⟨?_, hl.row r hr⟩) ?_ hfollow
      hsees.stop_le htouch (by omega)
    · rw [hl.length_row r hr, hl.length_head]
    · exact fun h => hl.ne_nil (List.length_eq_zero_iff.1 h)
  have hbefore : leafBefore? z i stop
      = .ok (some ((Leaf.table aligns head rows).tokens opts false, i + (tableRows aligns head rows).length)) := by
    rw [← hnext]
    simp only [leafBefore?, Zone.frontMatterAt?_eq_none hsees.plain, hhead, hread]
    rfl
  exact block_of_leafBefore hbefore

-- ---------------------------------------------------------------------------
-- Blocks without blocks inside
-- ---------------------------------------------------------------------------

/-- A block without blocks inside is read back from its lines. -/
theorem reads_leaf (hopts : opts.thematicBreak = "***".toList) {l : Leaf} (hl : l.isLaid opts)
    (hsees : z.Sees i stop (l.lines opts))
    (hfollow : z.Follows (i + (l.lines opts).length) stop (fun f => l.admits f) gap) :
    block (fuel + 1) z refs i stop
      = .ok ⟨(l.tokens opts false).toArray, i + (l.lines opts).length, refs, true⟩ := by
  cases l with
  | paragraph u => exact reads_paragraph hl hsees hfollow
  | heading level u => exact reads_heading hl hsees hfollow
  | code info payload => exact reads_code hl hsees hfollow
  | html v => exact reads_html hl hsees hfollow
  | rule => exact reads_rule hopts hsees hfollow
  | table aligns head rows => exact reads_table hl hsees hfollow

end Block
end MdxSafe
