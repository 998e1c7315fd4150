-- SUMMARY: How the lines of laid outlines start and end, and what their first lines are the markers of.
import MdxSafe.Proofs.Markdown.Edge
import MdxSafe.Proofs.Markdown.Table

/-!
# The shape of lines

The lines of every laid block start flush and do not end with an empty one, and so do those of its content.
The first line of a list is a list marker for the reader, the first line of any other block is not.
-/

namespace MdxSafe

/-- Conventions under which a layout is read back: items are indented by one to four columns, and a thematic
break is made of asterisks. -/
structure Layout.Options.Readable (opts : Layout.Options) : Prop where
  one_le_indent : 1 ≤ opts.itemIndent
  indent_le_four : opts.itemIndent ≤ 4
  thematicBreak_eq : opts.thematicBreak = "***".toList

theorem Layout.Options.readable_default : Layout.Options.Readable {} :=
  ⟨by decide, by decide, rfl⟩

namespace Outline

variable {opts : Layout.Options}

-- ---------------------------------------------------------------------------
-- Spreading groups of lines
-- ---------------------------------------------------------------------------

@[simp] theorem spread_nil (gap : List Text) : spread gap [] = [] := rfl

@[simp] theorem spread_singleton (gap group : List Text) : spread gap [group] = group := by
  simp [spread]

theorem spread_cons_cons (gap group group' : List Text) (groups : List (List Text)) :
    spread gap (group :: group' :: groups) = group ++ gap ++ spread gap (group' :: groups) := by
  simp [spread]

theorem framed_spread {gap : List Text} {groups : List (List Text)} (hne : groups ≠ [])
    (h : ∀ g ∈ groups, Framed g) : Framed (spread gap groups) := by
  induction groups with
  | nil => exact absurd rfl hne
  | cons group groups ih =>
    have hgroup := h group List.mem_cons_self
    cases groups with
    | nil => rwa [spread_singleton]
    | cons group' groups =>
      rw [spread_cons_cons]
      exact hgroup.append (ih (by simp) fun g hg => h g (List.mem_cons_of_mem _ hg)) gap

-- ---------------------------------------------------------------------------
-- Markers
-- ---------------------------------------------------------------------------

theorem isDigit_ne {c d : Char} (hc : c.isDigit) (hd : d.isDigit = false) : c ≠ d := by
  rintro rfl
  rw [hc] at hd
  cases hd

/-- A marker starts with a digit or a bullet. -/
theorem marker_eq_cons {digits : Text} {mark : Char} (h : isMarker digits mark) :
    ∃ c t, digits ++ [mark] = c :: t ∧ (c.isDigit ∨ c = '*' ∨ c = '-' ∨ c = '+') := by
  cases isMarker_iff.1 h with
  | bullet hmark => exact ⟨mark, [], rfl, .inr hmark⟩
  | number hne _ _ hdigits =>
    obtain ⟨c, cs, rfl⟩ := List.exists_cons_of_ne_nil hne
    exact ⟨c, cs ++ [mark], rfl, .inl (hdigits c List.mem_cons_self)⟩

theorem mark_mem {digits : Text} {mark : Char} (h : isMarker digits mark) : mark ∈ ['-', '*', '+', '.', ')'] := by
  cases isMarker_iff.1 h with
  | bullet hmark => rcases hmark with rfl | rfl | rfl <;> decide
  | number _ hmark _ _ => rcases hmark with rfl | rfl <;> decide

theorem mark_isDigit {digits : Text} {mark : Char} (h : isMarker digits mark) : mark.isDigit = false := by
  have hmem := mark_mem h
  simp only [List.mem_cons, List.not_mem_nil, or_false] at hmem
  rcases hmem with rfl | rfl | rfl | rfl | rfl <;> rfl

theorem digits_all_isDigit {digits : Text} {mark : Char} (h : isMarker digits mark) :
    ∀ c ∈ digits, c.isDigit := by
  cases isMarker_iff.1 h with
  | bullet _ => nofun
  | number _ _ _ hdigits => exact hdigits

/-- A marker holds no other character than digits and what marks an item. -/
theorem notMem_marker {digits : Text} {mark c : Char} (h : isMarker digits mark) (hd : c.isDigit = false)
    (hc : c ∉ ['-', '*', '+', '.', ')']) : c ∉ digits ++ [mark] := by
  rw [List.mem_append, List.mem_singleton]
  rintro (hmem | rfl)
  · exact isDigit_ne (digits_all_isDigit h c hmem) hd rfl
  · exact hc (mark_mem h)

theorem flush_marker {digits : Text} {mark : Char} (h : isMarker digits mark) : flush (digits ++ [mark]) := by
  obtain ⟨c, t, ht, hc⟩ := marker_eq_cons h
  rw [ht, flush_cons, Bool.not_eq_true', isIndent, Bool.or_eq_false_iff, decide_eq_false_iff_not,
    decide_eq_false_iff_not]
  rcases hc with hc | rfl | rfl | rfl
  · exact ⟨isDigit_ne hc rfl, isDigit_ne hc rfl⟩
  all_goals decide

/-- The marker of an item is read back from its line. -/
theorem read?_marker {digits : Text} {mark : Char} (h : isMarker digits mark) {gap : Nat} (hgap : 1 ≤ gap)
    (s : Text) : ListMarker.read? (digits ++ [mark] ++ spaces gap ++ s) = some ⟨digits, mark⟩ := by
  obtain ⟨n, rfl⟩ : ∃ n, gap = n + 1 := ⟨gap - 1, by omega⟩
  have hline : digits ++ [mark] ++ spaces (n + 1) ++ s = digits ++ mark :: ' ' :: (spaces n ++ s) := by
    simp [spaces, List.replicate_succ]
  have htake : (digits ++ mark :: ' ' :: (spaces n ++ s)).takeWhile Char.isDigit = digits := by
    rw [List.takeWhile_append_of_pos (digits_all_isDigit h)]
    simp [mark_isDigit h]
  have hfits : (if digits = [] then decide (mark = '*') || decide (mark = '-') || decide (mark = '+')
      else (decide (mark = '.') || decide (mark = ')')) && decide (digits.length ≤ 9)) = true := by
    cases isMarker_iff.1 h with
    | bullet hmark => simpa [or_assoc] using hmark
    | number hne hmark hlength _ => simp [hne, hmark, hlength]
  rw [hline, ListMarker.read?, htake]
  simp only [List.drop_left, hfits]
  rfl

/-- The line of an item starts neither code nor a quote. -/
theorem not_verbatim_marker {digits : Text} {mark : Char} (h : isMarker digits mark) (s : Text) :
    Fence.open? (digits ++ [mark] ++ s) = none ∧ (digits ++ [mark] ++ s).head? ≠ some '>' := by
  obtain ⟨c, t, ht, hc⟩ := marker_eq_cons h
  rw [ht, List.cons_append]
  have hne : c ≠ '~' ∧ c ≠ '`' ∧ c ≠ '>' := by
    rcases hc with hc | rfl | rfl | rfl
    · exact ⟨isDigit_ne hc rfl, isDigit_ne hc rfl, isDigit_ne hc rfl⟩
    all_goals decide
  refine ⟨Fence.open?_eq_none _ ⟨hne.1, hne.2.1⟩, ?_⟩
  simpa using hne.2.2

-- ---------------------------------------------------------------------------
-- Lines of leaves
-- ---------------------------------------------------------------------------

theorem framed_of_mem {ss : List Text} {s t : Text} (hhead : ss.head? = some s) (hs : flush s)
    (hlast : ss.getLast? = some t) (ht : blank t = false) : Framed ss :=
  ⟨⟨s, hhead, hs⟩, ⟨t, hlast, ht⟩⟩

theorem last_blank_of_endsOnLast {k : HtmlBlock.Kind} (hk : endsByMark k) {ss : List Text} (h : endsOnLast k ss) :
    ∃ t, ss.getLast? = some t ∧ blank t = false := by
  induction ss with
  | nil => cases h
  | cons s ss ih =>
    cases ss with
    | nil =>
      refine ⟨s, rfl, ?_⟩
      by_contra hb
      rw [Bool.not_eq_false, blank_iff_afterIndent] at hb
      rw [endsOnLast, hb, Block.endsAt_nil, hk] at h
      cases h
    | cons t ts =>
      simp only [endsOnLast, Bool.and_eq_true] at h
      obtain ⟨u, hu, hblank⟩ := ih h.2
      exact ⟨u, by rw [List.getLast?_cons_cons, hu], hblank⟩

/-- An HTML block ends with a line that is not blank, be it by its mark or by what comes after it. -/
theorem framed_html {v s : Text} {ss : List Text} {k : HtmlBlock.Kind} (h : HtmlLaid v s ss k) : Framed (s :: ss) := by
  refine ⟨⟨s, rfl, h.flush⟩, ?_⟩
  have hends := h.ends
  split at hends
  · next hk => exact last_blank_of_endsOnLast hk hends
  · simp only [List.all_eq_true, Bool.not_eq_true'] at hends
    cases ss with
    | nil => exact ⟨s, rfl, blank_eq_false_of_flush h.flush⟩
    | cons t ts =>
      refine ⟨(t :: ts).getLast (by simp), by simp [List.getLast?_eq_some_getLast], ?_⟩
      exact hends _ (List.getLast_mem _)

theorem framed_code {info payload : Text} (h : CodeLaid opts info payload) :
    Framed ((Leaf.code info payload).lines opts) := by
  obtain ⟨ps, -, hlines⟩ := exists_lines_code h.line h.ended
  obtain ⟨n, hfence, hn⟩ := exists_isFence opts info payload
  have hlast : flush (List.replicate n (fenceMark opts info)) := by simpa using hn.flush []
  rw [hlines, hfence]
  refine framed_of_mem rfl (hn.flush info) ?_ (blank_eq_false_of_flush hlast)
  rw [List.getLast?_cons_of_ne_nil (by simp), List.getLast?_concat]

theorem framed_leaf (hopts : opts.Readable) {l : Leaf} (hl : l.isLaid opts) : Framed (l.lines opts) := by
  cases l with
  | paragraph u =>
    obtain ⟨s, ss, h⟩ := isLaid_paragraph_iff.1 hl
    have hlines : (Leaf.paragraph u).lines opts = s :: ss := h.lines
    rw [hlines]
    refine .of_flush (by simp) fun t ht => ?_
    rcases List.mem_cons.1 ht with rfl | ht
    · exact h.first.flush
    · exact flush_of_continuesParagraph (h.rest t ht)
  | heading level u =>
    obtain ⟨hread, hline⟩ := isLaid_heading_iff.1 hl
    obtain ⟨t, ht⟩ := Block.exists_cons_of_heading hread
    rw [lines_heading hline, ht]
    exact .of_flush (by simp) (by simp [flush, isIndent])
  | code info payload => exact framed_code (isLaid_code_iff.1 hl)
  | html v =>
    obtain ⟨s, ss, k, h⟩ := isLaid_html_iff.1 hl
    have hlines : (Leaf.html v).lines opts = s :: ss := h.lines
    rw [hlines]
    exact framed_html h
  | rule =>
    rw [lines_rule hopts.thematicBreak_eq]
    exact .of_flush (by simp) (by simp [flush, isIndent])
  | table aligns head rows =>
    rw [lines_table (isLaid_table_iff.1 hl)]
    refine .of_flush (by simp [tableRows]) fun t ht => ?_
    simp only [tableRows, List.mem_cons, List.mem_map] at ht
    rcases ht with rfl | rfl | ⟨r, -, rfl⟩
    all_goals exact Layout.flush_row _

-- ---------------------------------------------------------------------------
-- Lines of blocks
-- ---------------------------------------------------------------------------

theorem aligns?_quoted (s : Text) : Table.aligns? (Line.quoted s) = none := by
  obtain ⟨t, ht⟩ := Line.quoted_eq_cons s
  rw [ht]
  exact Table.aligns?_eq_none t rfl

theorem framed_quoted {ss : List Text} (h : Framed ss) : Framed (ss.map Line.quoted) := by
  refine .of_flush (by simpa using h.ne_nil) fun t ht => ?_
  obtain ⟨s, -, rfl⟩ := List.mem_map.1 ht
  exact Line.flush_quoted s

theorem framed_itemLines {digits : Text} {mark : Char} (hm : isMarker digits mark) {ss : List Text} (h : Framed ss) :
    Framed (itemLines opts (digits ++ [mark]) ss) := by
  obtain ⟨s, rest, rfl, -⟩ := h.exists_cons
  have hline := Block.flush_item (m := ⟨digits, mark⟩) (flush_marker hm) opts.itemIndent s
  refine ⟨⟨_, rfl, hline⟩, ?_⟩
  cases rest with
  | nil => exact ⟨_, rfl, blank_eq_false_of_flush hline⟩
  | cons t ts =>
    obtain ⟨u, hu, hblank⟩ := h.last
    have hne : u ≠ [] := by
      rintro rfl
      cases hblank
    rw [List.getLast?_cons_cons] at hu
    refine ⟨indented ((digits ++ [mark]).length + opts.itemIndent) u, ?_, ?_⟩
    · rw [itemLines, List.getLast?_cons_of_ne_nil (by simp), List.getLast?_map, hu]
      rfl
    · rw [indented, if_neg hne, blank, List.all_append]
      exact Bool.and_eq_false_iff.2 (.inr hblank)

theorem groups_ne_nil {bs : List Block} (h : bs ≠ []) : groups opts bs ≠ [] := by
  cases bs with
  | nil => exact absurd rfl h
  | cons b bs => simp [groups]

theorem itemGroups_ne_nil {mark : Char} {tight : Bool} {its : List Item} (h : its ≠ []) :
    itemGroups opts mark tight its ≠ [] := by
  cases its with
  | nil => exact absurd rfl h
  | cons it its => simp [itemGroups]

mutual
theorem framed_block (hopts : opts.Readable) :
    (b : Block) → ∀ {depth : Nat}, b.isLaid opts depth → Framed (b.lines opts)
  | .leaf l, depth, h => by
    exact framed_leaf hopts (isLaid_leaf_iff.1 h).2
  | .quote bs, depth, h => by
    replace h := isLaid_quote_iff.1 h
    exact framed_quoted (framed_spread (groups_ne_nil h.ne_nil) (framed_groups hopts bs h.blocks))
  | .list mark tight its, depth, h => by
    replace h := isLaid_list_iff.1 h
    exact framed_spread (itemGroups_ne_nil h.ne_nil) (framed_itemGroups hopts its h.items)
termination_by structural b => b

theorem framed_groups (hopts : opts.Readable) :
    (bs : List Block) → ∀ {depth : Nat}, areLaid opts depth bs → ∀ g ∈ groups opts bs, Framed g
  | [], depth, h => by simp [groups]
  | b :: bs, depth, h => by
    rw [areLaid_cons_iff] at h
    rw [groups, List.forall_mem_cons]
    exact ⟨framed_block hopts b h.1, framed_groups hopts bs h.2⟩
termination_by structural bs => bs

theorem framed_item (hopts : opts.Readable) :
    (it : Item) → ∀ {depth : Nat} {mark : Char} {tight bullet : Bool}, it.isLaid opts depth mark tight bullet →
      Framed (it.lines opts mark tight)
  | .mk digits bs, depth, mark, tight, bullet, h => by
    replace h := isLaid_item_iff.1 h
    exact framed_itemLines h.marker (framed_spread (groups_ne_nil h.ne_nil) (framed_groups hopts bs h.blocks))
termination_by structural it => it

theorem framed_itemGroups (hopts : opts.Readable) :
    (its : List Item) → ∀ {depth : Nat} {mark : Char} {tight bullet : Bool},
      itemsLaid opts depth mark tight bullet its → ∀ g ∈ itemGroups opts mark tight its, Framed g
  | [], depth, mark, tight, bullet, h => by simp [itemGroups]
  | it :: its, depth, mark, tight, bullet, h => by
    rw [itemsLaid_cons_iff] at h
    rw [itemGroups, List.forall_mem_cons]
    exact ⟨framed_item hopts it h.1, framed_itemGroups hopts its h.2⟩
termination_by structural its => its
end

/-- The lines of the blocks of an item or a quote. -/
theorem framed_blockLines (hopts : opts.Readable) {depth : Nat} {tight : Bool} {bs : List Block} (hne : bs ≠ [])
    (h : areLaid opts depth bs) : Framed (blockLines opts tight bs) :=
  framed_spread (groups_ne_nil hne) (framed_groups hopts bs h)

-- ---------------------------------------------------------------------------
-- First lines
-- ---------------------------------------------------------------------------

/-- The marker that the first line of a block is, if it is a list. -/
def Block.marker? : Block → Option ListMarker
  | .list mark _ its => some ⟨firstDigits its, mark⟩
  | _ => none

theorem read?_leaf (hopts : opts.Readable) {l : Leaf} (hl : l.isLaid opts) :
    ListMarker.read? ((l.lines opts).headD []) = none := by
  cases l with
  | paragraph u =>
    obtain ⟨s, ss, h⟩ := isLaid_paragraph_iff.1 hl
    have hlines : (Leaf.paragraph u).lines opts = s :: ss := h.lines
    rw [hlines]
    exact h.first.marker
  | heading level u =>
    obtain ⟨hread, hline⟩ := isLaid_heading_iff.1 hl
    obtain ⟨t, ht⟩ := Block.exists_cons_of_heading hread
    rw [lines_heading hline, ht]
    exact ListMarker.read?_eq_none t (by decide) (by decide)
  | code info payload =>
    replace hl := isLaid_code_iff.1 hl
    obtain ⟨ps, -, hlines⟩ := exists_lines_code hl.line hl.ended
    obtain ⟨n, hfence, hn⟩ := exists_isFence opts info payload
    obtain ⟨m, rfl⟩ : ∃ m, n = m + 1 := ⟨n - 1, by have := hn.three_le; omega⟩
    rw [hlines, hfence, List.replicate_succ, List.headD_cons, List.cons_append]
    rcases hn.mark_eq with hm | hm
    all_goals
      rw [hm]
      exact ListMarker.read?_eq_none _ (by decide) (by decide)
  | html v =>
    obtain ⟨s, ss, k, h⟩ := isLaid_html_iff.1 hl
    have hlines : (Leaf.html v).lines opts = s :: ss := h.lines
    obtain ⟨t, rfl⟩ := Block.exists_cons_of_html h.kind
    rw [hlines]
    exact ListMarker.read?_eq_none t (by decide) (by decide)
  | rule =>
    rw [lines_rule hopts.thematicBreak_eq]
    rfl
  | table aligns head rows =>
    rw [lines_table (isLaid_table_iff.1 hl)]
    exact ListMarker.read?_eq_none _ (by decide) (by decide)

/-- The first line of an item is its marker, a gap and the first line of its content. -/
theorem exists_item_firstLine (hopts : opts.Readable) {digits : Text} {bs : List Block} {depth : Nat} {mark : Char}
    {tight bullet : Bool} (h : (Item.mk digits bs).isLaid opts depth mark tight bullet) :
    ∃ s ss, (Item.mk digits bs).lines opts mark tight = (digits ++ [mark] ++ spaces opts.itemIndent ++ s) :: ss := by
  replace h := isLaid_item_iff.1 h
  have hframed : Framed (blockLines opts tight bs) := framed_blockLines hopts h.ne_nil h.blocks
  obtain ⟨s, rest, hlines, -⟩ := hframed.exists_cons
  rw [Item.lines]
  rw [blockLines] at hlines
  rw [hlines]
  exact ⟨s, _, rfl⟩

theorem read?_firstLine (hopts : opts.Readable) {b : Block} {depth : Nat} (h : b.isLaid opts depth) :
    ListMarker.read? (b.firstLine opts) = b.marker? := by
  cases b with
  | leaf l =>
    exact read?_leaf hopts (isLaid_leaf_iff.1 h).2
  | quote bs =>
    have hframed := framed_block hopts (.quote bs) h
    rw [Block.firstLine, Block.lines] at *
    obtain ⟨t, rest, hlines, -⟩ := hframed.exists_cons
    rw [hlines]
    have ht : t ∈ (spread (gapLines false) (groups opts bs)).map Line.quoted := hlines ▸ List.mem_cons_self
    obtain ⟨s, -, rfl⟩ := List.mem_map.1 ht
    obtain ⟨u, hu⟩ := Line.quoted_eq_cons s
    rw [hu]
    exact ListMarker.read?_eq_none u (by decide) (by decide)
  | list mark tight its =>
    replace h := isLaid_list_iff.1 h
    cases its with
    | nil => exact absurd rfl h.ne_nil
    | cons it its =>
      obtain ⟨digits, bs⟩ := it
      obtain ⟨hit, -⟩ := itemsLaid_cons_iff.1 h.items
      obtain ⟨s, ss, hlines⟩ := exists_item_firstLine hopts hit
      have hfirst : (Block.list mark tight (.mk digits bs :: its)).firstLine opts
          = digits ++ [mark] ++ spaces opts.itemIndent ++ s := by
        rw [Block.firstLine, Block.lines, itemGroups, hlines]
        cases itemGroups opts mark tight its with
        | nil => rw [spread_singleton, List.headD_cons]
        | cons g gs => rw [spread_cons_cons, List.append_assoc, List.cons_append, List.headD_cons]
      rw [hfirst]
      exact read?_marker (isLaid_item_iff.1 hit).marker hopts.one_le_indent s

/-- Whether a block ends before a line of another one after an empty line: the items of a list may not go on. -/
def Block.endsBefore (b : Block) (f : Text) : Prop :=
  ∀ m n, b.marker? = some m → ListMarker.read? f = some n → m.continues n = false

theorem endsBefore_of_not_continuesList (hopts : opts.Readable) {b c : Block} {depth : Nat}
    (hb : b.isLaid opts depth) (hc : c.isLaid opts depth) (h : continuesList b c = false) :
    b.endsBefore (c.firstLine opts) := by
  intro m n hm hn
  rw [read?_firstLine hopts hc] at hn
  cases b with
  | list mark tight its =>
    cases c with
    | list mark' tight' its' =>
      simp only [Block.marker?, Option.some.injEq] at hm hn
      subst hm hn
      obtain ⟨⟨digits, bs⟩, its, rfl⟩ := List.exists_cons_of_ne_nil (isLaid_list_iff.1 hb).ne_nil
      obtain ⟨⟨digits', bs'⟩, its', rfl⟩ := List.exists_cons_of_ne_nil (isLaid_list_iff.1 hc).ne_nil
      simp only [continuesList, Bool.and_eq_false_iff, decide_eq_false_iff_not] at h
      simp only [ListMarker.continues, ListMarker.isOrdered, firstDigits, List.head?_cons, Option.map_some,
        Option.getD_some, Item.digits, Bool.and_eq_false_iff, beq_eq_false_iff_ne]
      rcases h with h | h
      · exact .inr h
      · left
        simp only [beq_eq_false_iff_ne, ne_eq, decide_eq_decide] at h
        exact fun heq => h (not_iff_not.1 (decide_eq_decide.1 heq))
    | _ => cases hn
  | _ => cases hm

/-- A first line that is no marker ends every block before it. -/
theorem endsBefore_of_read?_eq_none (b : Block) {f : Text} (h : ListMarker.read? f = none) : b.endsBefore f := by
  intro m n _ hn
  rw [h] at hn
  cases hn

theorem flush_firstLine (hopts : opts.Readable) {b : Block} {depth : Nat} (h : b.isLaid opts depth) :
    flush (b.firstLine opts) := by
  obtain ⟨s, rest, hlines, hflush⟩ := (framed_block hopts b h).exists_cons
  rwa [Block.firstLine, hlines]

theorem lt_maxDepth {b : Block} {depth : Nat} (h : b.isLaid opts depth) : depth < Block.maxDepth := by
  cases b with
  | leaf l => exact (isLaid_leaf_iff.1 h).1
  | quote bs => exact (isLaid_quote_iff.1 h).depth_lt
  | list mark tight its => exact (isLaid_list_iff.1 h).depth_lt

end Outline
end MdxSafe
