-- SUMMARY: What the zones inside quotes and list items show, and what follows there.
import MdxSafe.Proofs.Markdown.Follow

/-!
# Moving the left edge

Reading a quote or a list item makes a zone of its own. It shows the lines of the content, and what follows the
container in the zone around it follows the content inside.
-/

namespace MdxSafe

/-- Lines that start flush and do not end with an empty one. -/
structure Framed (ss : List Text) : Prop where
  head : ∃ s, ss.head? = some s ∧ flush s
  last : ∃ s, ss.getLast? = some s ∧ blank s = false

namespace Framed

variable {ss ts : List Text}

theorem exists_cons (h : Framed ss) : ∃ s rest, ss = s :: rest ∧ flush s := by
  obtain ⟨s, hs, hflush⟩ := h.head
  cases ss with
  | nil => cases hs
  | cons t rest =>
    rw [List.head?_cons, Option.some.injEq] at hs
    exact ⟨t, rest, rfl, hs ▸ hflush⟩

theorem ne_nil (h : Framed ss) : ss ≠ [] := by
  obtain ⟨s, rest, rfl, -⟩ := h.exists_cons
  simp

theorem flush_headD (h : Framed ss) : flush (ss.headD []) := by
  obtain ⟨s, rest, rfl, hflush⟩ := h.exists_cons
  exact hflush

theorem length_pos (h : Framed ss) : 0 < ss.length := List.length_pos_iff.2 h.ne_nil

/-- Lines that all stand flush. -/
theorem of_flush (hne : ss ≠ []) (h : ∀ s ∈ ss, flush s) : Framed ss := by
  refine ⟨⟨ss.head hne, List.head?_eq_some_head hne, h _ (List.head_mem hne)⟩,
    ⟨ss.getLast hne, List.getLast?_eq_some_getLast hne, ?_⟩⟩
  exact blank_eq_false_of_flush (h _ (List.getLast_mem hne))

theorem append (hs : Framed ss) (ht : Framed ts) (us : List Text) : Framed (ss ++ us ++ ts) := by
  obtain ⟨s, rest, rfl, hflush⟩ := hs.exists_cons
  obtain ⟨t, ht, hblank⟩ := ht.last
  refine ⟨⟨s, rfl, hflush⟩, ⟨t, ?_, hblank⟩⟩
  rw [List.getLast?_append, ht, Option.some_or]

/-- The last line that the zone shows is not empty. -/
theorem isEmpty_last {z : Block.Zone} {i : Nat} (h : Framed ss) (hshows : z.ShowsAll i ss) :
    z.isEmpty (i + ss.length - 1) = false := by
  obtain ⟨s, hs, hblank⟩ := h.last
  rw [List.getLast?_eq_getElem?] at hs
  have hlast := hshows _ s hs
  have hpos := h.length_pos
  have hline : i + (ss.length - 1) = i + ss.length - 1 := by omega
  rw [hline] at hlast
  exact hlast.isEmpty_eq.trans hblank

end Framed

namespace Block

open Outline

theorem getD_setIfInBounds (a : Array Line) (i k : Nat) (l : Line) :
    (a.setIfInBounds i l).getD k {} = if i = k ∧ i < a.size then l else a.getD k {} := by
  rw [Array.getD_eq_getD_getElem?, Array.getD_eq_getD_getElem?, Array.getElem?_setIfInBounds]
  by_cases hik : i = k
  · subst hik
    by_cases hi : i < a.size
    · simp [hi]
    · simp [hi]
  · simp [hik]

variable {z : Zone} {i stop : Nat} {ss : List Text}

/-- An empty line is one right of any edge. -/
theorem Zone.Shows.nil_of_line_eq {z' : Zone} (h : z.Shows i []) (hline : z'.line i = z.line i)
    (hedge : 0 ≤ z'.edge) : z'.Shows i [] := by
  refine ⟨hedge, ?_⟩
  rw [hline]
  exact h.2

-- ---------------------------------------------------------------------------
-- Quotes
-- ---------------------------------------------------------------------------

/-- The lines of a quote are passed one by one and replaced by what the quote sees of them. -/
theorem quoteLines_run (fuel : Nat) (empty : Bool) (lines : Array Line) (h : z.ShowsAll i (ss.map Line.quoted))
    (hle : i + ss.length ≤ stop) (hsize : lines.size = z.lines.size) :
    ∃ lines', quoteLines z stop (fuel + ss.length) i empty lines
        = quoteLines z stop fuel (i + ss.length) ((ss.map blank).getLastD empty) lines'
      ∧ (∀ k, i ≤ k → k < i + ss.length → lines'.getD k {} = unquoted (z.line k))
      ∧ (∀ k, k < i ∨ i + ss.length ≤ k → lines'.getD k {} = lines.getD k {}) := by
  induction ss generalizing i empty lines with
  | nil => exact ⟨lines, rfl, fun k hik hk => absurd hk (by simp; omega), fun k _ => rfl⟩
  | cons s ss ih =>
    have hs : z.Shows i (Line.quoted s) := h.head
    have hflush := Line.flush_quoted s
    have hlt := hs.lt_size
    rw [List.length_cons] at hle
    have hlen : fuel + (s :: ss).length = fuel + ss.length + 1 := by
      rw [List.length_cons]
      omega
    have hnext : i + (s :: ss).length = i + 1 + ss.length := by
      rw [List.length_cons]
      omega
    have hempty : (unquoted (z.line i)).isEmpty = blank s := (Line.shows_unquoted hs.2).isEmpty_eq
    have hquote : ((z.line i).content.head? = some '>' && !z.isOutside i) = true := by
      have hcontent : (z.line i).content = Line.quoted s := hs.content_eq_self hflush
      obtain ⟨t, ht⟩ := Line.quoted_eq_cons s
      rw [hcontent, hs.isOutside_eq (ne_nil_of_flush hflush), ht]
      rfl
    obtain ⟨lines', hrun, hin, hout⟩ := ih (blank s) (lines.setIfInBounds i (unquoted (z.line i))) h.tail
      (by omega) (by rw [Array.size_setIfInBounds, hsize])
    refine ⟨lines', ?_, ?_, ?_⟩
    · have hstop : (decide (stop ≤ i) || (z.line i).isEmpty) = false := by
        have : (z.line i).isEmpty = false := hs.isEmpty_eq_false hflush
        rw [this, Bool.or_false, decide_eq_false_iff_not]
        omega
      rw [hlen, quoteLines]
      simp only [hstop, hquote, Bool.false_eq_true, if_false, if_true]
      rw [hempty, hrun, hnext, List.map_cons, List.getLastD_cons]
    · intro k hik hk
      by_cases hki : k = i
      · subst hki
        rw [hout k (.inl (by omega)), getD_setIfInBounds, if_pos ⟨rfl, by omega⟩]
      · exact hin k (by omega) (by omega)
    · intro k hk
      rw [hout k (by omega), getD_setIfInBounds, if_neg (by omega)]

/-- A quote ends before what follows it, and is interrupted only by the marker of an item around. -/
theorem quoteLines_end {n : Nat} {gap : Text → Prop} (fuel : Nat) (lines : Array Line)
    (hfollow : z.Follows n stop (fun _ => False) gap) (hstop : stop ≤ z.bound) :
    ∃ cut, quoteLines z stop (fuel + 1) n false lines = (lines, n, cut)
      ∧ (cut = false → z.bound ≤ n ∨ z.Shows n []) := by
  have hblank : z.Shows n [] → quoteLines z stop (fuel + 1) n false lines = (lines, n, false) := by
    intro hs
    have hempty : (z.line n).isEmpty = true := hs.isEmpty_eq
    simp [quoteLines, hempty]
  cases hfollow with
  | atEnd h => exact ⟨false, by simp [quoteLines, Nat.le_trans hstop h], fun _ => .inl h⟩
  | stopGap _ hs => exact ⟨false, hblank hs, fun _ => .inr hs⟩
  | outside _ hs => exact ⟨false, hblank hs, fun _ => .inr hs⟩
  | gap _ hs => exact ⟨false, hblank hs, fun _ => .inr hs⟩
  | sibling hlt hne hpos ho hm =>
    refine ⟨true, ?_, fun h => by cases h⟩
    have hout : z.isOutside n = true := decide_eq_true ho
    have hempty : (z.line n).isEmpty = false := hne
    have hint := Zone.Follows.interrupts_sibling ho hm (by decide : Zone.Open.quote ≠ .list) stop
    simp [quoteLines, hempty, hout, hint, Nat.not_le.2 hlt]
  | touch _ _ _ _ hf => exact hf.elim

theorem afterIndent_isSuffix_quoted (s : Text) : afterIndent s <:+ Line.quoted s := by
  have h : afterIndent s <:+ s := List.dropWhile_suffix isIndent
  unfold Line.quoted
  split
  · next hs =>
    subst hs
    exact List.nil_suffix
  · exact h.trans ⟨['>', ' '], rfl⟩

/-- The zone inside a quote of the lines from `i` to before `n`. -/
structure Zone.IsQuoteOf (inner z : Zone) (i n : Nat) : Prop where
  full_eq : inner.full = z.full
  edge_eq : inner.edge = 0
  depth_eq : inner.depth = z.depth + 1
  le_bound : n ≤ inner.bound
  line_eq : ∀ k, i ≤ k → k < n → inner.line k = unquoted (z.line k)
  /-- Nothing stands after the quote, or an empty line. -/
  after : inner.bound ≤ n ∨ z.Shows n [] ∧ inner.line n = z.line n

namespace Zone.IsQuoteOf

variable {inner : Zone} {n : Nat}

theorem shows (h : inner.IsQuoteOf z i n) {k : Nat} {s : Text} (hik : i ≤ k) (hk : k < n)
    (hs : z.Shows k (Line.quoted s)) : inner.Shows k s := by
  refine ⟨Int.le_of_eq h.edge_eq.symm, ?_⟩
  rw [h.edge_eq, h.line_eq k hik hk]
  exact Line.shows_unquoted hs.2

theorem plain (h : inner.IsQuoteOf z 0 n) {s : Text} (hn : 0 < n) (hs : z.Shows 0 (Line.quoted s)) (hz : z.Plain) :
    inner.Plain := by
  rw [Zone.Plain, h.full_eq]
  refine hz.imp_right fun hc hinside => hc ?_
  rw [hs.content_eq_self (Line.flush_quoted s)]
  rw [(h.shows (Nat.le_refl 0) hn hs).content_eq] at hinside
  exact hinside.trans (afterIndent_isSuffix_quoted s).isInfix

/-- The zone inside a quote sees the lines of the content. -/
theorem sees (h : inner.IsQuoteOf z i (i + ss.length)) (hss : Framed ss) (hsees : z.Sees i stop (ss.map Line.quoted)) :
    inner.Sees i (i + ss.length) ss where
  shows := by
    intro k s hk
    have hlt : k < ss.length := (List.getElem?_eq_some_iff.1 hk).1
    exact h.shows (by omega) (by omega) (hsees.shows k _ (by rw [List.getElem?_map, hk]; rfl))
  le_stop := Nat.le_refl _
  stop_le := h.le_bound
  plain := by
    rintro rfl
    obtain ⟨s, rest, rfl, -⟩ := hss.exists_cons
    exact h.plain (by simp) hsees.shows.head (hsees.plain rfl)

/-- Nothing follows inside a quote. -/
theorem follows (h : inner.IsQuoteOf z i n) : inner.Follows n n (fun _ => False) (fun _ => False) := by
  rcases h.after with hbound | ⟨hs, hline⟩
  · exact .atEnd hbound
  · exact .stopGap rfl (hs.nil_of_line_eq hline (Int.le_of_eq h.edge_eq.symm))

end Zone.IsQuoteOf

theorem exists_isQuoteOf {gap : Text → Prop} (hss : Framed ss) (hsees : z.Sees i stop (ss.map Line.quoted))
    (hfollow : z.Follows (i + ss.length) stop (fun _ => False) gap) :
    ∃ inner, quoteZone z i stop = (inner, i + ss.length) ∧ inner.IsQuoteOf z i (i + ss.length) := by
  have hle := hsees.le_stop
  rw [List.length_map] at hle
  have hbound := hsees.stop_le
  have hfuel : stop - i - ss.length + 1 + ss.length = stop - i + 1 := by omega
  obtain ⟨lines, hrun, hin, hout⟩ := quoteLines_run (stop - i - ss.length + 1) false z.lines hsees.shows hle rfl
  have hlast : (ss.map blank).getLastD false = false := by
    obtain ⟨t, ht, hblank⟩ := hss.last
    rw [List.getLastD_eq_getLast?, List.getLast?_map, ht, Option.map_some, hblank]
    rfl
  obtain ⟨cut, hend, hcut⟩ := quoteLines_end (stop - i - ss.length) lines hfollow hbound
  rw [hlast, hend, hfuel] at hrun
  refine ⟨(quoteZone z i stop).1, by simp only [quoteZone, hrun], rfl, rfl, rfl, ?_, fun k hik hk => ?_, ?_⟩
  · simp only [quoteZone, hrun]
    split <;> omega
  · -- whatever is done to the line after the quote, no line before it changes
    rw [← hin k hik hk]
    simp only [Zone.line, quoteZone, hrun]
    split
    · rw [getD_setIfInBounds, if_neg (by omega)]
    · rfl
  · simp only [Zone.line, quoteZone, hrun]
    cases cut with
    | true => exact .inl (Nat.le_refl _)
    | false => exact (hcut rfl).imp_right fun hs => ⟨hs, hout _ (.inr (Nat.le_refl _))⟩

-- ---------------------------------------------------------------------------
-- List items
-- ---------------------------------------------------------------------------

/-- The zone inside an item that starts on line `i`, as the lines after the item are concerned. -/
structure Zone.IsItemOf (inner z : Zone) (i : Nat) : Prop where
  bound_eq : inner.bound = z.bound
  line_eq : ∀ k, k ≠ i → inner.line k = z.line k
  listEdge_eq : inner.listEdge = some z.edge
  edge_nonneg : 0 ≤ z.edge
  edge_lt : z.edge < inner.edge

namespace Zone.IsItemOf

variable {inner : Zone} {n : Nat}

theorem isOutside_of_indent_le (h : inner.IsItemOf z i) (hk : n ≠ i) (hindent : z.indent n ≤ z.edge) :
    inner.isOutside n = true := by
  refine decide_eq_true ?_
  have := h.edge_lt
  rw [Zone.indent, h.line_eq n hk]
  rw [Zone.indent] at hindent
  omega

theorem isEmpty_eq (h : inner.IsItemOf z i) (hk : n ≠ i) : inner.isEmpty n = z.isEmpty n := by
  rw [Zone.isEmpty, Zone.isEmpty, h.line_eq n hk]

/-- The marker of an item of the list around, or of one around that list, ends the item. -/
theorem sibling (h : inner.IsItemOf z i) (hk : n ≠ i) (hn : n < stop) (hne : z.isEmpty n = false)
    (hpos : 0 ≤ z.indent n) (hindent : z.indent n ≤ z.edge) (hm : (ListMarker.read? (z.content n)).isSome)
    {touch gap : Text → Prop} : inner.Follows n stop touch gap := by
  have hlt := h.edge_lt
  have hindent' : inner.indent n = z.indent n := by rw [Zone.indent, Zone.indent, h.line_eq n hk]
  have hcontent : inner.content n = z.content n := by rw [Zone.content, Zone.content, h.line_eq n hk]
  refine .sibling hn ((h.isEmpty_eq hk).trans hne) (by omega) (by omega) ?_
  have hcode : inner.isCode n = false := by
    simp only [Zone.isCode, decide_eq_false_iff_not]
    omega
  have hfar : (decide (4 ≤ z.indent n - z.edge) && inner.isOutside n) = false := by
    rw [Bool.and_eq_false_iff, decide_eq_false_iff_not]
    left
    omega
  simp only [Zone.marker?, hcode, h.listEdge_eq, hindent', hfar, hcontent]
  exact hm

/-- What follows an item follows its content: everything left of the content ends it. -/
theorem follows (h : inner.IsItemOf z i) {gap : Text → Prop} (hin : i < n)
    (hfollow : z.Follows n stop (fun f => (ListMarker.read? f).isSome) gap) :
    inner.Follows n stop (fun _ => False) (fun _ => False) := by
  have hk : n ≠ i := by omega
  have hk' : n + 1 ≠ i := by omega
  have hedge : 0 ≤ inner.edge := by
    have := h.edge_nonneg
    have := h.edge_lt
    omega
  cases hfollow with
  | atEnd hb => exact .atEnd (h.bound_eq ▸ hb)
  | stopGap hn hs => exact .stopGap hn (hs.nil_of_line_eq (h.line_eq n hk) hedge)
  | outside hn hs hne ho =>
    refine .outside hn (hs.nil_of_line_eq (h.line_eq n hk) hedge) ((h.isEmpty_eq hk').trans hne) ?_
    exact h.isOutside_of_indent_le hk' (Int.le_of_lt (of_decide_eq_true ho))
  | gap hn hs f hf hflush =>
    refine .outside hn (hs.nil_of_line_eq (h.line_eq n hk) hedge) ?_ ?_
    · exact (h.isEmpty_eq hk').trans (hf.isEmpty_eq_false hflush)
    · exact h.isOutside_of_indent_le hk' (Int.le_of_eq (hf.indent_eq hflush))
  | sibling hn hne hpos ho hm =>
    refine h.sibling hk hn hne hpos (Int.le_of_lt ho) ?_
    by_contra hread
    rw [Option.not_isSome_iff_eq_none] at hread
    simp [Zone.marker?, hread] at hm
  | touch hn f hf hflush hm =>
    refine h.sibling hk hn (hf.isEmpty_eq_false hflush) ?_ (Int.le_of_eq (hf.indent_eq hflush)) ?_
    · rw [hf.indent_eq hflush]
      exact hf.1
    · rwa [hf.content_eq_self hflush]

end Zone.IsItemOf

theorem length_itemLines {opts : Layout.Options} {marker : Text} (h : ss ≠ []) :
    (itemLines opts marker ss).length = ss.length := by
  obtain ⟨s, rest, rfl⟩ := List.exists_cons_of_ne_nil h
  simp [itemLines]

/-- The zone inside an item whose content stands `gap` blanks after the marker on its line. -/
def inside (z : Zone) (m : ListMarker) (i gap : Nat) : Zone :=
  { z with
    lines := z.lines.setIfInBounds i ((z.line i).afterMarker m.width gap)
    edge := z.edge + (m.width + gap : Nat)
    depth := z.depth + 2
    listEdge := some z.edge }

theorem line_inside {m : ListMarker} {gap : Nat} (hi : i < z.lines.size) (k : Nat) :
    (inside z m i gap).line k = if k = i then (z.line i).afterMarker m.width gap else z.line k := by
  rw [Zone.line, inside, getD_setIfInBounds]
  by_cases hk : k = i
  · rw [if_pos ⟨hk.symm, hi⟩, if_pos hk]
  · rw [if_neg (fun h => hk h.1.symm), if_neg hk]
    rfl

variable {opts : Layout.Options} {m : ListMarker} {s : Text}

theorem flush_item (hmarker : flush (m.digits ++ [m.mark])) (gap : Nat) (s : Text) :
    flush (m.digits ++ [m.mark] ++ spaces gap ++ s) := by
  rw [List.append_assoc]
  exact flush_append hmarker _

/-- The zone that the reader makes for an item. -/
theorem itemZone_eq {gap : Nat} (hgap : gap ≤ 4) (hmarker : flush (m.digits ++ [m.mark])) (hflush : flush s)
    (hs : z.Shows i (m.digits ++ [m.mark] ++ spaces gap ++ s)) : itemZone z m i = (inside z m i gap, false) := by
  have hline := flush_item hmarker gap s
  have hindent := hs.indent_eq hline
  have hpos := hs.1
  have htaken : (z.line i).content.drop m.width = spaces gap ++ s := by
    have hwidth : m.width = (m.digits ++ [m.mark]).length := by simp [ListMarker.width]
    rw [← Zone.content, hs.content_eq_self hline, hwidth, List.append_assoc, List.drop_left]
  have hblanks : (spaces gap ++ s).takeWhile isIndent = spaces gap := by
    rw [takeWhile_spaces_append, takeWhile_isIndent_of_flush hflush, List.append_nil]
  have hlen : (spaces gap).length = gap := List.length_replicate
  have hbare : gap ≠ (spaces gap ++ s).length := by
    have := List.length_pos_iff.2 (ne_nil_of_flush hflush)
    rw [List.length_append, hlen]
    omega
  have hcolumn : columnAfter (z.line i).base ((z.line i).indent.toNat + m.width) (spaces gap)
      = (z.line i).indent.toNat + m.width + gap := columnAfter_spaces _ _ _
  have hwide : ¬ 4 < gap := by omega
  have hedge : (((z.line i).indent.toNat + m.width : Nat) : Int) + (gap : Nat) = z.edge + (m.width + gap : Nat) := by
    rw [Zone.indent] at hindent
    omega
  simp only [itemZone, htaken, hblanks, hcolumn, hbare, inside, Line.afterMarker, hlen, decide_false, Bool.or_self,
    Nat.add_sub_cancel_left, hwide, if_false, Bool.false_eq_true, hedge]

theorem isItemOf_inside {gap : Nat} (hs : z.Shows i s) : (inside z m i gap).IsItemOf z i := by
  refine ⟨rfl, fun k hk => ?_, rfl, hs.1, ?_⟩
  · rw [line_inside hs.lt_size, if_neg hk]
  · have : 0 < m.width := Nat.succ_pos _
    simp only [inside]
    omega

/-- The zone inside an item sees the lines of the content. -/
theorem sees_inside (hmarker : flush (m.digits ++ [m.mark])) (htab : '\t' ∉ m.digits ++ [m.mark]) (hss : Framed ss)
    (hsees : z.Sees i stop (itemLines opts (m.digits ++ [m.mark]) ss)) :
    (inside z m i opts.itemIndent).Sees i stop ss := by
  obtain ⟨s, rest, rfl, hflush⟩ := hss.exists_cons
  have hs := hsees.shows.head
  have hline := flush_item hmarker opts.itemIndent s
  have hlt := hs.lt_size
  have hpos := hs.1
  have hwidth : (m.digits ++ [m.mark]).length = m.width := by simp [ListMarker.width]
  have hedge : 0 ≤ (inside z m i opts.itemIndent).edge := by
    simp only [inside]
    omega
  have htoNat : (inside z m i opts.itemIndent).edge.toNat = z.edge.toNat + (m.width + opts.itemIndent) := by
    simp only [inside]
    omega
  have hle := hsees.le_stop
  rw [length_itemLines (by simp)] at hle
  have hfirst : (inside z m i opts.itemIndent).Shows i s := by
    refine ⟨hedge, ?_⟩
    rw [line_inside hlt, if_pos rfl, htoNat, ← hwidth]
    exact Line.shows_afterMarker hline htab hflush hs.2
  refine ⟨.cons hfirst fun k t hk => ⟨hedge, ?_⟩, hle, hsees.stop_le, ?_⟩
  · have ht := hsees.shows.tail k _ (by rw [List.getElem?_map, hk]; rfl)
    rw [line_inside hlt, if_neg (by omega), htoNat]
    unfold indented at ht
    split at ht
    · next ht' => exact ht' ▸ ht.2
    · next ht' =>
      rw [hwidth] at ht
      exact ht.2.of_spaces ht'
  · rintro rfl
    rcases hsees.plain rfl with hd | hc
    · exact .inl hd
    · refine .inr fun hinside => hc ?_
      rw [hfirst.content_eq_self hflush] at hinside
      rw [hs.content_eq_self hline]
      exact hinside.trans (List.suffix_append _ s).isInfix

end Block
end MdxSafe
