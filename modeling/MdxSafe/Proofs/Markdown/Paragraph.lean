-- SUMMARY: Paragraphs, headings and thematic breaks are read back from their lines.
import MdxSafe.Proofs.Markdown.Follow
import MdxSafe.Proofs.Markdown.Lookahead
import MdxSafe.Proofs.Outline.Tree

/-!
# Reading running text

The reader tries the kinds of blocks one after the other, and a paragraph comes last. For a line that starts
one, all others have to fail; for the lines after it, nothing may end the paragraph before its last line.
-/

namespace MdxSafe

-- ---------------------------------------------------------------------------
-- What a first character excludes
-- ---------------------------------------------------------------------------

theorem Fence.open?_eq_none {c : Char} (t : Text) (h : c ≠ '~' ∧ c ≠ '`') : Fence.open? (c :: t) = none := by
  simp [Fence.open?, h.1, h.2]

theorem Table.aligns?_eq_none {c : Char} (t : Text) (h : isDelimiter c = false) : aligns? (c :: t) = none := by
  cases t with
  | nil => rfl
  | cons d t => simp [aligns?, h]

theorem thematicBreak?_eq_none {c : Char} (t : Text) (h : c ≠ '*' ∧ c ≠ '-' ∧ c ≠ '_') :
    thematicBreak? (c :: t) = none := by
  simp [thematicBreak?, h.1, h.2.1, h.2.2]

theorem ListMarker.read?_eq_none {c : Char} (t : Text) (hd : c.isDigit = false)
    (h : c ≠ '*' ∧ c ≠ '-' ∧ c ≠ '+') : ListMarker.read? (c :: t) = none := by
  simp [ListMarker.read?, hd, h.1, h.2.1, h.2.2]

theorem HtmlBlock.kind?_eq_none {c : Char} (t : Text) (h : c ≠ '<') : HtmlBlock.kind? (c :: t) = none := by
  unfold HtmlBlock.kind?
  split
  · next heq => exact absurd (List.cons_eq_cons.1 heq).1 h
  · rfl

theorem Heading.read?_eq_none {c : Char} (t : Text) (h : c ≠ '#') : Heading.read? (c :: t) = none := by
  simp [Heading.read?, h]

theorem Heading.underline?_eq_none {c : Char} (t : Text) (h : c ≠ '=' ∧ c ≠ '-') : Heading.underline? (c :: t) = none := by
  rw [Heading.underline?, if_neg]
  rintro ⟨hc | hc, -⟩
  · exact h.1 hc
  · exact h.2 hc

namespace Block

open Outline

variable {z : Zone} {i stop fuel : Nat} {s : Text} {refs : List Reference} {opts : Layout.Options}

-- ---------------------------------------------------------------------------
-- The order of kinds
-- ---------------------------------------------------------------------------

theorem block_of_leafBefore {r : List Token × Nat} (h : leafBefore? z i stop = .ok (some r)) :
    block (fuel + 1) z refs i stop = .ok ⟨r.1.toArray, r.2, refs, true⟩ := by
  simp only [block, h]
  rfl

/-- A line that starts neither a table nor code is left to quotes and lists and what comes after. -/
theorem leafBefore?_eq_none (hs : z.Shows i s) (hflush : flush s) (hplain : i = 0 → z.Plain)
    (htable : z.tableHead? i stop = none) (hfence : Fence.open? s = none) :
    leafBefore? z i stop = .ok none := by
  simp only [leafBefore?, Zone.frontMatterAt?_eq_none hplain, htable, hs.isCode_eq hflush, hs.fence?_eq hflush,
    hfence]
  rfl

theorem block_of_leafAfter {r : List Token × Nat} (hbefore : leafBefore? z i stop = .ok none)
    (hs : z.Shows i s) (hflush : flush s) (hquote : s.head? ≠ some '>') (hbreak : thematicBreak? s = none)
    (hmarker : ListMarker.read? s = none) (hdef : definition? z i = none) (h : leafAfter z i stop = .ok r) :
    block (fuel + 1) z refs i stop = .ok ⟨r.1.toArray, r.2, refs, true⟩ := by
  have hq : z.isQuote i = false := by simp [hs.isQuote_eq hflush, hquote]
  have hb : breakAt? z i = none := by simp [breakAt?, hs.break?_eq hflush, hbreak]
  have hm : z.marker? i = none := (hs.marker?_eq hflush).trans hmarker
  simp only [block, hbefore, hq, hb, hm, hdef, h]
  rfl

/-- A line that does not start with a bracket starts no definition, whatever comes after it. -/
theorem definition?_eq_none_of_head (hs : z.Shows i s) (hflush : flush s) (h : s.head? ≠ some '[') :
    definition? z i = none := by
  have hread : ∀ more fuel, Definition.read? more fuel (s ++ ['\n']) = none := by
    intro more fuel
    refine Definition.read?_eq_none more fuel ?_
    cases s with
    | nil => simp
    | cons c t => exact h
  simp [definition?, hs.isCode_eq hflush, hs.content_eq_self hflush, hs.ending_eq, hread]

-- ---------------------------------------------------------------------------
-- Heads of tables
-- ---------------------------------------------------------------------------

/-- No table starts on the first of a run of lines if the first two are not its head. -/
theorem tableHead?_eq_none_of_sees {ss : List Text} {stop' : Nat} {touch gap : Text → Prop}
    (hsees : z.ShowsAll i ss) (hne : ss ≠ []) (htable : noTable (ss.take 2))
    (hfollow : z.Follows (i + ss.length) stop touch gap) (htouch : ∀ f, touch f → Table.aligns? f = none)
    (hstop' : stop' ≤ z.bound) : z.tableHead? i stop' = none := by
  match ss with
  | [s] => exact hfollow.tableHead?_eq_none hsees.head hstop' htouch
  | s :: t :: ss =>
    simp only [List.take_succ_cons, List.take_zero, noTable, Bool.and_true, Option.isNone_iff_eq_none] at htable
    exact Zone.tableHead?_eq_none hsees.head hsees.tail.head htable

theorem noTable_take {ss : List Text} (h : noTable ss) : noTable (ss.take 2) := by
  match ss with
  | [] | [_] => exact h
  | s :: t :: ss =>
    simp only [noTable, Bool.and_eq_true] at h
    simpa [noTable] using h.1

theorem noTable_drop {ss : List Text} (h : noTable ss) (n : Nat) : noTable (ss.drop n) := by
  induction n generalizing ss with
  | zero => exact h
  | succ n ih =>
    match ss with
    | [] => exact h
    | [s] => simp [noTable]
    | s :: t :: ss =>
      simp only [noTable, Bool.and_eq_true] at h
      exact ih h.2

/-- No table starts on any of a run of lines if no two of them are its head. -/
theorem tableHead?_eq_none_of_mem {ss : List Text} {stop' k : Nat} {touch gap : Text → Prop}
    (hsees : z.ShowsAll i ss) (htable : noTable ss) (hfollow : z.Follows (i + ss.length) stop touch gap)
    (htouch : ∀ f, touch f → Table.aligns? f = none) (hstop' : stop' ≤ z.bound) (hik : i ≤ k)
    (hk : k < i + ss.length) : z.tableHead? k stop' = none := by
  have hlen : (ss.take (k - i)).length = k - i := by
    rw [List.length_take]
    omega
  have hdrop : z.ShowsAll k (ss.drop (k - i)) := by
    rw [← List.take_append_drop (k - i) ss] at hsees
    have := hsees.right
    rwa [hlen, Nat.add_sub_cancel' hik] at this
  have hend : k + (ss.drop (k - i)).length = i + ss.length := by
    rw [List.length_drop]
    omega
  have hne : ss.drop (k - i) ≠ [] := by
    intro h
    rw [h, List.length_nil] at hend
    omega
  rw [← hend] at hfollow
  exact tableHead?_eq_none_of_sees hdrop hne (noTable_take (noTable_drop htable _)) hfollow htouch hstop'

-- ---------------------------------------------------------------------------
-- The end of a paragraph
-- ---------------------------------------------------------------------------

theorem paragraphEnd_eq {n : Nat}
    (hgo : ∀ k, i ≤ k → k < n → k < z.bound ∧ z.isEmpty k = false ∧ z.interrupts .paragraph k z.bound = false)
    (hend : z.bound ≤ n ∨ z.isEmpty n ∨ z.isLazy n = false ∧ z.interrupts .paragraph n z.bound)
    (hin : i ≤ n) (hfuel : n ≤ i + fuel) : z.paragraphEnd fuel i = n := by
  induction fuel generalizing i with
  | zero =>
    rw [Zone.paragraphEnd]
    omega
  | succ fuel ih =>
    rw [Zone.paragraphEnd]
    by_cases h : i = n
    · subst h
      rw [if_neg]
      rcases hend with hb | he | ⟨hl, hi⟩
      · simp [Nat.not_lt.2 hb]
      · simp [he]
      · simp [hl, hi]
    · obtain ⟨hb, he, hi⟩ := hgo i (Nat.le_refl i) (by omega)
      rw [if_pos (by simp [hb, he, hi])]
      exact ih (fun k hik hk => hgo k (by omega) hk) (by omega) (by omega)

theorem underline?_eq_none {n : Nat}
    (hgo : ∀ k, i ≤ k → k < n →
      z.isEmpty k = false ∧ Heading.underline? (z.content k) = none ∧ z.interrupts .paragraph k stop = false)
    (hend : stop ≤ n ∨ z.isEmpty n ∨ z.isLazy n = false ∧ z.interrupts .paragraph n stop
      ∧ (z.isOutside n ∨ Heading.underline? (z.content n) = none))
    (hin : i ≤ n) : z.underline? stop fuel i = none := by
  induction fuel generalizing i with
  | zero => rfl
  | succ fuel ih =>
    rw [Zone.underline?]
    by_cases hstop : stop ≤ i
    · simp [hstop]
    by_cases h : i = n
    · subst h
      rcases hend with hs | he | ⟨hl, hi, hu⟩
      · exact absurd hs hstop
      · simp [he]
      · simp only [Zone.isLazy, Bool.or_eq_false_iff, decide_eq_false_iff_not] at hl
        have hnone : (if z.isOutside i then none else Heading.underline? (z.content i)) = none := by
          rcases hu with ho | hu
          · simp [ho]
          · simp [hu]
        simp [hl.1, hl.2, hnone, hi]
    · obtain ⟨he, hu, hi⟩ := hgo i (Nat.le_refl i) (by omega)
      have hrec := ih (fun k hik hk => hgo k (by omega) hk) (by omega : i + 1 ≤ n)
      simp [hrec, hu]

-- ---------------------------------------------------------------------------
-- Definitions
-- ---------------------------------------------------------------------------

theorem definitionLine?_eq {k : Nat} {t : Text} (hshows : z.Shows k t) (hflush : flush t) (hbound : k < z.bound)
    (htable : z.tableHead? k z.bound = none) :
    z.definitionLine? k = if breaksDefinition t then none else some (t ++ ['\n']) := by
  rw [Zone.definitionLine?, hshows.isEmpty_eq_false hflush, hshows.isLazy_eq hflush,
    hshows.interrupts_definition_eq hflush, htable, hshows.content_eq_self hflush, hshows.ending_eq]
  simp [Nat.not_le.2 hbound]

/-- A definition ends where a paragraph ends. -/
theorem definitionLine?_end {n : Nat}
    (h : z.bound ≤ n ∨ z.isEmpty n ∨ z.isLazy n = false ∧ z.interrupts .paragraph n z.bound) :
    z.definitionLine? n = none := by
  rw [Zone.definitionLine?, if_pos]
  rcases h with hbound | hempty | ⟨hlazy, hint⟩
  · simp [hbound]
  · simp [hempty]
  · simp [hlazy, Zone.Follows.interrupts_definition hint]

/-- The lines that a definition may go on over are those up to one that breaks it. -/
theorem sameLines {ss : List Text} (hshows : z.ShowsAll i ss) (hflush : ∀ t ∈ ss, flush t)
    (hbound : i + ss.length ≤ z.bound) (htable : ∀ k, i ≤ k → k < i + ss.length → z.tableHead? k z.bound = none)
    (hend : z.definitionLine? (i + ss.length) = none) :
    Definition.SameLines (definitionLines ss).length (fun k => z.definitionLine? (i + k))
      (fun k => (definitionLines ss)[k]?) := by
  induction ss generalizing i with
  | nil => exact ⟨fun k hk => absurd hk (Nat.not_lt_zero k), hend, rfl⟩
  | cons t ss ih =>
    rw [List.length_cons] at hbound htable hend
    have hline := definitionLine?_eq hshows.head (hflush t List.mem_cons_self) (by omega)
      (htable i (Nat.le_refl i) (by omega))
    by_cases hbreaks : breaksDefinition t
    · have hnil : definitionLines (t :: ss) = [] := by simp [definitionLines, hbreaks]
      rw [if_pos hbreaks] at hline
      rw [hnil]
      exact ⟨fun k hk => absurd hk (Nat.not_lt_zero k), hline, rfl⟩
    · have hcons : definitionLines (t :: ss) = (t ++ ['\n']) :: definitionLines ss := by
        simp [definitionLines, hbreaks]
      rw [if_neg hbreaks] at hline
      have hsucc : ∀ k, i + (k + 1) = i + 1 + k := fun k => by omega
      obtain ⟨heq, hends, hends'⟩ := ih hshows.tail (fun u hu => hflush u (List.mem_cons_of_mem _ hu)) (by omega)
        (fun k hik hk => htable k (by omega) (by omega)) (by rw [← hsucc]; exact hend)
      rw [hcons, List.length_cons]
      refine ⟨fun k hk => ?_, ?_, ?_⟩
      · cases k with
        | zero => exact hline
        | succ k =>
          rw [List.getElem?_cons_succ, hsucc]
          exact heq k (by omega)
      · rw [hsucc]
        exact hends
      · rw [List.getElem?_cons_succ]
        exact hends'

/-- Lines that do not start with a definition are not read as one. -/
theorem definition?_eq_none {ss : List Text} (hs : z.Shows i s) (hflush : flush s) (hbound : i + 1 + ss.length ≤ z.bound)
    (hsame : Definition.SameLines (definitionLines ss).length (fun k => z.definitionLine? (i + 1 + k))
      (fun k => (definitionLines ss)[k]?))
    (h : startsDefinition (s :: ss) = false) : definition? z i = none := by
  have hlen : (definitionLines ss).length ≤ ss.length := by
    rw [definitionLines, List.length_map]
    exact (List.takeWhile_prefix _).length_le
  have hread := Definition.read?_congr (f := z.bound - i + 2) (g := ss.length + 1) hsame (by omega) (by omega)
    (s ++ ['\n'])
  rw [startsDefinition, Option.isSome_eq_false_iff, Option.isNone_iff_eq_none] at h
  rw [definition?, hs.isCode_eq hflush, hs.content_eq_self hflush, hs.ending_eq, hread, h]
  rfl

-- ---------------------------------------------------------------------------
-- Paragraphs
-- ---------------------------------------------------------------------------

variable {gap : Text → Prop}

theorem noDelimiter_of_admits {l : Leaf} {f : Text} (h : l.admits f) : Table.aligns? f = none := by
  simp only [Leaf.admits, noDelimiter, Bool.and_eq_true, Option.isNone_iff_eq_none] at h
  exact h.1

theorem breaksParagraph_of_admits {u f : Text} (h : (Leaf.paragraph u).admits f) : breaksParagraph f := by
  simp only [Leaf.admits, Bool.and_eq_true] at h
  exact h.2

section Paragraphs

variable {u : Text} {ss : List Text} (hl : ParagraphLaid u s ss) (hsees : z.Sees i stop (s :: ss))
  (hfollow : z.Follows (i + (s :: ss).length) stop (fun f => (Leaf.paragraph u).admits f) gap)
include hl hsees hfollow

theorem tableHead?_paragraph {k stop' : Nat} (hstop' : stop' ≤ z.bound) (hik : i ≤ k)
    (hk : k < i + (s :: ss).length) : z.tableHead? k stop' = none :=
  tableHead?_eq_none_of_mem hsees.shows hl.table hfollow (fun _ => noDelimiter_of_admits) hstop' hik hk

/-- A line that goes on with a paragraph does not end it. -/
theorem goesOn_paragraph {k stop' : Nat} (hstop' : stop' ≤ z.bound) (hik : i + 1 ≤ k) (hk : k < i + (s :: ss).length) :
    z.isEmpty k = false ∧ Heading.underline? (z.content k) = none ∧ z.interrupts .paragraph k stop' = false := by
  have htable := tableHead?_paragraph hl hsees hfollow hstop' (by omega) hk
  rw [List.length_cons] at hk
  obtain ⟨t, ht, hshows⟩ := hsees.shows.tail.exists_mem hik (by omega)
  have hcont := hl.rest t ht
  simp only [continuesParagraph, Bool.and_eq_true, Bool.not_eq_true', Option.isNone_iff_eq_none] at hcont
  obtain ⟨⟨hflush, hint⟩, hunder⟩ := hcont
  refine ⟨hshows.isEmpty_eq_false hflush, ?_, ?_⟩
  · rw [hshows.content_eq_self hflush, hunder]
  · rw [hshows.interrupts_paragraph_eq hflush, htable, hint]
    rfl

/-- No line under a paragraph makes it a heading. -/
theorem underline?_paragraph : z.underline? stop (stop - i + 1) (i + 1) = none := by
  have hle := hsees.le_stop
  have hstop := hsees.stop_le
  refine underline?_eq_none (n := i + (s :: ss).length)
    (fun k hik hk => goesOn_paragraph hl hsees hfollow hstop hik hk) ?_ (by simp)
  rcases hfollow.ends_paragraph fun _ => breaksParagraph_of_admits with hb | he | ⟨hlazy, hint, hout⟩
  · exact .inl (by omega)
  · exact .inr (.inl he)
  · exact .inr (.inr ⟨hlazy, hint stop, hout⟩)

omit hl hsees in
/-- What stands after a paragraph ends it, also for a reader that looks beyond the container. -/
theorem ends_bound : z.bound ≤ i + (s :: ss).length ∨ z.isEmpty (i + (s :: ss).length)
    ∨ z.isLazy (i + (s :: ss).length) = false ∧ z.interrupts .paragraph (i + (s :: ss).length) z.bound :=
  (hfollow.ends_paragraph fun _ => breaksParagraph_of_admits).imp_right fun h =>
    h.imp_right fun hstop => ⟨hstop.1, hstop.2.1 z.bound⟩

theorem paragraphEnd_paragraph : z.paragraphEnd (z.bound - i + 1) (i + 1) = i + (s :: ss).length := by
  have hle := hsees.le_stop
  have hbound := hsees.stop_le
  refine paragraphEnd_eq ?_ (ends_bound hfollow) (by simp) (by omega)
  intro k hik hk
  obtain ⟨hempty, -, hint⟩ := goesOn_paragraph hl hsees hfollow (Nat.le_refl _) hik hk
  exact ⟨by omega, hempty, hint⟩

theorem definition?_paragraph : definition? z i = none := by
  have hlen : (s :: ss).length = ss.length + 1 := List.length_cons
  have hle := hsees.le_stop
  have hbound := hsees.stop_le
  have hnext : i + 1 + ss.length = i + (s :: ss).length := by omega
  have hsame := sameLines hsees.shows.tail (fun t ht => flush_of_continuesParagraph (hl.rest t ht)) (by omega)
    (fun k hik hk => tableHead?_paragraph hl hsees hfollow (Nat.le_refl _) (by omega) (by omega))
    (by rw [hnext]; exact definitionLine?_end (ends_bound hfollow))
  exact definition?_eq_none hsees.shows.head hl.first.flush (by omega) hsame hl.definition

end Paragraphs

theorem reads_paragraph {u : Text} (hl : (Leaf.paragraph u).isLaid opts)
    (hsees : z.Sees i stop ((Leaf.paragraph u).lines opts))
    (hfollow : z.Follows (i + ((Leaf.paragraph u).lines opts).length) stop
      (fun f => (Leaf.paragraph u).admits f) gap) :
    block (fuel + 1) z refs i stop
      = .ok ⟨((Leaf.paragraph u).tokens opts false).toArray, i + ((Leaf.paragraph u).lines opts).length, refs, true⟩ := by
  obtain ⟨s, ss, hl⟩ := isLaid_paragraph_iff.1 hl
  have hlines : (Leaf.paragraph u).lines opts = s :: ss := hl.lines
  rw [hlines] at hsees hfollow ⊢
  have hs := hsees.shows.head
  have hflush := hl.first.flush
  have htable := tableHead?_paragraph hl hsees hfollow hsees.stop_le (Nat.le_refl i) (by simp)
  have htext : Text.trimMargin (z.text z.edge false i (i + (s :: ss).length)) = u := by
    rw [Zone.text_dropEnd hsees.shows, ← hl.lines, Text.join_splitOn, hl.trimmed]
  refine block_of_leafAfter (leafBefore?_eq_none hs hflush hsees.plain htable hl.first.fence) hs hflush hl.first.quote
    hl.first.rule hl.first.marker (definition?_paragraph hl hsees hfollow)
    (r := (paragraphTokens u, i + (s :: ss).length)) ?_
  simp only [leafAfter, hs.html?_eq hflush, hl.first.html, hs.heading?_eq hflush, hl.first.heading, hs.isCode_eq hflush,
    underline?_paragraph hl hsees hfollow, paragraphEnd_paragraph hl hsees hfollow, htext, Bool.false_eq_true, if_false]

-- ---------------------------------------------------------------------------
-- Blocks of one line
-- ---------------------------------------------------------------------------

theorem exists_cons_of_heading {r : Nat × Text} (h : Heading.read? s = some r) : ∃ t, s = '#' :: t := by
  match s with
  | [] => simp [Heading.read?] at h
  | c :: t =>
    by_cases hc : c = '#'
    · exact ⟨t, by rw [hc]⟩
    · rw [Heading.read?_eq_none t hc] at h
      cases h

theorem reads_heading {level : Nat} {u : Text} (hl : (Leaf.heading level u).isLaid opts)
    (hsees : z.Sees i stop ((Leaf.heading level u).lines opts))
    (hfollow : z.Follows (i + ((Leaf.heading level u).lines opts).length) stop
      (fun f => (Leaf.heading level u).admits f) gap) :
    block (fuel + 1) z refs i stop
      = .ok ⟨((Leaf.heading level u).tokens opts false).toArray,
          i + ((Leaf.heading level u).lines opts).length, refs, true⟩ := by
  obtain ⟨hread, hline⟩ := isLaid_heading_iff.1 hl
  rw [lines_heading hline] at hsees hfollow ⊢
  obtain ⟨t, ht⟩ := exists_cons_of_heading hread
  have hs := hsees.shows.head
  rw [ht] at hs hread
  have hflush : flush ('#' :: t) := rfl
  have htable : z.tableHead? i stop = none :=
    hfollow.tableHead?_eq_none hs hsees.stop_le fun f hf => noDelimiter_of_admits hf
  have hbefore := leafBefore?_eq_none hs hflush hsees.plain htable (Fence.open?_eq_none t (by decide))
  refine block_of_leafAfter hbefore hs hflush (by simp) (thematicBreak?_eq_none t (by decide))
    (ListMarker.read?_eq_none t (by decide) (by decide)) (definition?_eq_none_of_head hs hflush (by simp))
    (r := (headingTokens level (List.replicate level '#') u, i + 1)) ?_
  simp only [leafAfter, hs.html?_eq hflush, HtmlBlock.kind?_eq_none t (by decide : '#' ≠ '<'),
    hs.heading?_eq hflush, hread]

theorem reads_rule (hopts : opts.thematicBreak = "***".toList)
    (hsees : z.Sees i stop (Leaf.rule.lines opts))
    (hfollow : z.Follows (i + (Leaf.rule.lines opts).length) stop (fun f => Leaf.rule.admits f) gap) :
    block (fuel + 1) z refs i stop
      = .ok ⟨(Leaf.rule.tokens opts false).toArray, i + (Leaf.rule.lines opts).length, refs, true⟩ := by
  rw [lines_rule hopts] at hsees hfollow ⊢
  have hs := hsees.shows.head
  have hflush : flush "***".toList := rfl
  have htable : z.tableHead? i stop = none :=
    hfollow.tableHead?_eq_none hs hsees.stop_le fun f hf => noDelimiter_of_admits hf
  have hbefore := leafBefore?_eq_none hs hflush hsees.plain htable (Fence.open?_eq_none _ (by decide))
  have hquote : z.isQuote i = false := hs.isQuote_eq hflush
  have hbreak : breakAt? z i = some ([{ kind := .hr, markup := "****" }], i + 1) := by
    rw [breakAt?, hs.break?_eq hflush]
    rfl
  simp only [block, hbefore, hquote, hbreak]
  rfl

end Block
end MdxSafe
