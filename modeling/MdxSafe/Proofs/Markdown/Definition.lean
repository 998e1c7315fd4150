-- SUMMARY: Reference definitions at the end of a document are read back from their lines.
import MdxSafe.Proofs.Markdown.Items
import MdxSafe.Proofs.Outline.Page

/-!
# Reading definitions

A definition may go on over several lines. One that is complete on its line is read the same whether or not
another definition follows: the reader asks for the next line to look for a title there, and finds none.
-/

namespace MdxSafe

namespace Definition

/-- Whether the next line, if there is one, starts a definition. -/
def NextIsDefinition (more : More) : Prop := ∀ l, more 0 = some l → l.head? = some '['

theorem takeLabel_eq {t label rest : Text} (more : More) (fuel : Nat) (h : scanLabel t = .closed label rest) :
    takeLabel more (fuel + 1) [] ⟨t, 0⟩ = some (label, ⟨rest, 0⟩) := by
  simp [takeLabel, h]

/-- On its own a label that is found ends on its line. -/
theorem exists_label {t : Text} {r : Text × Cursor} (fuel : Nat)
    (h : takeLabel (fun _ => none) (fuel + 1) [] ⟨t, 0⟩ = some r) :
    ∃ label rest, scanLabel t = .closed label rest ∧ r = (label, ⟨rest, 0⟩) := by
  rw [takeLabel] at h
  cases hscan : scanLabel t with
  | broken => simp [hscan] at h
  | running label => simp [hscan] at h
  | closed label rest =>
    simp only [hscan, List.nil_append, Option.some.injEq] at h
    exact ⟨label, rest, rfl, h.symm⟩

/-- After blanks the reader stands on the same line, unless nothing is left there. -/
theorem skipGap_eq (more : More) (fuel : Nat) {t : Text} (h : (t.dropWhile isIndent).head? ≠ some '\n') :
    skipGap more (fuel + 1) ⟨t, 0⟩ = ⟨t.dropWhile isIndent, 0⟩ := by
  rw [skipGap]
  simp only
  split
  · next heq => simp [heq] at h
  · rfl

theorem skipGap_none {t u : Text} (fuel : Nat) (h : t.dropWhile isIndent = '\n' :: u) :
    skipGap (fun _ => none) (fuel + 1) ⟨t, 0⟩ = ⟨[], 0⟩ := by
  rw [skipGap]
  simp only [h]

/-- No title is found where nothing or another definition stands. -/
theorem takeTitle_skipGap {more : More} (hmore : NextIsDefinition more) (fuel gap : Nat) {t u : Text}
    (h : t.dropWhile isIndent = '\n' :: u) : takeTitle more fuel (skipGap more (gap + 1) ⟨t, 0⟩) = none := by
  rw [skipGap]
  simp only [h]
  cases hm : more 0 with
  | none => rfl
  | some l =>
    obtain ⟨t', rfl⟩ : ∃ t', l = '[' :: t' := by
      have := hmore l hm
      cases l with
      | nil => cases this
      | cons c t' =>
        rw [List.head?_cons, Option.some.injEq] at this
        exact ⟨t', by rw [this]⟩
    have hgap : skipGap more gap ⟨'[' :: t', 0 + 1⟩ = ⟨'[' :: t', 0 + 1⟩ := by
      cases gap with
      | zero => rfl
      | succ gap => simp [skipGap, isIndent]
    simp only [hgap]
    simp [takeTitle, Link.titleEnd?]

/-- A title that ends on its line is found whatever follows; where none ends, the line goes on with its
opening mark. -/
theorem takeTitle_eq_or (more : More) (fuel : Nat) (t : Text) :
    takeTitle more (fuel + 1) ⟨t, 0⟩ = takeTitle (fun _ => none) (fuel + 1) ⟨t, 0⟩
      ∨ takeTitle (fun _ => none) (fuel + 1) ⟨t, 0⟩ = none ∧ ∃ a u, t = a :: u ∧ (Link.titleEnd? a).isSome := by
  cases t with
  | nil => exact .inl rfl
  | cons a u =>
    cases hend : Link.titleEnd? a with
    | none => exact .inl (by simp [takeTitle, hend])
    | some stop =>
      simp only [takeTitle, hend, takeTitleRest]
      cases hscan : Link.scanTitle stop u with
      | broken => exact .inl rfl
      | closed title rest => exact .inl rfl
      | running title => exact .inr ⟨rfl, a, u, rfl, by rw [hend]; rfl⟩

theorem fuel_takeTitle (fuel fuel' : Nat) (t : Text) :
    takeTitle (fun _ => none) (fuel + 1) ⟨t, 0⟩ = takeTitle (fun _ => none) (fuel' + 1) ⟨t, 0⟩ := by
  cases t with
  | nil => rfl
  | cons a u =>
    cases hend : Link.titleEnd? a with
    | none => simp [takeTitle, hend]
    | some stop =>
      simp only [takeTitle, hend, takeTitleRest]

theorem head?_of_read? {more : More} {fuel : Nat} {line : Text} {r : Reference × Nat}
    (h : read? more fuel line = some r) : line.head? = some '[' := by
  by_contra hhead
  rw [read?_eq_none more fuel hhead] at h
  cases h

/-- The start of a definition that ends on its line is read there, whatever follows. -/
theorem takeStart_of_alone {t : Text} {r : Text × Text × Cursor} (h : takeStart (fun _ => none) 2 t = some r)
    (more : More) (fuel : Nat) : takeStart more (fuel + 2) t = some r ∧ r.2.2.used = 0 := by
  rw [takeStart] at h ⊢
  obtain ⟨found, hl, h⟩ := Option.bind_eq_some_iff.1 h
  obtain ⟨label, rest, hscan, rfl⟩ := exists_label 1 hl
  obtain ⟨rest, hcolon, h⟩ := Option.bind_eq_some_iff.1 h
  obtain ⟨⟨dest, after⟩, hdest, h⟩ := Option.bind_eq_some_iff.1 h
  -- a line end before the destination would leave nothing to read it from
  have hgap : (rest.dropWhile isIndent).head? ≠ some '\n' := by
    intro hhead
    obtain ⟨u, hu⟩ := List.head?_eq_some_iff.1 hhead
    rw [skipGap_none 1 hu] at hdest
    cases hdest
  rw [skipGap_eq (fun _ => none) 1 hgap] at hdest h
  rw [takeLabel_eq more (fuel + 1) hscan]
  simp only [Option.bind_eq_bind, Option.bind_some, hcolon, skipGap_eq more (fuel + 1) hgap, hdest]
  refine ⟨h, ?_⟩
  dsimp only at h
  split at h
  · cases h
  · cases h
    rfl

/-- The end of a definition is read on its line before another definition, too: no title starts there. -/
theorem takeEnd_of_alone {label href after : Text} {r : Reference}
    (h : takeEnd (fun _ => none) 2 label href ⟨after, 0⟩ = some (r, 0)) {more : More} (hmore : NextIsDefinition more)
    (fuel : Nat) : takeEnd more (fuel + 2) label href ⟨after, 0⟩ = some (r, 0) := by
  rw [takeEnd] at h ⊢
  by_cases hline : (after.dropWhile isIndent).head? = some '\n'
  · obtain ⟨u, hu⟩ : ∃ u, after.dropWhile isIndent = '\n' :: u := List.head?_eq_some_iff.1 hline
    have halone : NextIsDefinition fun _ => none := fun l hl => by cases hl
    rw [takeTitle_skipGap hmore (fuel + 2) (fuel + 1) hu]
    rw [takeTitle_skipGap halone 2 1 hu] at h
    exact h
  · rw [skipGap_eq (fun _ => none) 1 hline] at h
    rw [skipGap_eq more (fuel + 1) hline]
    rcases takeTitle_eq_or more (fuel + 1) (after.dropWhile isIndent) with heq | ⟨hnone, a, u, ha, hstop⟩
    · rw [heq, fuel_takeTitle (fuel + 1) 1]
      exact h
    · -- a title that runs over the line end is none, and the line does not end before its mark
      have hnone : takeTitle (fun _ => none) 2 ⟨after.dropWhile isIndent, 0⟩ = none :=
        (fuel_takeTitle 1 (fuel + 1) _).trans hnone
      have hopen : atLineEnd after = false := by
        rw [atLineEnd, ha]
        simp only [decide_eq_false_iff_not]
        rintro rfl
        cases hstop
      simp [hnone, hopen] at h

/-- A definition that is complete on its line is read there before another definition, too. -/
theorem read?_of_alone {line : Text} {r : Reference} (h : read? (fun _ => none) 2 line = some (r, 0))
    {more : More} (hmore : NextIsDefinition more) (fuel : Nat) : read? more (fuel + 2) line = some (r, 0) := by
  obtain ⟨t, rfl⟩ := List.head?_eq_some_iff.1 (head?_of_read? h)
  rw [read?_cons] at h ⊢
  obtain ⟨⟨label, href, after, used⟩, hstart, hend⟩ := Option.bind_eq_some_iff.1 h
  obtain ⟨hstart, rfl⟩ := takeStart_of_alone hstart more fuel
  rw [hstart]
  exact takeEnd_of_alone hend hmore fuel

end Definition

namespace Block

open Outline

variable {z : Zone} {i stop fuel : Nat}

/-- The line of a definition starts with its label. -/
theorem exists_cons_of_definition {s : Text} {r : Reference} (h : readDefinition? s = some r) :
    ∃ t, s = '[' :: t := by
  unfold readDefinition? at h
  split at h
  · next heq =>
    have hhead := Definition.head?_of_read? heq
    cases s with
    | nil => cases hhead
    | cons c t =>
      rw [List.cons_append, List.head?_cons, Option.some.injEq] at hhead
      exact ⟨t, by rw [hhead]⟩
  · cases h

theorem read?_of_readDefinition? {s : Text} {r : Reference} (h : readDefinition? s = some r) :
    Definition.read? (fun _ => none) 2 (s ++ ['\n']) = some (r, 0) := by
  unfold readDefinition? at h
  split at h
  · next heq =>
    rw [Option.some.injEq] at h
    rw [heq, h]
  · cases h

/-- The line after the line of a definition is past the end, or a definition itself. -/
theorem nextIsDefinition {ss : List Text} (hss : ∀ s ∈ ss, (readDefinition? s).isSome)
    (hshows : z.ShowsAll (i + 1) ss) (hend : i + 1 + ss.length = z.bound) :
    Definition.NextIsDefinition fun n => z.definitionLine? (i + 1 + n) := by
  intro l hl
  simp only [Nat.add_zero, Zone.definitionLine?] at hl
  split at hl
  · cases hl
  · next hgo =>
    cases ss with
    | nil =>
      simp only [List.length_nil] at hend
      simp [hend] at hgo
    | cons t ss =>
      obtain ⟨r, hr⟩ := Option.isSome_iff_exists.1 (hss t List.mem_cons_self)
      obtain ⟨u, rfl⟩ := exists_cons_of_definition hr
      rw [hshows.head.content_eq_self rfl, Option.some.injEq] at hl
      rw [← hl]
      rfl

/-- A definition at the end of the lines is read, and nothing else there. -/
theorem block_of_definition {s : Text} {ss : List Text} {r : Reference} {refs : List Reference}
    (hr : readDefinition? s = some r) (hss : ∀ t ∈ ss, (readDefinition? t).isSome)
    (hsees : z.Sees i stop (s :: ss)) (hend : i + (s :: ss).length = z.bound) :
    block (fuel + 1) z refs i stop = .ok ⟨#[], i + 1, Reference.add refs r, true⟩ := by
  obtain ⟨t, rfl⟩ := exists_cons_of_definition hr
  rw [List.length_cons] at hend
  have hs := hsees.shows.head
  have hflush : flush ('[' :: t) := rfl
  have htable : z.tableHead? i stop = none := by
    have hbound := hsees.stop_le
    cases ss with
    | nil =>
      refine Zone.tableHead?_eq_none_of_stop ?_
      simp only [List.length_nil] at hend
      omega
    | cons u ss =>
      obtain ⟨q, hq⟩ := Option.isSome_iff_exists.1 (hss u List.mem_cons_self)
      obtain ⟨v, rfl⟩ := exists_cons_of_definition hq
      refine Zone.tableHead?_eq_none hs hsees.shows.tail.head (Table.head?_eq_none ?_)
      cases v <;> rfl
  have hbefore := leafBefore?_eq_none hs hflush hsees.plain htable (Fence.open?_eq_none t (by decide))
  have hquote : z.isQuote i = false := hs.isQuote_eq hflush
  have hbreak : breakAt? z i = none := by
    rw [breakAt?, hs.break?_eq hflush, thematicBreak?_eq_none t (by decide)]
    rfl
  have hmarker : z.marker? i = none :=
    (hs.marker?_eq hflush).trans (ListMarker.read?_eq_none t (by decide) (by decide))
  have hmore := nextIsDefinition hss hsees.shows.tail (by omega)
  have hdef : definition? z i = some (r, i + 1) := by
    rw [definition?, hs.isCode_eq hflush, hs.content_eq_self hflush, hs.ending_eq,
      Definition.read?_of_alone (read?_of_readDefinition? hr) hmore]
    rfl
  simp only [block, hbefore, hquote, hbreak, hmarker, hdef]
  rfl

/-- The definitions at the end of the lines are read one by one. -/
theorem reads_definitions {ss : List Text} (hss : ∀ s ∈ ss, (readDefinition? s).isSome)
    (hsees : z.Sees i z.bound ss) (hend : i + ss.length = z.bound) (hdepth : z.depth < maxDepth)
    (refs : List Reference) (spaced tight : Bool) (done : Array Token) :
    ∃ t, blocks (fuel + ss.length + 1) z refs i z.bound spaced tight done
      = .ok ⟨done, z.bound, (ss.filterMap readDefinition?).foldl Reference.add refs, t⟩ := by
  induction ss generalizing i refs spaced tight with
  | nil =>
    rw [List.length_nil, Nat.add_zero] at hend
    exact ⟨tight, by simp [blocks, hend]⟩
  | cons s ss ih =>
    obtain ⟨r, hr⟩ := Option.isSome_iff_exists.1 (hss s List.mem_cons_self)
    have hrest : ∀ t ∈ ss, (readDefinition? t).isSome := fun t ht => hss t (List.mem_cons_of_mem _ ht)
    have hlen : (s :: ss).length = ss.length + 1 := List.length_cons
    obtain ⟨t, rfl⟩ := exists_cons_of_definition hr
    have hs := hsees.shows.head
    have hfull : i + 1 < z.bound → z.isEmpty (i + 1) = false := by
      intro hlt
      obtain ⟨u, hu, hshows⟩ := hsees.shows.tail.exists_mem (Nat.le_refl _) (by omega)
      obtain ⟨q, hq⟩ := Option.isSome_iff_exists.1 (hrest u hu)
      obtain ⟨v, rfl⟩ := exists_cons_of_definition hq
      exact hshows.isEmpty_eq_false rfl
    have hnext : z.nextAfter (i + 1) z.bound = i + 1 := by
      rw [Zone.nextAfter, if_neg]
      simpa using hfull
    have hread : block (fuel + ss.length + 1) z refs i z.bound = .ok ⟨#[], i + 1, Reference.add refs r, true⟩ :=
      block_of_definition hr hrest hsees hend
    have hstep := blocks_step (n := i + 1) (s := '[' :: t) hs rfl (by omega) hdepth hread (.inl rfl)
      (by simpa using hs.isEmpty_eq_false rfl)
      (fun hn he => absurd (he.symm.trans (hfull hn)) (by simp)) spaced tight done
    obtain ⟨b, ih⟩ := ih hrest hsees.tail (by omega) (Reference.add refs r)
      (spaced || (i + 1 < z.bound && z.isEmpty (i + 1))) (!spaced)
    refine ⟨b, ?_⟩
    rw [hlen, ← Nat.add_assoc, hstep, hnext, List.filterMap_cons_some hr, List.foldl_cons]
    simpa using ih

end Block
end MdxSafe
