-- SUMMARY: What a definition is read as depends only on the lines that can be asked for.
import MdxSafe.Markdown.Definition

/-!
# Asking for lines

A definition asks for one line after the other and stops at the first that is not there. So neither what would be
given after that line nor the bound on the number of lines matters, as long as the bound is large enough.
-/

namespace MdxSafe.Definition

variable {n : Nat} {more more' : More} {f g : Nat}

/-- Two sources give the same lines, `n` in number. -/
structure SameLines (n : Nat) (more more' : More) : Prop where
  eq : ∀ k, k < n → more k = more' k
  ends : more n = none
  ends' : more' n = none

namespace SameLines

theorem eq_of_le (h : SameLines n more more') {k : Nat} (hk : k ≤ n) : more k = more' k := by
  rcases Nat.lt_or_eq_of_le hk with hlt | rfl
  · exact h.eq k hlt
  · rw [h.ends, h.ends']

/-- As long as lines are given, they are fewer than `n`. -/
theorem lt_of_some (h : SameLines n more more') {k : Nat} {l : Text} (hk : k ≤ n) (hl : more' k = some l) : k < n := by
  refine Nat.lt_of_le_of_ne hk ?_
  rintro rfl
  rw [h.ends'] at hl
  cases hl

end SameLines

/-- The same label is found, and the cursor has not left the lines. -/
theorem takeLabel_congr (h : SameLines n more more') (done : Text) (c : Cursor) (hc : c.used ≤ n)
    (hfuel : n - c.used < f) (hfuel' : n - c.used < g) :
    takeLabel more f done c = takeLabel more' g done c
      ∧ ∀ r, takeLabel more' g done c = some r → r.2.used ≤ n := by
  induction f generalizing g done c with
  | zero => omega
  | succ f ih =>
    obtain ⟨g, rfl⟩ : ∃ m, g = m + 1 := ⟨g - 1, by omega⟩
    rw [takeLabel, takeLabel, h.eq_of_le hc]
    cases scanLabel c.rest with
    | broken => exact ⟨rfl, by simp⟩
    | closed label rest =>
      refine ⟨rfl, fun r hr => ?_⟩
      cases hr
      exact hc
    | running label =>
      dsimp only
      split
      · next line hline =>
        have hlt : c.used < n := by
          split at hline
          · exact h.lt_of_some hc hline
          · cases hline
        exact ih (done ++ label) ⟨line, c.used + 1⟩ hlt (by simp only; omega) (by simp only; omega)
      · exact ⟨rfl, by simp⟩

/-- The same place is found after a gap. -/
theorem skipGap_congr (h : SameLines n more more') (c : Cursor) (hc : c.used ≤ n)
    (hfuel : n - c.used < f) (hfuel' : n - c.used < g) :
    skipGap more f c = skipGap more' g c ∧ (skipGap more' g c).used ≤ n := by
  induction f generalizing g c with
  | zero => omega
  | succ f ih =>
    obtain ⟨g, rfl⟩ : ∃ m, g = m + 1 := ⟨g - 1, by omega⟩
    rw [skipGap, skipGap, h.eq_of_le hc]
    split
    · split
      · next line hline =>
        have hlt := h.lt_of_some hc hline
        exact ih ⟨line, c.used + 1⟩ hlt (by simp only; omega) (by simp only; omega)
      · exact ⟨rfl, hc⟩
    · exact ⟨rfl, hc⟩

theorem takeTitleRest_congr (h : SameLines n more more') (stop : Char) (done : Text) (c : Cursor) (hc : c.used ≤ n)
    (hfuel : n - c.used < f) (hfuel' : n - c.used < g) :
    takeTitleRest more stop f done c = takeTitleRest more' stop g done c := by
  induction f generalizing g done c with
  | zero => omega
  | succ f ih =>
    obtain ⟨g, rfl⟩ : ∃ m, g = m + 1 := ⟨g - 1, by omega⟩
    rw [takeTitleRest, takeTitleRest, h.eq_of_le hc]
    split
    · rfl
    · rfl
    · next t ht =>
      split
      · next line hline =>
        have hlt := h.lt_of_some hc hline
        exact ih (done ++ t) ⟨line, c.used + 1⟩ hlt (by simp only; omega) (by simp only; omega)
      · rfl

theorem takeTitle_congr (h : SameLines n more more') (c : Cursor) (hc : c.used ≤ n) (hfuel : n < f)
    (hfuel' : n < g) : takeTitle more f c = takeTitle more' g c := by
  rw [takeTitle, takeTitle]
  split
  · rfl
  · next a t _ =>
    cases Link.titleEnd? a with
    | none => rfl
    | some stop =>
      exact takeTitleRest_congr h stop [] { c with rest := t } hc (by simp only; omega) (by simp only; omega)

-- ---------------------------------------------------------------------------
-- The two parts of a definition
-- ---------------------------------------------------------------------------

/-- What a definition starts with, its label and its destination, and where the text goes on. -/
def takeStart (more : More) (fuel : Nat) (t : Text) : Option (Text × Text × Cursor) := do
  let (label, c) ← takeLabel more fuel [] ⟨t, 0⟩
  let rest ← Text.after? [':'] c.rest
  let c := skipGap more fuel { c with rest }
  let (dest, rest) ← Link.takeDestination c.rest
  if !Url.isSafe (Url.normalize dest) then none
  else some (Reference.normalizeLabel label, Url.normalize dest, { c with rest })

/-- The definition of a label and a destination, with the title that comes next, if one does. -/
def takeEnd (more : More) (fuel : Nat) (label href : Text) (afterDest : Cursor) : Option (Reference × Nat) :=
  let gap := skipGap more fuel afterDest
  let done (title : Text) (c : Cursor) : Option (Reference × Nat) :=
    if atLineEnd c.rest && label ≠ [] then some (⟨label, ⟨href, title⟩⟩, c.used) else none
  match takeTitle more fuel gap with
  | some (title, c) =>
    if !(gap.rest.length ≠ afterDest.rest.length || c.used ≠ afterDest.used) then done [] afterDest
    else if atLineEnd c.rest then done title c
    else if title = [] then none
    else done [] afterDest
  | none => done [] afterDest

theorem read?_cons (more : More) (fuel : Nat) (t : Text) :
    read? more fuel ('[' :: t) = (takeStart more fuel t).bind fun r => takeEnd more fuel r.1 r.2.1 r.2.2 := by
  rw [read?, takeStart]
  cases takeLabel more fuel [] ⟨t, 0⟩ with
  | none => rfl
  | some r =>
    simp only [Option.bind_eq_bind, Option.bind_some]
    cases Text.after? [':'] r.2.rest with
    | none => rfl
    | some rest =>
      simp only [Option.bind_some]
      cases Link.takeDestination (skipGap more fuel { r.2 with rest }).rest with
      | none => rfl
      | some d =>
        simp only [Option.bind_some]
        cases Url.isSafe (Url.normalize d.1) <;> rfl

theorem read?_eq_none {t : Text} (more : More) (fuel : Nat) (h : t.head? ≠ some '[') : read? more fuel t = none := by
  unfold read?
  split
  · exact absurd rfl h
  · rfl

/-- The same start is found, and the cursor has not left the lines. -/
theorem takeStart_congr (h : SameLines n more more') (hfuel : n < f) (hfuel' : n < g) (t : Text) :
    takeStart more f t = takeStart more' g t ∧ ∀ r, takeStart more' g t = some r → r.2.2.used ≤ n := by
  obtain ⟨hlabel, hused⟩ := takeLabel_congr h [] ⟨t, 0⟩ (Nat.zero_le n) (by simpa using hfuel) (by simpa using hfuel')
  rw [takeStart, takeStart, hlabel]
  cases htake : takeLabel more' g [] ⟨t, 0⟩ with
  | none => exact ⟨rfl, nofun⟩
  | some r =>
    obtain ⟨label, c⟩ := r
    have hc : c.used ≤ n := hused _ htake
    simp only [Option.bind_eq_bind, Option.bind_some]
    cases Text.after? [':'] c.rest with
    | none => exact ⟨rfl, nofun⟩
    | some rest =>
      obtain ⟨hgap, hgapUsed⟩ := skipGap_congr (f := f) (g := g) h { c with rest } hc
        (by simp only; omega) (by simp only; omega)
      dsimp only [Option.bind_some]
      rw [hgap]
      generalize skipGap more' g { c with rest } = c' at hgapUsed ⊢
      cases Link.takeDestination c'.rest with
      | none => exact ⟨rfl, nofun⟩
      | some d =>
        refine ⟨rfl, fun r hr => ?_⟩
        rw [Option.bind_some] at hr
        split at hr
        · cases hr
        · cases hr
          exact hgapUsed

theorem takeEnd_congr (h : SameLines n more more') (hfuel : n < f) (hfuel' : n < g) (label href : Text) (c : Cursor)
    (hc : c.used ≤ n) : takeEnd more f label href c = takeEnd more' g label href c := by
  obtain ⟨hgap, hused⟩ := skipGap_congr (f := f) (g := g) h c hc (by omega) (by omega)
  rw [takeEnd, takeEnd, hgap, takeTitle_congr h _ hused hfuel hfuel']

/-- The same definition is read. -/
theorem read?_congr (h : SameLines n more more') (hfuel : n < f) (hfuel' : n < g) (line : Text) :
    read? more f line = read? more' g line := by
  by_cases hhead : line.head? = some '['
  · obtain ⟨t, rfl⟩ := List.head?_eq_some_iff.1 hhead
    obtain ⟨hstart, hused⟩ := takeStart_congr h hfuel hfuel' t
    rw [read?_cons, read?_cons, hstart]
    exact Option.bind_congr fun r hr => takeEnd_congr h hfuel hfuel' r.1 r.2.1 r.2.2 (hused r hr)
  · rw [read?_eq_none more f hhead, read?_eq_none more' g hhead]

end MdxSafe.Definition
