-- SUMMARY: Searching a text: what a text starts with, and where a text occurs in it first.
import MdxSafe.Text.Basic

/-!
# Search in a text

A search for a text finds its first occurrence, or none if the text does not occur. What holds none of the
characters of a separator is found on one side of it or on the other.
-/

namespace MdxSafe.Text

variable {pat t : Text}

-- ---------------------------------------------------------------------------
-- Leading parts
-- ---------------------------------------------------------------------------

theorem after?_append (pat t : Text) : Text.after? pat (pat ++ t) = some t := by
  induction pat with
  | nil => rfl
  | cons c pat ih => simp [Text.after?, ih]

theorem after?_eq_some_iff {rest : Text} : after? pat t = some rest ↔ t = pat ++ rest := by
  constructor
  · intro h
    fun_induction after? pat t with
    | case1 t =>
      cases h
      rfl
    | case2 => cases h
    | case3 pat b t ih => rw [List.cons_append, ih h]
    | case4 => cases h
  · rintro rfl
    exact after?_append pat rest

theorem exists_of_endsWith {tail : Text} (h : t.endsWith tail = true) : ∃ front, t = front ++ tail := by
  obtain ⟨front, hfront⟩ := Option.isSome_iff_exists.1 h
  have hreverse := after?_eq_some_iff.1 hfront
  exact ⟨front.reverse, by rw [← List.reverse_reverse t, hreverse, List.reverse_append, List.reverse_reverse]⟩

theorem after?_eq_none_iff : after? pat t = none ↔ ¬ pat <+: t := by
  constructor
  · rintro h ⟨rest, rfl⟩
    rw [after?_append] at h
    cases h
  · intro h
    cases hafter : after? pat t with
    | none => rfl
    | some rest => exact absurd ⟨rest, (after?_eq_some_iff.1 hafter).symm⟩ h

-- ---------------------------------------------------------------------------
-- First occurrences
-- ---------------------------------------------------------------------------

/-- A text that is found inside another one is contained in it. -/
theorem contains_of_infix (h : pat <:+: t) : Text.contains t pat := by
  rw [Text.contains]
  induction t with
  | nil => simp [Text.cut?, List.infix_nil.1 h]
  | cons c t ih =>
    rw [Text.cut?]
    cases hafter : Text.after? pat (c :: t) with
    | some rest => rfl
    | none =>
      rcases List.infix_cons_iff.1 h with ⟨u, hu⟩ | h
      · rw [← hu, Text.after?_append] at hafter
        cases hafter
      · simpa using ih h

/-- What stands before the first occurrence holds no other one. -/
theorem cut?_eq_some {before rest : Text} (h : cut? pat t = some (before, rest)) (hpat : pat ≠ []) :
    t = before ++ pat ++ rest ∧ ¬ pat <:+: before := by
  induction t generalizing before with
  | nil =>
    rw [cut?, if_neg hpat] at h
    cases h
  | cons c t ih =>
    rw [cut?] at h
    split at h
    · next rest' hafter =>
      cases h
      exact ⟨by rw [List.nil_append]; exact after?_eq_some_iff.1 hafter, by rwa [List.infix_nil]⟩
    · next hnone =>
      obtain ⟨⟨before', rest'⟩, hcut, heq⟩ := Option.map_eq_some_iff.1 h
      cases heq
      obtain ⟨rfl, hbefore⟩ := ih hcut
      refine ⟨rfl, fun hin => ?_⟩
      rcases List.infix_cons_iff.1 hin with hstart | hin
      · refine after?_eq_none_iff.1 hnone (hstart.trans ⟨pat ++ rest', ?_⟩)
        rw [List.cons_append, List.append_assoc]
      · exact hbefore hin

theorem cut?_eq_none_iff : cut? pat t = none ↔ ¬ pat <:+: t := by
  constructor
  · intro h hin
    have hcontains := contains_of_infix hin
    rw [contains, h] at hcontains
    cases hcontains
  · intro h
    cases hcut : cut? pat t with
    | none => rfl
    | some r =>
      have hpat : pat ≠ [] := by
        rintro rfl
        exact h List.nil_infix
      exact absurd ⟨r.1, r.2, (cut?_eq_some hcut hpat).1.symm⟩ h

theorem contains_iff : Text.contains t pat ↔ pat <:+: t := by
  refine ⟨fun h => Decidable.byContradiction fun hnot => ?_, contains_of_infix⟩
  rw [contains, cut?_eq_none_iff.2 hnot] at h
  cases h

-- ---------------------------------------------------------------------------
-- Occurrences beside a separator
-- ---------------------------------------------------------------------------

/-- What starts before a character that it does not hold ends before it. -/
theorem prefix_of_prefix_append_cons {c : Char} {x y : Text} (hc : c ∉ pat) (h : pat <+: x ++ c :: y) : pat <+: x := by
  induction x generalizing pat with
  | nil =>
    rcases List.prefix_cons_iff.1 h with rfl | ⟨z, rfl, -⟩
    · exact List.nil_prefix
    · exact absurd List.mem_cons_self hc
  | cons d x ih =>
    rcases List.prefix_cons_iff.1 h with rfl | ⟨z, rfl, hz⟩
    · exact List.nil_prefix
    · exact List.cons_prefix_cons.2 ⟨rfl, ih (fun hmem => hc (List.mem_cons_of_mem d hmem)) hz⟩

/-- What occurs around a character that it does not hold occurs before it or after it. -/
theorem infix_of_infix_append_cons {c : Char} {x y : Text} (hc : c ∉ pat) (h : pat <:+: x ++ c :: y) :
    pat <:+: x ∨ pat <:+: y := by
  induction x with
  | nil =>
    rcases List.infix_cons_iff.1 h with hstart | hy
    · exact .inl (prefix_of_prefix_append_cons (x := []) hc hstart).isInfix
    · exact .inr hy
  | cons d x ih =>
    rcases List.infix_cons_iff.1 h with hstart | hin
    · exact .inl (prefix_of_prefix_append_cons (x := d :: x) hc hstart).isInfix
    · exact (ih hin).imp_left fun hx => hx.trans (List.suffix_cons d x).isInfix

/-- A character of two texts one after the other stands in the first one or in the second. -/
theorem append_cons_eq_append_iff {c : Char} {x y a b : Text} :
    x ++ c :: y = a ++ b ↔ (∃ z, a = x ++ c :: z ∧ y = z ++ b) ∨ ∃ z, x = a ++ z ∧ b = z ++ c :: y := by
  rw [List.append_eq_append_iff]
  constructor
  · rintro (⟨z, rfl, hz⟩ | ⟨z, rfl, rfl⟩)
    · rcases List.cons_eq_append_iff.1 hz with ⟨rfl, rfl⟩ | ⟨z, rfl, rfl⟩
      · exact .inr ⟨[], by simp⟩
      · exact .inl ⟨z, rfl, rfl⟩
    · exact .inr ⟨z, rfl, rfl⟩
  · rintro (⟨z, rfl, rfl⟩ | ⟨z, rfl, rfl⟩)
    · exact .inl ⟨c :: z, rfl, rfl⟩
    · exact .inr ⟨z, rfl, rfl⟩

theorem exists_of_append_cons_eq_append {c : Char} {x y a b : Text} (h : x ++ c :: y = a ++ b) (hc : c ∉ a) :
    ∃ z, x = a ++ z ∧ b = z ++ c :: y := by
  rcases append_cons_eq_append_iff.1 h with ⟨z, rfl, -⟩ | hz
  · exact absurd (List.mem_append_right x List.mem_cons_self) hc
  · exact hz

/-- What holds no character of a class ends where a character of the class comes first. -/
theorem append_inj_of_class {p : Char → Bool} {x x' y y' : Text} (hx : ∀ c ∈ x, p c = false)
    (hx' : ∀ c ∈ x', p c = false) (hy : y.head?.any p) (hy' : y'.head?.any p) (h : x ++ y = x' ++ y') :
    x = x' ∧ y = y' := by
  induction x generalizing x' with
  | nil =>
    cases x' with
    | nil => exact ⟨rfl, h⟩
    | cons c x' =>
      have hc : p c = true := by
        rw [List.nil_append, List.cons_append] at h
        simpa [h] using hy
      rw [hx' c List.mem_cons_self] at hc
      cases hc
  | cons c x ih =>
    cases x' with
    | nil =>
      have hc : p c = true := by
        rw [List.nil_append, List.cons_append] at h
        simpa [← h] using hy'
      rw [hx c List.mem_cons_self] at hc
      cases hc
    | cons d x' =>
      obtain ⟨rfl, htail⟩ := List.cons_eq_cons.1 h
      obtain ⟨rfl, rfl⟩ := ih (fun e he => hx e (List.mem_cons_of_mem c he))
        (fun e he => hx' e (List.mem_cons_of_mem c he)) htail
      exact ⟨rfl, rfl⟩

end MdxSafe.Text
