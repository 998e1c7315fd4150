-- SUMMARY: Blanks and the marks of tags are no letters: each of them is only like itself when case is disregarded.
import MdxSafe.Text.Blank
import MdxSafe.Text.Case

/-!
# Characters without case

No letter has a blank, a slash or an angle bracket as its lower case, and no such character is listed as a variant
of a letter. So a name that is spelled in letters of either case has these characters where the name has them. What
stands before the letters in ASCII is not brought in by changing the case of a text (`mem_of_mem_lower`).
-/

namespace MdxSafe

/-- Blanks, the slash and the angle brackets, by code point. -/
def breakPoints : List Nat :=
  [0x9, 0xA, 0xB, 0xC, 0xD, 0x1C, 0x1D, 0x1E, 0x1F, 0x20, 0x2F, 0x3C, 0x3E, 0x85, 0xA0, 0x1680, 0x2000, 0x2001, 0x2002,
   0x2003, 0x2004, 0x2005, 0x2006, 0x2007, 0x2008, 0x2009, 0x200A, 0x2028, 0x2029, 0x202F, 0x205F, 0x3000]

/-- A blank, a slash or an angle bracket: what breaks off the name of an element. -/
def isBreak (c : Char) : Bool := isBlank c || c = '/' || c = '<' || c = '>'

theorem mem_breakPoints {c : Char} (h : isBreak c) : c.toNat ∈ breakPoints := by
  simp only [isBreak, Bool.or_eq_true, decide_eq_true_eq] at h
  rcases h with ((h | rfl) | rfl) | rfl
  · simp only [isBlank, isWideSpace, Bool.or_eq_true, Bool.and_eq_true, decide_eq_true_eq, beq_iff_eq] at h
    simp only [breakPoints, List.mem_cons, List.not_mem_nil, or_false]
    grind
  · decide
  · decide
  · decide

-- ---------------------------------------------------------------------------
-- Tables
-- ---------------------------------------------------------------------------

/-- No run of letters has one of these characters in it or in its image, and none of them is listed as a variant. -/
theorem tables_avoid :
    (∀ r ∈ lowerRuns, ∀ n ∈ breakPoints,
      ¬ (r.1 ≤ n ∧ n ≤ r.2.1) ∧ ¬ ((r.1 : Int) + r.2.2.2 ≤ n ∧ (n : Int) ≤ r.2.1 + r.2.2.2))
      ∧ ∀ e ∈ caseVariants, ∀ n ∈ breakPoints, n ∉ e.2 := by
  decide +kernel

/-- No image of letters starts before the letters in ASCII. -/
theorem tables_ge :
    (∀ r ∈ lowerRuns, (0x41 : Int) ≤ r.1 + r.2.2.2) ∧ (∀ r ∈ upperRuns, (0x41 : Int) ≤ r.1 + r.2.2.2)
      ∧ ∀ e ∈ upperExpansions, ∀ n ∈ e.2, 0x41 ≤ n := by
  decide +kernel

-- ---------------------------------------------------------------------------
-- Letters of ASCII
-- ---------------------------------------------------------------------------

theorem toLower_cases (c : Char) :
    c.toLower = c ∨ 0x41 ≤ c.toNat ∧ c.toNat ≤ 0x5A ∧ c.toLower.toNat = c.toNat + 0x20 := by
  unfold Char.toLower
  split
  · next h =>
    have hlow : 0x41 ≤ c.toNat := UInt32.le_iff_toNat_le.1 h.1
    have hhigh : c.toNat ≤ 0x5A := UInt32.le_iff_toNat_le.1 h.2
    refine .inr ⟨hlow, hhigh, ?_⟩
    show (c.val + 0x20).toNat = c.toNat + 0x20
    rw [UInt32.toNat_add, Char.toNat_val]
    show (c.toNat + 0x20) % 0x100000000 = c.toNat + 0x20
    omega
  · exact .inl rfl

theorem toUpper_cases (c : Char) :
    c.toUpper = c ∨ 0x61 ≤ c.toNat ∧ c.toNat ≤ 0x7A ∧ c.toUpper.toNat + 0x20 = c.toNat := by
  unfold Char.toUpper
  split
  · next h =>
    have hlow : 0x61 ≤ c.toNat := UInt32.le_iff_toNat_le.1 h.1
    have hhigh : c.toNat ≤ 0x7A := UInt32.le_iff_toNat_le.1 h.2
    refine .inr ⟨hlow, hhigh, ?_⟩
    show (c.val + 0xFFFFFFE0).toNat + 0x20 = c.toNat
    rw [UInt32.toNat_add, Char.toNat_val]
    show (c.toNat + 0xFFFFFFE0) % 0x100000000 + 0x20 = c.toNat
    omega
  · exact .inl rfl

/-- Only such a character itself has it as its lower case in ASCII. -/
theorem toLower_eq_iff {a b : Char} (hb : b.toNat ∈ breakPoints) : a.toLower = b ↔ a = b := by
  have hletters : ∀ n ∈ breakPoints, ¬ (0x41 ≤ n ∧ n ≤ 0x5A) ∧ ¬ (0x61 ≤ n ∧ n ≤ 0x7A) := by decide
  have hnone := hletters _ hb
  rcases toLower_cases a with h | ⟨hlow, hhigh, h⟩
  · rw [h]
  · refine iff_of_false ?_ ?_
    · rintro rfl
      omega
    · rintro rfl
      omega

-- ---------------------------------------------------------------------------
-- Characters
-- ---------------------------------------------------------------------------

theorem apply?_breakPoint {n : Nat} (h : n ∈ breakPoints) : lowerRuns.apply? n = none := by
  rw [ CaseRuns.apply?, Option.map_eq_none_iff, List.find?_eq_none]
  intro r hr hin
  simp only [Bool.and_eq_true, decide_eq_true_eq] at hin
  exact (tables_avoid.1 r hr n h).1 hin.1

theorem apply?_ne_breakPoint {m n : Nat} (h : n ∈ breakPoints) : lowerRuns.apply? m ≠ some n := by
  rw [ CaseRuns.apply?, ne_eq, Option.map_eq_some_iff]
  rintro ⟨r, hfind, himage⟩
  have hr := List.mem_of_find?_eq_some hfind
  have hin := List.find?_some hfind
  simp only [Bool.and_eq_true, decide_eq_true_eq] at hin
  have hpos : 0 < n := by
    have hall : ∀ k ∈ breakPoints, 0 < k := by decide
    exact hall n h
  exact (tables_avoid.1 r hr n h).2 (by omega)

theorem toNat_ofNat (m : Nat) : (Char.ofNat m).toNat = m ∨ (Char.ofNat m).toNat = 0 := by
  by_cases hvalid : m.isValidChar
  · refine .inl ?_
    rw [Char.ofNat, dif_pos hvalid]
    rfl
  · refine .inr ?_
    rw [Char.ofNat, dif_neg hvalid]
    rfl

/-- Only such a character itself has it as its lower case. -/
theorem lowerChar_eq_iff {a b : Char} (hb : isBreak b) : lowerChar a = b ↔ a = b := by
  have hmem := mem_breakPoints hb
  rw [lowerChar]
  by_cases hascii : a.toNat < 0x80
  · simpa only [hascii, if_true] using toLower_eq_iff hmem
  · simp only [hascii, if_false]
    by_cases hdotted : a.toNat = 0x130
    · have hi : 'i'.toNat ∉ breakPoints := by decide
      have ha : a.toNat ∉ breakPoints := by
        rw [hdotted]
        decide
      simp only [hdotted, beq_self_eq_true, if_true]
      constructor
      · rintro rfl
        exact absurd hmem hi
      · rintro rfl
        exact absurd hmem ha
    · simp only [beq_iff_eq, hdotted, if_false]
      cases happly : lowerRuns.apply? a.toNat with
      | none => exact Iff.rfl
      | some m =>
        dsimp only
        constructor
        · rintro rfl
          rcases toNat_ofNat m with hm | hm
          · rw [hm] at hmem
            exact absurd happly (apply?_ne_breakPoint hmem)
          · rw [hm] at hmem
            exact absurd hmem (by decide)
        · rintro rfl
          rw [apply?_breakPoint hmem] at happly
          cases happly

/-- A blank, a slash or an angle bracket is the same letter as itself only. -/
theorem eq_of_sameLetter {a b : Char} (h : sameLetter a b) (hb : isBreak b) : a = b := by
  have hself : lowerChar b = b := (lowerChar_eq_iff hb).2 rfl
  simp only [sameLetter, hself, Bool.or_eq_true, beq_iff_eq] at h
  rcases h with h | h
  · exact (lowerChar_eq_iff hb).1 h
  · split at h
    · next e hfind =>
      have hmem := List.mem_of_find?_eq_some hfind
      exact absurd (by simpa using h) (tables_avoid.2 e hmem _ (mem_breakPoints hb))
    · cases h

-- ---------------------------------------------------------------------------
-- What stands before the letters in ASCII
-- ---------------------------------------------------------------------------

theorem CaseRuns.le_of_apply? {rs : CaseRuns} (hrs : ∀ r ∈ rs, (0x41 : Int) ≤ r.1 + r.2.2.2) {n m : Nat}
    (h : rs.apply? n = some m) : 0x41 ≤ m := by
  obtain ⟨r, hfind, rfl⟩ := Option.map_eq_some_iff.1 h
  have hr := hrs r (List.mem_of_find?_eq_some hfind)
  have hin := List.find?_some hfind
  simp only [Bool.and_eq_true, decide_eq_true_eq] at hin
  omega

theorem not_lt_of_ofNat {m : Nat} (hm : 0x41 ≤ m) : ¬ (0 < (Char.ofNat m).toNat ∧ (Char.ofNat m).toNat < 0x41) := by
  rcases toNat_ofNat m with h | h
  · omega
  · omega

theorem lowerChar_eq_self {c : Char} (hd : 0 < (lowerChar c).toNat ∧ (lowerChar c).toNat < 0x41) : lowerChar c = c := by
  unfold lowerChar at hd ⊢
  by_cases hascii : c.toNat < 0x80
  · simp only [hascii, if_true] at hd ⊢
    exact (toLower_cases c).resolve_right (by omega)
  simp only [hascii, if_false] at hd ⊢
  by_cases hdotted : c.toNat = 0x130
  · simp only [hdotted, beq_self_eq_true, if_true] at hd
    exact absurd hd (by decide)
  simp only [beq_iff_eq, hdotted, if_false] at hd ⊢
  cases happly : lowerRuns.apply? c.toNat with
  | none => rfl
  | some m =>
    rw [happly] at hd
    exact absurd hd (not_lt_of_ofNat (CaseRuns.le_of_apply? tables_ge.1 happly))

/-- What stands before the letters in ASCII is the lower case of nothing but itself. -/
theorem eq_of_mem_lowerAt {before after : Text} {c d : Char} (h : d ∈ Text.lowerAt before c after)
    (hd : 0 < d.toNat ∧ d.toNat < 0x41) : d = c := by
  unfold Text.lowerAt at h
  split at h
  · rw [List.mem_singleton] at h
    subst h
    split at hd
    · exact absurd hd (by decide)
    · exact absurd hd (by decide)
  split at h
  · rcases List.mem_cons.1 h with rfl | h
    · exact absurd hd (by decide)
    · rw [List.mem_singleton] at h
      subst h
      exact absurd hd (by decide)
  rw [List.mem_singleton] at h
  subst h
  exact lowerChar_eq_self hd

/-- What stands before the letters in ASCII is the upper case of nothing but itself. -/
theorem eq_of_mem_upperChar {c d : Char} (h : d ∈ upperChar c) (hd : 0 < d.toNat ∧ d.toNat < 0x41) : d = c := by
  unfold upperChar at h
  dsimp only at h
  split at h
  · next hascii =>
    rw [List.mem_singleton] at h
    subst h
    exact (toUpper_cases c).resolve_right (by omega)
  split at h
  · next e he =>
    obtain ⟨n, hn, rfl⟩ := List.mem_map.1 h
    exact absurd hd (not_lt_of_ofNat (tables_ge.2.2 e (List.mem_of_find?_eq_some he) n hn))
  · split at h
    · next m hm =>
      rw [List.mem_singleton] at h
      subst h
      exact absurd hd (not_lt_of_ofNat (CaseRuns.le_of_apply? tables_ge.2.1 hm))
    · exact List.mem_singleton.1 h

theorem mem_of_mem_lower {t : Text} {d : Char} (h : d ∈ Text.lower t) (hd : 0 < d.toNat ∧ d.toNat < 0x41) : d ∈ t := by
  suffices hafter : ∀ before, d ∈ Text.lowerAfter before t → d ∈ t from hafter [] h
  clear h
  induction t with
  | nil => exact fun _ h => h
  | cons c t ih =>
    intro before h
    rcases List.mem_append.1 h with h | h
    · rw [eq_of_mem_lowerAt h hd]
      exact List.mem_cons_self
    · exact List.mem_cons_of_mem _ (ih _ h)

theorem mem_of_mem_upper {t : Text} {d : Char} (h : d ∈ Text.upper t) (hd : 0 < d.toNat ∧ d.toNat < 0x41) : d ∈ t := by
  obtain ⟨c, hc, hmem⟩ := List.mem_flatMap.1 h
  rwa [eq_of_mem_upperChar hmem hd]

end MdxSafe
