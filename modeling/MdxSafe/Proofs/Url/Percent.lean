-- SUMMARY: The characters of link targets in normal form.
import MdxSafe.Url.Link

/-!
# Characters of normal forms

Percent encoding leaves characters that it keeps and percent signs, nothing else (`mem_encode`). A link target in normal
form may have the brackets around an address besides (`mem_normalize`).
-/

namespace MdxSafe

namespace Percent

variable {c : Char}

theorem isKept_of_hexValue? (h : (hexValue? c).isSome) : isKept c = true := by
  have hdigit : (c.isUpper || c.isLower || c.isDigit) = true := by
    unfold hexValue? at h
    rw [Bool.or_eq_true, Bool.or_eq_true]
    split at h
    · next hc => exact .inr (Bool.and_eq_true_iff.2 ⟨decide_eq_true hc.1, decide_eq_true hc.2⟩)
    split at h
    · next hc =>
      have hz : c ≤ 'z' := Nat.le_trans hc.2 (by decide)
      exact .inl (.inr (Bool.and_eq_true_iff.2 ⟨decide_eq_true hc.1, decide_eq_true hz⟩))
    split at h
    · next hc =>
      have hz : c ≤ 'Z' := Nat.le_trans hc.2 (by decide)
      exact .inl (.inl (decide_eq_true ⟨hc.1, hz⟩))
    · cases h
  have halpha : c.isAlphanum = true := hdigit
  rw [isKept, halpha, Bool.true_or]

theorem mem_escape {b : UInt8} (h : c ∈ escape b) : isKept c = true ∨ c = '%' := by
  have hall : (List.range 256).all (fun n => (escape (UInt8.ofNat n)).all fun c => isKept c || c == '%') = true := by
    decide +kernel
  have hb := List.all_eq_true.1 (List.all_eq_true.1 hall b.toNat (List.mem_range.2 b.toNat_lt)) c
    (by rwa [UInt8.ofNat_toNat])
  simpa using hb

/-- An encoded text is made of kept characters and percent signs. -/
theorem mem_encode {t : Text} (h : c ∈ encode t) : isKept c = true ∨ c = '%' := by
  fun_induction encode t with
  | case1 => cases h
  | case2 a b t hhex ih =>
    simp only [List.mem_cons] at h
    rcases h with rfl | rfl | rfl | h
    · exact .inr rfl
    · exact .inl (isKept_of_hexValue? hhex.1)
    · exact .inl (isKept_of_hexValue? hhex.2)
    · exact ih h
  | case3 a b t _ ih =>
    rcases List.mem_append.1 h with h | h
    · have hmark : "%25".toList = escape 37 := by decide
      exact mem_escape (hmark ▸ h)
    · exact ih h
  | case4 d t _ ih =>
    rcases List.mem_append.1 h with h | h
    · split at h
      · next hkept => exact .inl (List.mem_singleton.1 h ▸ hkept)
      · obtain ⟨b, -, h⟩ := List.mem_flatMap.1 h
        exact mem_escape h
    · exact ih h

end Percent

namespace Url

theorem mem_encoded {c : Char} {u : Url} (h : c ∈ encoded u) : Percent.isKept c = true ∨ c ∈ ['%', '[', ']'] := by
  have hencode : ∀ {t : Text}, c ∈ Percent.encode t → Percent.isKept c = true ∨ c ∈ ['%', '[', ']'] := by
    intro t h
    rcases Percent.mem_encode h with h | rfl
    · exact .inl h
    · exact .inr (by simp)
  rw [encoded] at h
  split at h
  · simp only [List.mem_append, List.mem_cons, List.not_mem_nil, or_false] at h
    rcases h with ((h | rfl | h) | rfl) | h
    · exact hencode h
    · exact .inr (by simp)
    · exact hencode h
    · exact .inr (by simp)
    · exact hencode h
  · exact hencode h

/-- A link target in normal form is made of characters that encoding keeps, percent signs and brackets. -/
theorem mem_normalize {c : Char} {t : Text} (h : c ∈ normalize t) : Percent.isKept c = true ∨ c ∈ ['%', '[', ']'] :=
  mem_encoded h

theorem notMem_normalize (t : Text) : '\n' ∉ normalize t := by
  intro h
  rcases mem_normalize h with h | h
  · exact absurd h (by decide)
  · exact absurd h (by decide)

end Url
end MdxSafe
