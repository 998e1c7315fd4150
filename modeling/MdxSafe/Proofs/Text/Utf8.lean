-- SUMMARY: Reading bytes as UTF-8 and writing the text again gives the bytes, and the other way round.
import MdxSafe.Text.Utf8

/-!
# UTF-8 and back

The reader accepts a sequence of bytes only if it is the one that the writer has for a character: no overlong
form, no surrogate, nothing beyond the last code point. So whatever is read at all is written back byte for byte, and
every text that is written is read again.
-/

namespace MdxSafe.Utf8

theorem toNat_charOfNat {n : Nat} (h : n.isValidChar) : (Char.ofNat n).toNat = n := by
  unfold Char.ofNat
  rw [dif_pos h]
  rfl

theorem ofNat_eq {n : Nat} {b : UInt8} (h : n = b.toNat) : UInt8.ofNat n = b := by
  rw [h, UInt8.ofNat_toNat]

-- ---------------------------------------------------------------------------
-- One character
-- ---------------------------------------------------------------------------

theorem encodeChar_one {a : UInt8} (ha : a.toNat < 0x80) : encodeChar (Char.ofNat a.toNat) = [a] := by
  have hn : (Char.ofNat a.toNat).toNat = a.toNat := toNat_charOfNat (.inl (by omega))
  simp [encodeChar, hn, ha]

theorem encodeChar_two {a b : UInt8} (ha : 0xC2 ≤ a.toNat) (ha' : a.toNat < 0xE0) (hb : 0x80 ≤ b.toNat)
    (hb' : b.toNat < 0xC0) : encodeChar (Char.ofNat (a.toNat % 32 * 64 + bits b)) = [a, b] := by
  unfold bits
  generalize hm : a.toNat % 32 * 64 + b.toNat % 64 = m
  have hn : (Char.ofNat m).toNat = m := toNat_charOfNat (.inl (by omega))
  unfold encodeChar
  simp only [hn]
  rw [if_neg (by omega), if_pos (by omega), ofNat_eq (b := a) (by omega), ofNat_eq (b := b) (by omega)]

theorem encodeChar_three {a b c : UInt8} (ha : 0xE0 ≤ a.toNat) (ha' : a.toNat < 0xF0) (hb : 0x80 ≤ b.toNat)
    (hb' : b.toNat < 0xC0) (hlow : a.toNat = 0xE0 → 0xA0 ≤ b.toNat) (hsurrogate : a.toNat = 0xED → b.toNat < 0xA0)
    (hc : 0x80 ≤ c.toNat) (hc' : c.toNat < 0xC0) :
    encodeChar (Char.ofNat ((a.toNat % 16 * 64 + bits b) * 64 + bits c)) = [a, b, c] := by
  unfold bits
  generalize hm : (a.toNat % 16 * 64 + b.toNat % 64) * 64 + c.toNat % 64 = m
  have hn : (Char.ofNat m).toNat = m := by
    refine toNat_charOfNat ?_
    unfold Nat.isValidChar
    omega
  unfold encodeChar
  simp only [hn]
  rw [if_neg (by omega), if_neg (by omega), if_pos (by omega), ofNat_eq (b := a) (by omega),
    ofNat_eq (b := b) (by omega), ofNat_eq (b := c) (by omega)]

theorem encodeChar_four {a b c d : UInt8} (ha : 0xF0 ≤ a.toNat) (ha' : a.toNat < 0xF5) (hb : 0x80 ≤ b.toNat)
    (hb' : b.toNat < 0xC0) (hlow : a.toNat = 0xF0 → 0x90 ≤ b.toNat) (hhigh : a.toNat = 0xF4 → b.toNat < 0x90)
    (hc : 0x80 ≤ c.toNat) (hc' : c.toNat < 0xC0) (hd : 0x80 ≤ d.toNat) (hd' : d.toNat < 0xC0) :
    encodeChar (Char.ofNat (((a.toNat % 8 * 64 + bits b) * 64 + bits c) * 64 + bits d)) = [a, b, c, d] := by
  unfold bits
  generalize hm : ((a.toNat % 8 * 64 + b.toNat % 64) * 64 + c.toNat % 64) * 64 + d.toNat % 64 = m
  have hn : (Char.ofNat m).toNat = m := by
    refine toNat_charOfNat ?_
    unfold Nat.isValidChar
    omega
  unfold encodeChar
  simp only [hn]
  rw [if_neg (by omega), if_neg (by omega), if_neg (by omega), ofNat_eq (b := a) (by omega),
    ofNat_eq (b := b) (by omega), ofNat_eq (b := c) (by omega), ofNat_eq (b := d) (by omega)]

theorem isContinuation_iff {b : UInt8} : isContinuation b ↔ 0x80 ≤ b.toNat ∧ b.toNat < 0xC0 := by
  unfold isContinuation
  simp [UInt8.le_iff_toNat_le, UInt8.lt_iff_toNat_lt]

/-- A second byte fits if it continues the character, and leaves out what has a shorter form or is no character. -/
theorem fitsSecond_iff {a b : UInt8} :
    fitsSecond a b ↔ (0x80 ≤ b.toNat ∧ b.toNat < 0xC0) ∧ (a.toNat = 0xE0 → 0xA0 ≤ b.toNat)
      ∧ (a.toNat = 0xED → b.toNat < 0xA0) ∧ (a.toNat = 0xF0 → 0x90 ≤ b.toNat) ∧ (a.toNat = 0xF4 → b.toNat < 0x90) := by
  unfold fitsSecond
  simp only [Bool.and_eq_true, Bool.not_eq_true', Bool.and_eq_false_iff, isContinuation_iff, beq_eq_false_iff_ne,
    decide_eq_false_iff_not, UInt8.le_iff_toNat_le, UInt8.lt_iff_toNat_lt, ne_eq, ← UInt8.toNat_inj, UInt8.reduceToNat]
  omega

/-- A character that is read is written as the bytes that it was read from. -/
theorem exists_of_decodeChar {a : UInt8} {rest : Bytes} {c : Char} {n : Nat} (h : decodeChar a rest = .ok (c, n)) :
    ∃ tail, tail <+: rest ∧ tail.length = n - 1 ∧ encodeChar c = a :: tail := by
  unfold decodeChar at h
  by_cases hone : a < 0x80
  · rw [if_pos hone] at h
    cases h
    exact ⟨[], List.nil_prefix, rfl, encodeChar_one (UInt8.lt_iff_toNat_lt.1 hone)⟩
  rw [if_neg hone] at h
  by_cases hlead : a < 0xC2 || 0xF5 ≤ a
  · rw [if_pos hlead] at h
    cases h
  rw [if_neg hlead] at h
  simp only [Bool.or_eq_true, decide_eq_true_eq, not_or, UInt8.le_iff_toNat_le, UInt8.lt_iff_toNat_lt,
    UInt8.reduceToNat, Nat.not_lt, Nat.not_le] at hlead
  obtain ⟨hmin, hmax⟩ := hlead
  rcases rest with - | ⟨b, rest⟩
  · cases h
  dsimp only at h
  by_cases hfits : fitsSecond a b
  · obtain ⟨⟨hb, hb'⟩, he0, hed, hf0, hf4⟩ := fitsSecond_iff.1 hfits
    rw [hfits, Bool.not_true, if_neg Bool.false_ne_true] at h
    by_cases htwo : a < 0xE0
    · rw [if_pos htwo] at h
      cases h
      exact ⟨[b], ⟨rest, rfl⟩, rfl, encodeChar_two hmin (UInt8.lt_iff_toNat_lt.1 htwo) hb hb'⟩
    rw [if_neg htwo] at h
    rcases rest with - | ⟨c', rest⟩
    · cases h
    dsimp only at h
    by_cases hc : isContinuation c'
    · obtain ⟨hc', hc''⟩ := isContinuation_iff.1 hc
      rw [hc, Bool.not_true, if_neg Bool.false_ne_true] at h
      have hthree : 0xE0 ≤ a.toNat := UInt8.le_iff_toNat_le.1 (UInt8.not_lt.1 htwo)
      by_cases hfour : a < 0xF0
      · rw [if_pos hfour] at h
        cases h
        exact ⟨[b, c'], ⟨rest, rfl⟩, rfl,
          encodeChar_three hthree (UInt8.lt_iff_toNat_lt.1 hfour) hb hb' he0 hed hc' hc''⟩
      rw [if_neg hfour] at h
      rcases rest with - | ⟨d, rest⟩
      · cases h
      dsimp only at h
      by_cases hd : isContinuation d
      · obtain ⟨hd', hd''⟩ := isContinuation_iff.1 hd
        rw [hd, Bool.not_true, if_neg Bool.false_ne_true] at h
        cases h
        have hfour' : 0xF0 ≤ a.toNat := UInt8.le_iff_toNat_le.1 (UInt8.not_lt.1 hfour)
        exact ⟨[b, c', d], ⟨rest, rfl⟩, rfl, encodeChar_four hfour' hmax hb hb' hf0 hf4 hc' hc'' hd' hd''⟩
      · simp [hd] at h
    · simp [hc] at h
  · simp [hfits] at h

-- ---------------------------------------------------------------------------
-- Texts
-- ---------------------------------------------------------------------------

/-- What is read from an offset on is written as the bytes behind those still to be passed over. -/
theorem encode_of_decodeFrom {bytes : Bytes} {position skip : Nat} {t : Text}
    (h : decodeFrom position skip bytes = .ok t) : encode t = bytes.drop skip := by
  fun_induction decodeFrom position skip bytes generalizing t with
  | case1 position skip =>
    cases h
    simp [encode]
  | case2 position skip b rest ih => exact ih h
  | case3 position b rest e he => cases h
  | case4 position b rest c n hchar ih =>
    obtain ⟨u, hu, rfl⟩ : ∃ u, decodeFrom (position + 1) (n - 1) rest = .ok u ∧ c :: u = t := by
      cases hrest : decodeFrom (position + 1) (n - 1) rest with
      | error e =>
        rw [hrest] at h
        cases h
      | ok u =>
        rw [hrest] at h
        cases h
        exact ⟨u, rfl, rfl⟩
    obtain ⟨tail, ⟨after, rfl⟩, hlength, hencode⟩ := exists_of_decodeChar hchar
    have htext : encode u = after := by
      rw [ih hu, ← hlength, List.drop_left]
    unfold encode at htext ⊢
    rw [List.flatMap_cons, hencode, htext, List.cons_append, List.drop_zero]

/-- What is read as a text is written as the same bytes. -/
theorem encode_of_decode {bytes : Bytes} {t : Text} (h : decode bytes = .ok t) : encode t = bytes := by
  rw [encode_of_decodeFrom h, List.drop_zero]

-- ---------------------------------------------------------------------------
-- Bytes that were written
-- ---------------------------------------------------------------------------

theorem toNat_ofNat_lt {n : Nat} (h : n < 256) : (UInt8.ofNat n).toNat = n := by
  rw [UInt8.toNat_ofNat', Nat.mod_eq_of_lt h]

theorem isContinuation_ofNat (n : Nat) : isContinuation (UInt8.ofNat (0x80 + n % 64)) = true := by
  rw [isContinuation_iff, toNat_ofNat_lt (by omega)]
  omega

theorem bits_ofNat (n : Nat) : bits (UInt8.ofNat (0x80 + n % 64)) = n % 64 := by
  rw [bits, toNat_ofNat_lt (by omega)]
  omega

theorem decodeChar_one {a : UInt8} (h : a.toNat < 0x80) (rest : Bytes) :
    decodeChar a rest = .ok (Char.ofNat a.toNat, 1) := by
  unfold decodeChar
  rw [if_pos (UInt8.lt_iff_toNat_lt.2 h)]

theorem decodeChar_two {a b : UInt8} (hmin : 0xC2 ≤ a.toNat) (hmax : a.toNat < 0xE0) (hb : fitsSecond a b)
    (rest : Bytes) : decodeChar a (b :: rest) = .ok (Char.ofNat (a.toNat % 32 * 64 + bits b), 2) := by
  have h1 : ¬ a.toNat < 0x80 := by omega
  have h2 : ¬ a.toNat < 0xC2 := by omega
  have h3 : ¬ 0xF5 ≤ a.toNat := by omega
  simp [decodeChar, UInt8.lt_iff_toNat_lt, UInt8.le_iff_toNat_le, h1, h2, h3, hmax, hb]

theorem decodeChar_three {a b c : UInt8} (hmin : 0xE0 ≤ a.toNat) (hmax : a.toNat < 0xF0) (hb : fitsSecond a b)
    (hc : isContinuation c) (rest : Bytes) :
    decodeChar a (b :: c :: rest) = .ok (Char.ofNat ((a.toNat % 16 * 64 + bits b) * 64 + bits c), 3) := by
  have h1 : ¬ a.toNat < 0x80 := by omega
  have h2 : ¬ a.toNat < 0xC2 := by omega
  have h3 : ¬ 0xF5 ≤ a.toNat := by omega
  have h4 : ¬ a.toNat < 0xE0 := by omega
  simp [decodeChar, UInt8.lt_iff_toNat_lt, UInt8.le_iff_toNat_le, h1, h2, h3, h4, hmax, hb, hc]

theorem decodeChar_four {a b c d : UInt8} (hmin : 0xF0 ≤ a.toNat) (hmax : a.toNat < 0xF5) (hb : fitsSecond a b)
    (hc : isContinuation c) (hd : isContinuation d) (rest : Bytes) :
    decodeChar a (b :: c :: d :: rest)
      = .ok (Char.ofNat (((a.toNat % 8 * 64 + bits b) * 64 + bits c) * 64 + bits d), 4) := by
  have h1 : ¬ a.toNat < 0x80 := by omega
  have h2 : ¬ a.toNat < 0xC2 := by omega
  have h3 : ¬ 0xF5 ≤ a.toNat := by omega
  have h4 : ¬ a.toNat < 0xE0 := by omega
  have h5 : ¬ a.toNat < 0xF0 := by omega
  simp [decodeChar, UInt8.lt_iff_toNat_lt, UInt8.le_iff_toNat_le, h1, h2, h3, h4, h5, hb, hc, hd]

/-- A character is read from the bytes that it is written as. -/
theorem decodeChar_encodeChar (c : Char) (rest : Bytes) :
    ∃ a tail, encodeChar c = a :: tail ∧ decodeChar a (tail ++ rest) = .ok (c, tail.length + 1) := by
  have hvalid : c.toNat < 0xD800 ∨ 0xDFFF < c.toNat ∧ c.toNat < 0x110000 := c.valid
  have hchar : ∀ n, n = c.toNat → Char.ofNat n = c := fun n h => by rw [h, Char.ofNat_toNat]
  unfold encodeChar
  dsimp only
  generalize c.toNat = n at hvalid hchar ⊢
  by_cases h1 : n < 0x80
  · have ha := toNat_ofNat_lt (show n < 256 by omega)
    refine ⟨_, [], if_pos h1, ?_⟩
    rw [decodeChar_one (by rw [ha]; exact h1), ha, hchar n rfl]
    rfl
  rw [if_neg h1]
  by_cases h2 : n < 0x800
  · have ha := toNat_ofNat_lt (show 0xC0 + n / 64 < 256 by omega)
    have hb := toNat_ofNat_lt (show 0x80 + n / 1 % 64 < 256 by omega)
    refine ⟨_, _, if_pos h2, ?_⟩
    rw [List.singleton_append, decodeChar_two (by omega) (by omega) (fitsSecond_iff.2 (by omega)), bits_ofNat, ha,
      hchar _ (by omega)]
    rfl
  rw [if_neg h2]
  by_cases h3 : n < 0x10000
  · have ha := toNat_ofNat_lt (show 0xE0 + n / 4096 < 256 by omega)
    have hb := toNat_ofNat_lt (show 0x80 + n / 64 % 64 < 256 by omega)
    refine ⟨_, _, if_pos h3, ?_⟩
    rw [List.cons_append, List.singleton_append,
      decodeChar_three (by omega) (by omega) (fitsSecond_iff.2 (by omega)) (isContinuation_ofNat _), bits_ofNat,
      bits_ofNat, ha, hchar _ (by omega)]
    rfl
  · have ha := toNat_ofNat_lt (show 0xF0 + n / 262144 < 256 by omega)
    have hb := toNat_ofNat_lt (show 0x80 + n / 4096 % 64 < 256 by omega)
    refine ⟨_, _, if_neg h3, ?_⟩
    rw [List.cons_append, List.cons_append, List.singleton_append,
      decodeChar_four (by omega) (by omega) (fitsSecond_iff.2 (by omega)) (isContinuation_ofNat _)
        (isContinuation_ofNat _), bits_ofNat, bits_ofNat, bits_ofNat, ha, hchar _ (by omega)]
    rfl

/-- Bytes that are still to be passed over are passed over. -/
theorem decodeFrom_append (position : Nat) (tail rest : Bytes) :
    decodeFrom position tail.length (tail ++ rest) = decodeFrom (position + tail.length) 0 rest := by
  induction tail generalizing position with
  | nil => rfl
  | cons b tail ih =>
    rw [List.length_cons, List.cons_append, decodeFrom, ih]
    congr 1
    omega

theorem decodeFrom_encode (position : Nat) (t : Text) : decodeFrom position 0 (encode t) = .ok t := by
  induction t generalizing position with
  | nil => rfl
  | cons c t ih =>
    obtain ⟨a, tail, hencode, hdecode⟩ := decodeChar_encodeChar c (encode t)
    have hcons : encode (c :: t) = a :: (tail ++ encode t) := by
      rw [encode, List.flatMap_cons, hencode]
      rfl
    rw [hcons, decodeFrom, hdecode]
    dsimp only
    rw [Nat.add_sub_cancel, decodeFrom_append, ih]
    rfl

/-- What is written as a text is read as the same text. -/
theorem decode_encode (t : Text) : decode (encode t) = .ok t := decodeFrom_encode 0 t

end MdxSafe.Utf8
