-- SUMMARY: Trimming a text: what is left of texts one after the other, and when nothing is taken off.
import Mathlib.Data.List.DropRight
import MdxSafe.Text.Blank

/-!
# Trimmed texts

Trimming at the end takes characters of the second of two texts, and of the first one only if nothing is left of the
second (`trimRight_append`). A text that starts and ends with characters of another class stays as it is.
-/

namespace MdxSafe

/-- Whatever Markdown removes around running text is blank. -/
theorem isBlank_of_isMargin {c : Char} (h : isMargin c = true) : isBlank c = true := by
  simp only [isMargin, isBlank, Bool.or_eq_true, Bool.and_eq_true, decide_eq_true_eq, beq_iff_eq] at h ⊢
  rcases h with (h | h) | h
  · exact .inl (.inl (.inl h))
  · exact .inl (.inl (.inr (by omega)))
  · exact .inr h

theorem isMargin_of_isIndent {c : Char} (h : isIndent c = true) : isMargin c = true := by
  simp only [isIndent, Bool.or_eq_true, decide_eq_true_eq] at h
  rcases h with rfl | rfl <;> decide

namespace Text

theorem trimRight_append (p : Char → Bool) (t u : Text) :
    trimRight p (t ++ u) = if trimRight p u = [] then trimRight p t else t ++ trimRight p u := by
  unfold trimRight
  rw [List.reverse_append, List.dropWhile_append]
  by_cases h : u.reverse.dropWhile p = []
  · simp [h]
  · simp [h]

theorem isInfix_trim (p : Char → Bool) (t : Text) : trim p t <:+: t :=
  (List.rdropWhile_prefix p (t.dropWhile p)).isInfix.trans (List.dropWhile_suffix p).isInfix

theorem trim_sublist (p : Char → Bool) (t : Text) : (trim p t).Sublist t := (isInfix_trim p t).sublist

theorem trim_eq_self {p : Char → Bool} {t : Text} {c d : Char} (hhead : t.head? = some c) (hc : p c = false)
    (hlast : t.getLast? = some d) (hd : p d = false) : trim p t = t := by
  have hleft : trimLeft p t = t := by
    cases t with
    | nil => rfl
    | cons a t =>
      rw [List.head?_cons, Option.some.injEq] at hhead
      simp [trimLeft, hhead, hc]
  obtain ⟨u, rfl⟩ := List.getLast?_eq_some_iff.1 hlast
  rw [trim, hleft]
  simp [trimRight, hd]

/-- A trimmed text starts and ends with characters of another class. -/
theorem ends_of_trim {p : Char → Bool} {t : Text} (h : trim p t ≠ []) :
    (∃ c, (trim p t).head? = some c ∧ p c = false) ∧ ∃ d, (trim p t).getLast? = some d ∧ p d = false := by
  have hright : trim p t = List.rdropWhile p (t.dropWhile p) := rfl
  rw [hright] at h ⊢
  refine ⟨?_, _, List.getLast?_eq_some_getLast h, by simpa using List.rdropWhile_last_not p _ h⟩
  obtain ⟨u, hu⟩ := List.rdropWhile_prefix p (l := t.dropWhile p)
  obtain ⟨c, v, hv⟩ := List.exists_cons_of_ne_nil h
  have hhead := List.head?_dropWhile_not p t
  rw [← hu, hv] at hhead
  exact ⟨c, by rw [hv]; rfl, by simpa using hhead⟩

/-- A trimmed text stays as it is when it is trimmed once more, by a class that is no wider. -/
theorem trim_trim_of_imp {p q : Char → Bool} (h : ∀ c, q c = true → p c = true) (t : Text) :
    trim q (trim p t) = trim p t := by
  have hnot : ∀ {c}, p c = false → q c = false := fun {c} hc => by
    by_contra hq
    rw [h c (by simpa using hq)] at hc
    cases hc
  by_cases hnil : trim p t = []
  · rw [hnil]
    rfl
  · obtain ⟨⟨c, hhead, hc⟩, d, hlast, hd⟩ := ends_of_trim hnil
    exact trim_eq_self hhead (hnot hc) hlast (hnot hd)

theorem trim_trim (p : Char → Bool) (t : Text) : trim p (trim p t) = trim p t := trim_trim_of_imp (fun _ => id) t

theorem trim_cons {p : Char → Bool} {c : Char} (hc : p c = true) (t : Text) : trim p (c :: t) = trim p t := by
  rw [trim, trimLeft, List.dropWhile_cons_of_pos hc]
  rfl

theorem trim_concat {p : Char → Bool} {d : Char} (hd : p d = true) (t : Text) : trim p (t ++ [d]) = trim p t := by
  have hlast : trimRight p [d] = [] := by simp [trimRight, hd]
  rw [trim, trimLeft, List.dropWhile_append]
  split
  · next h =>
    have hnil : t.dropWhile p = [] := by simpa using h
    rw [trim, trimLeft, hnil]
    simp [trimRight, hd]
  · rw [trimRight_append, if_pos hlast]
    rfl

theorem infix_dropWhile_iff {p : Char → Bool} {pat : Text} (hpat : pat ≠ []) (hclass : ∀ c ∈ pat, p c = false)
    (t : Text) : pat <:+: t.dropWhile p ↔ pat <:+: t := by
  induction t with
  | nil => rfl
  | cons c t ih =>
    rw [List.dropWhile_cons]
    split
    · next hc =>
      have hstart : ¬ pat <+: c :: t := by
        intro h
        obtain ⟨d, pat, rfl⟩ := List.exists_cons_of_ne_nil hpat
        obtain ⟨rfl, -⟩ := List.cons_prefix_cons.1 h
        rw [hclass d List.mem_cons_self] at hc
        cases hc
      rw [ih, List.infix_cons_iff, or_iff_right hstart]
    · rfl

/-- What holds no character of the class occurs in a text just if it occurs in the trimmed one. -/
theorem infix_trim_iff {p : Char → Bool} {pat : Text} (hpat : pat ≠ []) (hclass : ∀ c ∈ pat, p c = false) (t : Text) :
    pat <:+: trim p t ↔ pat <:+: t := by
  have hreverse : pat.reverse <:+: (t.dropWhile p).reverse.dropWhile p ↔ pat.reverse <:+: (t.dropWhile p).reverse :=
    infix_dropWhile_iff (by simpa using hpat) (by simpa using hclass) _
  rw [List.reverse_infix, infix_dropWhile_iff hpat hclass, ← List.reverse_infix, List.reverse_reverse] at hreverse
  exact hreverse

end Text
end MdxSafe
