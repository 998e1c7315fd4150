-- SUMMARY: The order of texts by code point is the lexicographic order of their characters.
import Mathlib.Data.List.Sort
import MdxSafe.Text.Basic

/-!
# The order of texts

Sorting by `Text.le` gives a list in lexicographic order; if what is sorted has no name twice, the order is strict.
-/

namespace MdxSafe.Text

/-- No later by code point is no later in lexicographic order. -/
theorem le_iff {s t : Text} : Text.le s t = true ↔ ¬ t < s := by
  have hle : ∀ s t : Text, Text.le s t = (Text.compare s t != .gt) := fun _ _ => rfl
  induction s generalizing t with
  | nil => cases t <;> exact iff_of_true rfl (List.not_lt_nil _)
  | cons a s ih =>
    cases t with
    | nil => exact iff_of_false Bool.false_ne_true (not_not_intro (List.nil_lt_cons a s))
    | cons b t =>
      have hlt : ∀ x y : Char, x < y ↔ x.toNat < y.toNat := fun _ _ => Iff.rfl
      have hrest : Text.le s t = true ↔ ¬ t < s := ih
      rw [List.cons_lt_cons_iff, not_or, not_and, ← hrest, hle, hle, Text.compare, hlt]
      rcases Nat.lt_trichotomy a.toNat b.toNat with h | h | h
      · have hne : b ≠ a := by
          rintro rfl
          exact Nat.lt_irrefl _ h
        simp [h, Nat.lt_asymm h, hne]
      · obtain rfl : a = b := Char.toNat_inj.1 h
        simp
      · simp [h, Nat.lt_asymm h]

theorem le_trans {s t u : Text} (hst : Text.le s t = true) (htu : Text.le t u = true) : Text.le s u = true := by
  rw [le_iff, List.not_lt] at *
  exact List.le_trans hst htu

theorem le_total (s t : Text) : (Text.le s t || Text.le t s) = true := by
  rw [Bool.or_eq_true, le_iff, le_iff, List.not_lt, List.not_lt]
  exact List.le_total s t

/-- What is sorted by names that differ is in strict order of the names. -/
theorem pairwise_mergeSort_of_nodup {α : Type} (name : α → Text) {xs : List α} (h : (xs.map name).Nodup) :
    (xs.mergeSort fun x y => Text.le (name x) (name y)).Pairwise fun x y => name x < name y := by
  have hsorted : (xs.mergeSort fun x y => Text.le (name x) (name y)).Pairwise fun x y => Text.le (name x) (name y) := by
    refine List.pairwise_mergeSort (fun x y z hxy hyz => ?_) (fun x y => ?_) xs
    · exact le_trans hxy hyz
    · exact le_total (name x) (name y)
  have hnames : (xs.mergeSort fun x y => Text.le (name x) (name y)).Pairwise fun x y => name x ≠ name y :=
    List.pairwise_map.1 (((List.mergeSort_perm xs _).map name).nodup_iff.2 h)
  refine (hsorted.and hnames).imp fun {x y} hxy => ?_
  by_contra hlt
  exact hxy.2 (List.le_antisymm (List.not_lt.1 (le_iff.1 hxy.1)) (List.not_lt.1 hlt))

end MdxSafe.Text
