-- SUMMARY: Splitting a text into lines and joining lines into a text.
import Mathlib.Data.List.Basic
import MdxSafe.Text.Basic
import MdxSafe.Text.Blank

/-!
# Lines of a text

Splitting at line ends and joining with line ends are inverse to each other on lines that hold no line
end. Both are the list operations of the same names.
-/

namespace MdxSafe.Text

theorem splitOn_eq_list_splitOn (sep : Char) (t : Text) : splitOn sep t = List.splitOn sep t := by
  induction t with
  | nil => rfl
  | cons c t ih =>
    rw [splitOn, ih, List.splitOn_cons_eq_if_modifyHead]
    by_cases h : c = sep
    · simp [h]
    · have hne : List.splitOn sep t ≠ [] := List.splitOn_ne_nil sep t
      cases hs : List.splitOn sep t with
      | nil => exact absurd hs hne
      | cons p ps => simp [h]

theorem splitOn_ne_nil (sep : Char) (t : Text) : splitOn sep t ≠ [] := by
  rw [splitOn_eq_list_splitOn]
  exact List.splitOn_ne_nil sep t

/-- The pieces joined again are the text. -/
theorem join_splitOn (sep : Char) (t : Text) : join [sep] (splitOn sep t) = t := by
  rw [splitOn_eq_list_splitOn]
  exact List.intercalate_splitOn sep

/-- Pieces without the separator are found again. -/
theorem splitOn_join {sep : Char} {ts : List Text} (h : ∀ t ∈ ts, sep ∉ t) (hne : ts ≠ []) :
    splitOn sep (join [sep] ts) = ts := by
  rw [splitOn_eq_list_splitOn]
  exact List.splitOn_intercalate sep h hne

theorem splitOn_of_notMem {sep : Char} {t : Text} (h : sep ∉ t) : splitOn sep t = [t] := by
  rw [splitOn_eq_list_splitOn]
  exact List.splitOn_eq_singleton h

/-- A text that holds no separator goes to the first piece of what follows it. -/
theorem splitOn_append_of_notMem {sep : Char} {t : Text} (h : sep ∉ t) (u : Text) :
    splitOn sep (t ++ u) = (splitOn sep u).modifyHead (t ++ ·) := by
  induction t with
  | nil =>
    have hid : (fun w : Text => [] ++ w) = id := funext List.nil_append
    rw [List.nil_append, hid, List.modifyHead_id, id_eq]
  | cons c t ih =>
    obtain ⟨hc, ht⟩ := not_or.1 (mt List.mem_cons.2 h)
    rw [List.cons_append, splitOn, if_neg (Ne.symm hc), ih ht]
    cases hs : splitOn sep u with
    | nil => exact absurd hs (splitOn_ne_nil sep u)
    | cons p ps => rfl

/-- The pieces on both sides of a separator are found one after the other. -/
theorem splitOn_append_sep (sep : Char) (t u : Text) :
    splitOn sep (t ++ sep :: u) = splitOn sep t ++ splitOn sep u := by
  induction t with
  | nil => simp [splitOn]
  | cons c t ih =>
    rw [List.cons_append, splitOn, splitOn, ih]
    by_cases hc : c = sep
    · rw [if_pos hc, if_pos hc]
      rfl
    · rw [if_neg hc, if_neg hc]
      cases hs : splitOn sep t with
      | nil => exact absurd hs (splitOn_ne_nil sep t)
      | cons p ps => rfl

theorem splitOn_append_cons {sep : Char} {t : Text} (h : sep ∉ t) (u : Text) :
    splitOn sep (t ++ sep :: u) = t :: splitOn sep u := by
  rw [splitOn_append_sep, splitOn_of_notMem h, List.singleton_append]

theorem notMem_of_mem_splitOn {sep : Char} {t p : Text} (h : p ∈ splitOn sep t) : sep ∉ p := by
  induction t generalizing p with
  | nil =>
    simp only [splitOn, List.mem_singleton] at h
    simp [h]
  | cons c t ih =>
    rw [splitOn] at h
    split at h
    · rcases List.mem_cons.1 h with rfl | h
      · simp
      · exact ih h
    · next hc =>
      cases hs : splitOn sep t with
      | nil => exact absurd hs (splitOn_ne_nil sep t)
      | cons q qs =>
        rw [hs] at h ih
        rcases List.mem_cons.1 h with rfl | h
        · have := ih List.mem_cons_self
          simp only [List.mem_cons, not_or]
          exact ⟨fun e => hc e.symm, this⟩
        · exact ih (List.mem_cons_of_mem _ h)

/-- What is in a piece of a text is in the text. -/
theorem mem_of_mem_splitOn {sep c : Char} {t p : Text} (h : p ∈ splitOn sep t) (hc : c ∈ p) : c ∈ t := by
  induction t generalizing p with
  | nil =>
    simp only [splitOn, List.mem_singleton] at h
    rw [h] at hc
    exact hc
  | cons d t ih =>
    rw [splitOn] at h
    split at h
    · rcases List.mem_cons.1 h with rfl | h
      · exact absurd hc List.not_mem_nil
      · exact List.mem_cons_of_mem d (ih h hc)
    · cases hs : splitOn sep t with
      | nil => exact absurd hs (splitOn_ne_nil sep t)
      | cons q qs =>
        rw [hs] at h ih
        rcases List.mem_cons.1 h with rfl | h
        · exact (List.mem_cons.1 hc).elim (fun heq => heq ▸ List.mem_cons_self) fun hq =>
            List.mem_cons_of_mem d (ih List.mem_cons_self hq)
        · exact List.mem_cons_of_mem d (ih (List.mem_cons_of_mem q h) hc)

@[simp] theorem join_nil (sep : Text) : join sep [] = [] := rfl

@[simp] theorem join_singleton (sep t : Text) : join sep [t] = t := by
  simp [join]

theorem join_cons_cons (sep t u : Text) (ts : List Text) :
    join sep (t :: u :: ts) = t ++ sep ++ join sep (u :: ts) := by
  simp [join, List.append_assoc]

theorem join_cons_of_ne_nil (sep t : Text) {ts : List Text} (h : ts ≠ []) :
    join sep (t :: ts) = t ++ sep ++ join sep ts := by
  cases ts with
  | nil => exact absurd rfl h
  | cons u us => exact join_cons_cons sep t u us

/-- Joining two rows of pieces one after the other. -/
theorem join_append (sep : Text) {ts us : List Text} (ht : ts ≠ []) (hu : us ≠ []) :
    join sep (ts ++ us) = join sep ts ++ sep ++ join sep us := by
  induction ts with
  | nil => exact absurd rfl ht
  | cons t ts ih =>
    cases ts with
    | nil => simp [join_cons_of_ne_nil sep t hu]
    | cons v ts =>
      rw [List.cons_append, join_cons_of_ne_nil sep t (by simp), ih (by simp),
        join_cons_cons]
      simp [List.append_assoc]

/-- The pieces of joined texts are those of each text in turn. -/
theorem splitOn_join_eq_flatMap (sep : Char) {ts : List Text} (h : ts ≠ []) :
    splitOn sep (join [sep] ts) = ts.flatMap (splitOn sep) := by
  induction ts with
  | nil => exact absurd rfl h
  | cons t ts ih =>
    cases ts with
    | nil => simp
    | cons u us =>
      rw [join_cons_cons, List.append_assoc, List.singleton_append, splitOn_append_sep, ih (List.cons_ne_nil u us)]
      rfl

theorem mem_of_mem_join {sep c : Char} {ts : List Text} (h : c ∈ join [sep] ts) : c = sep ∨ ∃ t ∈ ts, c ∈ t := by
  induction ts with
  | nil => cases h
  | cons t ts ih =>
    cases ts with
    | nil =>
      rw [join_singleton] at h
      exact .inr ⟨t, List.mem_cons_self, h⟩
    | cons u ts =>
      rw [join_cons_cons, List.append_assoc, List.singleton_append, List.mem_append, List.mem_cons] at h
      rcases h with h | rfl | h
      · exact .inr ⟨t, List.mem_cons_self, h⟩
      · exact .inl rfl
      · exact (ih h).imp_right fun ⟨u, hu, hc⟩ => ⟨u, List.mem_cons_of_mem t hu, hc⟩

theorem join_ne_nil_of_ne_nil {sep t : Text} (h : t ≠ []) (ts : List Text) : join sep (t :: ts) ≠ [] := by
  cases ts with
  | nil => simpa using h
  | cons u us => simp [join_cons_cons, h]

-- ---------------------------------------------------------------------------
-- Lines with their line ends
-- ---------------------------------------------------------------------------

/-- Lines with their line ends are the lines joined, and one more line end. -/
theorem flatMap_lines {ps : List Text} (hne : ps ≠ []) :
    ps.flatMap (· ++ ['\n']) = join ['\n'] ps ++ ['\n'] := by
  induction ps with
  | nil => exact absurd rfl hne
  | cons p ps ih =>
    cases ps with
    | nil => simp
    | cons q qs =>
      rw [List.flatMap_cons, ih (by simp), join_cons_cons]
      simp [List.append_assoc]

/-- The lines of a text with their line ends. -/
theorem flatMap_splitOn (t : Text) : (splitOn '\n' t).flatMap (· ++ ['\n']) = t ++ ['\n'] := by
  rw [flatMap_lines (splitOn_ne_nil '\n' t), join_splitOn]

/-- A text that ends with a line end, or holds nothing, as its lines. -/
theorem exists_lines {t : Text} (h : t = [] ∨ t.getLast? = some '\n') :
    ∃ ps : List Text, t = ps.flatMap (· ++ ['\n']) ∧ ∀ p ∈ ps, '\n' ∉ p := by
  rcases h with rfl | h
  · exact ⟨[], rfl, by simp⟩
  · obtain ⟨u, rfl⟩ := List.getLast?_eq_some_iff.1 h
    exact ⟨splitOn '\n' u, (flatMap_splitOn u).symm, fun p hp => notMem_of_mem_splitOn hp⟩

/-- Lines with their line ends and a last one without are split into these lines. -/
theorem splitOn_flatMap_append {ps : List Text} {u : Text} (h : ∀ p ∈ ps, '\n' ∉ p) (hu : '\n' ∉ u) :
    splitOn '\n' (ps.flatMap (· ++ ['\n']) ++ u) = ps ++ [u] := by
  have hjoin : ps.flatMap (· ++ ['\n']) ++ u = join ['\n'] (ps ++ [u]) := by
    induction ps with
    | nil => simp
    | cons p ps ih =>
      rw [List.flatMap_cons, List.cons_append, join_cons_of_ne_nil _ _ (by simp),
        ← ih fun q hq => h q (List.mem_cons_of_mem p hq)]
      simp [List.append_assoc]
  rw [hjoin]
  refine splitOn_join ?_ (by simp)
  intro p hp
  rcases List.mem_append.1 hp with hp | hp
  · exact h p hp
  · rw [List.mem_singleton] at hp
    exact hp ▸ hu

end MdxSafe.Text
