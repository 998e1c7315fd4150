-- SUMMARY: Where searches find something in a text, and what an insertion does to a text and to its lines.
import MdxSafe.Proofs.Text.Lines
import MdxSafe.Proofs.Text.Search
import MdxSafe.Text.Splice

/-!
# Splices

A search that gives a position cuts the text in two there, and tells what stands on both sides. An insertion between
the two (`Inserts`) keeps what stands on either side. If whole lines are inserted, the other lines stay (`InsertsLines`).
-/

namespace MdxSafe.Text

variable {pat t t' u before after new : Text} {i start stop : Nat}

-- ---------------------------------------------------------------------------
-- Positions
-- ---------------------------------------------------------------------------

theorem find?_eq_none_iff : find? pat t = none ↔ ¬ pat <:+: t := by
  rw [find?, Option.map_eq_none_iff, cut?_eq_none_iff]

theorem find?_eq_some (h : find? pat t = some i) (hpat : pat ≠ []) :
    ∃ before after, t = before ++ pat ++ after ∧ before.length = i ∧ ¬ pat <:+: before := by
  obtain ⟨⟨before, after⟩, hcut, rfl⟩ := Option.map_eq_some_iff.1 h
  obtain ⟨rfl, hfirst⟩ := cut?_eq_some hcut hpat
  exact ⟨before, after, rfl, rfl, hfirst⟩

/-- A search gives the first position at which the text goes on with `pat`. -/
theorem find?_eq_some_iff (hpat : pat ≠ []) :
    find? pat t = some i ↔ pat <+: t.drop i ∧ ∀ j, pat <+: t.drop j → i ≤ j := by
  induction t generalizing i with
  | nil => simp [find?, cut?, hpat]
  | cons c t ih =>
    rw [find?, cut?]
    cases hafter : after? pat (c :: t) with
    | some rest =>
      have hstart : pat <+: c :: t := ⟨rest, (after?_eq_some_iff.1 hafter).symm⟩
      constructor
      · intro h
        obtain rfl : 0 = i := by simpa using h
        exact ⟨hstart, fun j _ => Nat.zero_le j⟩
      · rintro ⟨-, hfirst⟩
        simpa using (Nat.le_zero.1 (hfirst 0 hstart)).symm
    | none =>
      have hnone := after?_eq_none_iff.1 hafter
      have hmap : ((cut? pat t).map fun r => (c :: r.1, r.2)).map (fun r => r.1.length)
          = (find? pat t).map (· + 1) := by
        cases hcut : cut? pat t <;> simp [find?, hcut]
      dsimp only
      rw [hmap, Option.map_eq_some_iff]
      constructor
      · rintro ⟨k, hk, rfl⟩
        obtain ⟨hstands, hfirst⟩ := ih.1 hk
        refine ⟨hstands, fun j hj => ?_⟩
        cases j with
        | zero => exact absurd hj hnone
        | succ j => exact Nat.succ_le_succ (hfirst j hj)
      · rintro ⟨hstands, hfirst⟩
        cases i with
        | zero => exact absurd hstands hnone
        | succ i => exact ⟨i, ih.2 ⟨hstands, fun j hj => Nat.le_of_succ_le_succ (hfirst (j + 1) hj)⟩, rfl⟩

/-- What does not occur before a character that it does not hold is found behind that character. -/
theorem find?_append_cons {c : Char} {x : Text} (hc : c ∉ pat) (hx : ¬ pat <:+: x) (y : Text) :
    find? pat (x ++ c :: y) = (find? pat y).map (x.length + 1 + ·) := by
  have hcons : ∀ {d : Char} {u : Text}, ¬ pat <+: d :: u → find? pat (d :: u) = (find? pat u).map (1 + ·) := by
    intro d u h
    rw [find?, cut?, after?_eq_none_iff.2 h]
    cases hcut : cut? pat u <;> simp [find?, hcut, Nat.add_comm]
  induction x with
  | nil =>
    refine hcons fun h => hx ?_
    exact (prefix_of_prefix_append_cons (x := []) hc h).isInfix
  | cons d x ih =>
    have hfirst : ¬ pat <+: d :: (x ++ c :: y) := fun h =>
      hx (prefix_of_prefix_append_cons (x := d :: x) hc h).isInfix
    rw [List.cons_append, hcons hfirst, ih fun h => hx (h.trans (List.suffix_cons d x).isInfix), Option.map_map]
    congr 1
    funext k
    simp only [Function.comp_apply, List.length_cons]
    omega

theorem findFrom?_eq_none_iff : findFrom? pat start t = none ↔ ¬ pat <:+: t.drop start := by
  rw [findFrom?, Option.map_eq_none_iff, find?_eq_none_iff]

/-- What is found from a position on stands there or behind. -/
theorem findFrom?_eq_some (h : findFrom? pat start t = some i) (hpat : pat ≠ []) :
    ∃ between after, t.drop start = between ++ pat ++ after ∧ i = start + between.length ∧ ¬ pat <:+: between := by
  obtain ⟨j, hj, rfl⟩ := Option.map_eq_some_iff.1 h
  obtain ⟨between, after, hdrop, rfl, hfirst⟩ := find?_eq_some hj hpat
  exact ⟨between, after, hdrop, rfl, hfirst⟩

theorem findLast?_eq_none_iff : findLast? pat stop t = none ↔ ¬ pat <:+: t.take stop := by
  rw [findLast?, Option.map_eq_none_iff, find?_eq_none_iff, List.reverse_infix]

/-- What is found last before a position ends there or before. -/
theorem findLast?_eq_some (h : findLast? pat stop t = some i) (hpat : pat ≠ []) :
    ∃ before between, t.take stop = before ++ pat ++ between ∧ before.length = i := by
  obtain ⟨j, hj, rfl⟩ := Option.map_eq_some_iff.1 h
  obtain ⟨between, before, hreverse, rfl, -⟩ := find?_eq_some hj (by simpa using hpat)
  have htake : t.take stop = before.reverse ++ pat ++ between.reverse := by
    rw [← List.reverse_inj, hreverse]
    simp
  refine ⟨before.reverse, between.reverse, htake, ?_⟩
  rw [htake]
  simp only [List.length_append, List.length_reverse]
  omega

/-- `pat` stands in the text at a position. -/
def StandsAt (pat t : Text) (i : Nat) : Prop := pat <+: t.drop i

/-- The first position from `start` on at which `pat` stands in the text. -/
structure IsFirst (pat : Text) (start : Nat) (t : Text) (i : Nat) : Prop where
  ge : start ≤ i
  standsAt : StandsAt pat t i
  le : ∀ j, start ≤ j → StandsAt pat t j → i ≤ j

theorem findFrom?_eq_some_iff (hpat : pat ≠ []) : findFrom? pat start t = some i ↔ IsFirst pat start t i := by
  rw [findFrom?, Option.map_eq_some_iff]
  simp only [find?_eq_some_iff hpat, List.drop_drop]
  constructor
  · rintro ⟨k, ⟨hstands, hfirst⟩, rfl⟩
    refine ⟨Nat.le_add_right start k, hstands, fun j hj hj' => ?_⟩
    obtain ⟨l, rfl⟩ := Nat.exists_eq_add_of_le hj
    exact Nat.add_le_add_left (hfirst l hj') start
  · rintro ⟨hge, hstands, hfirst⟩
    obtain ⟨k, rfl⟩ := Nat.exists_eq_add_of_le hge
    exact ⟨k, ⟨hstands, fun l hl => Nat.le_of_add_le_add_left (hfirst (start + l) (Nat.le_add_right start l) hl)⟩, rfl⟩

theorem find?_eq_some_iff_isFirst (hpat : pat ≠ []) : find? pat t = some i ↔ IsFirst pat 0 t i := by
  rw [← findFrom?_eq_some_iff hpat, findFrom?, List.drop_zero]
  simp

theorem StandsAt.length_le (h : StandsAt pat t i) (hpat : pat ≠ []) : i + pat.length ≤ t.length := by
  have hle := List.IsPrefix.length_le h
  have hpos := List.length_pos_iff.2 hpat
  rw [List.length_drop] at hle
  omega

theorem insertAt_length (before after new : Text) :
    insertAt (before ++ after) before.length new = before ++ new ++ after := by
  simp [insertAt]

-- ---------------------------------------------------------------------------
-- Positions behind an insertion
-- ---------------------------------------------------------------------------

/-- What stands behind an insertion stands as much further on as was inserted. -/
theorem drop_insertAt {j : Nat} (hi : i ≤ t.length) (hij : i ≤ j) (new : Text) :
    (t.insertAt i new).drop (j + new.length) = t.drop j := by
  obtain ⟨k, rfl⟩ := Nat.exists_eq_add_of_le hij
  have htake : (t.take i ++ new).length = i + new.length := by simp [Nat.min_eq_left hi]
  have hsum : i + k + new.length = (t.take i ++ new).length + k := by omega
  rw [insertAt, hsum, ← List.drop_drop, List.drop_left, List.drop_drop]

theorem take_insertAt {j : Nat} (hi : i ≤ t.length) (hij : i ≤ j) (new : Text) :
    (t.insertAt i new).take (j + new.length) = t.take i ++ new ++ (t.take j).drop i := by
  obtain ⟨k, rfl⟩ := Nat.exists_eq_add_of_le hij
  have hsum : i + k + new.length = (t.take i ++ new).length + k := by
    simp only [List.length_append, List.length_take]
    omega
  rw [insertAt, hsum, List.take_length_add_append, List.drop_take, Nat.add_sub_cancel_left]

/-- What stands between two positions behind an insertion stood between the same two as much before. -/
theorem take_drop_insertAt {j k : Nat} (hi : i ≤ t.length) (hij : i ≤ j) (new : Text) :
    ((t.insertAt i new).take (k + new.length)).drop (j + new.length) = (t.take k).drop j := by
  rw [List.drop_take, drop_insertAt hi hij, Nat.add_sub_add_right, List.drop_take]

theorem length_insertAt (hi : i ≤ t.length) (new : Text) : (t.insertAt i new).length = t.length + new.length := by
  simp only [insertAt, List.length_append, List.length_take, List.length_drop]
  omega

theorem exists_le_of_add_le {j k n : Nat} (h : j + n ≤ k) : ∃ l, j ≤ l ∧ k = l + n := ⟨k - n, by omega, by omega⟩

theorem standsAt_insertAt_iff {j : Nat} (hi : i ≤ t.length) (hij : i ≤ j) :
    StandsAt pat (t.insertAt i new) (j + new.length) ↔ StandsAt pat t j := by
  rw [StandsAt, drop_insertAt hi hij, StandsAt]

/-- A search that starts behind an insertion finds what it found before. -/
theorem IsFirst.insertAt {j : Nat} (h : IsFirst pat start t j) (hi : i ≤ t.length) (his : i ≤ start) (new : Text) :
    IsFirst pat (start + new.length) (t.insertAt i new) (j + new.length) := by
  have hmove : ∀ {k}, start ≤ k → (StandsAt pat (t.insertAt i new) (k + new.length) ↔ StandsAt pat t k) := fun hk =>
    standsAt_insertAt_iff hi (Nat.le_trans his hk)
  refine ⟨Nat.add_le_add_right h.ge _, (hmove h.ge).2 h.standsAt, fun k hk hstands => ?_⟩
  obtain ⟨l, hl, rfl⟩ := exists_le_of_add_le hk
  exact Nat.add_le_add_right (h.le l hl ((hmove hl).1 hstands)) _

/-- What stands first at a position or behind it does not occur before that position. -/
theorem IsFirst.not_infix {j : Nat} {x y : Text} (h : IsFirst pat 0 (x ++ y) j) (hpat : pat ≠ []) (hx : x.length ≤ j) :
    ¬ pat <:+: x := by
  rintro ⟨front, back, rfl⟩
  have hstands : StandsAt pat (front ++ pat ++ back ++ y) front.length := by
    rw [StandsAt, List.append_assoc, List.append_assoc, List.drop_left]
    exact List.prefix_append _ _
  have hle := h.le _ (Nat.zero_le _) hstands
  have hpos := List.length_pos_iff.2 hpat
  simp only [List.length_append] at hx
  omega

/-- A search is not caught by a line that is inserted in front of what it finds, unless that line holds it. -/
theorem IsFirst.insertLine {j : Nat} {x y body : Text} (h : IsFirst pat 0 (x ++ '\n' :: y) j) (hpat : pat ≠ [])
    (hline : '\n' ∉ pat) (hx : x.length ≤ j) (hbody : ¬ pat <:+: body) :
    IsFirst pat 0 (x ++ '\n' :: body ++ '\n' :: y) (j + (body.length + 1)) := by
  have hnot := h.not_infix hpat hx
  rw [← find?_eq_some_iff_isFirst hpat, find?_append_cons hline hnot, Option.map_eq_some_iff] at h
  obtain ⟨k, hk, rfl⟩ := h
  rw [← find?_eq_some_iff_isFirst hpat, List.append_assoc, List.cons_append, find?_append_cons hline hnot,
    find?_append_cons hline hbody, hk]
  simp only [Option.map_some, Option.some.injEq]
  omega

/-- The end of the line that a position is in: the first line end from there on, or the end of the text. -/
def IsLineEnd (t : Text) (start stop : Nat) : Prop :=
  IsFirst ['\n'] start t stop ∨ stop = t.length ∧ ∀ j, start ≤ j → ¬ StandsAt ['\n'] t j

theorem IsLineEnd.getD_findFrom? (h : IsLineEnd t start stop) : (findFrom? ['\n'] start t).getD t.length = stop := by
  have hne : ['\n'] ≠ [] := List.cons_ne_nil _ _
  rcases h with h | ⟨rfl, hnone⟩
  · rw [(findFrom?_eq_some_iff hne).2 h, Option.getD_some]
  · cases hfind : findFrom? ['\n'] start t with
    | none => rfl
    | some j =>
      have hfirst := (findFrom?_eq_some_iff hne).1 hfind
      exact absurd hfirst.standsAt (hnone j hfirst.ge)

theorem IsLineEnd.start_le (h : IsLineEnd t start stop) (hstart : start ≤ t.length) : start ≤ stop := by
  rcases h with h | ⟨rfl, -⟩
  · exact h.ge
  · exact hstart

theorem IsLineEnd.insertAt (h : IsLineEnd t start stop) (hi : i ≤ t.length) (his : i ≤ start) (new : Text) :
    IsLineEnd (t.insertAt i new) (start + new.length) (stop + new.length) := by
  rcases h with h | ⟨rfl, hnone⟩
  · exact .inl (h.insertAt hi his new)
  · refine .inr ⟨(length_insertAt hi new).symm, fun j hj hstands => ?_⟩
    obtain ⟨k, hsk, rfl⟩ := exists_le_of_add_le hj
    exact hnone k hsk ((standsAt_insertAt_iff hi (Nat.le_trans his hsk)).1 hstands)

-- ---------------------------------------------------------------------------
-- Insertions
-- ---------------------------------------------------------------------------

/-- A text is another one with a snippet inserted somewhere: without the snippet the other one is left. -/
def Inserts (snippet t t' : Text) : Prop := ∃ before after, t = before ++ after ∧ t' = before ++ snippet ++ after

/-- Snippets are inserted into a text one after the other. -/
inductive InsertsAll : List Text → Text → Text → Prop where
  | nil (t : Text) : InsertsAll [] t t
  | cons {snippet t u t' : Text} {snippets : List Text} (h : Inserts snippet t u) (hrest : InsertsAll snippets u t') :
    InsertsAll (snippet :: snippets) t t'

-- ---------------------------------------------------------------------------
-- Lines
-- ---------------------------------------------------------------------------

/-- The lines of a text. -/
def lines (t : Text) : List Text := splitOn '\n' t

theorem lines_of_notMem (h : '\n' ∉ t) : lines t = [t] := splitOn_of_notMem h

theorem lines_append_cons (t u : Text) : lines (t ++ '\n' :: u) = lines t ++ lines u := splitOn_append_sep '\n' t u

theorem lines_ne_nil (t : Text) : lines t ≠ [] := splitOn_ne_nil '\n' t

theorem notMem_of_mem_lines {l : Text} (h : l ∈ lines t) : '\n' ∉ l := notMem_of_mem_splitOn h

theorem join_lines (t : Text) : join ['\n'] (lines t) = t := join_splitOn '\n' t

/-- Lines on both sides of a place between two of them are lines of the texts on both sides of a line end. -/
theorem exists_of_lines_eq_append {front back : List Text} (h : lines t = front ++ back) (hfront : front ≠ [])
    (hback : back ≠ []) : ∃ u v, t = u ++ '\n' :: v ∧ lines u = front ∧ lines v = back := by
  have hnone : ∀ {ls : List Text}, (∀ l ∈ ls, l ∈ lines t) → ∀ l ∈ ls, '\n' ∉ l := fun hls l hl =>
    notMem_of_mem_lines (hls l hl)
  refine ⟨join ['\n'] front, join ['\n'] back, ?_, splitOn_join (hnone ?_) hfront, splitOn_join (hnone ?_) hback⟩
  · rw [← join_lines t, h, join_append _ hfront hback, List.append_assoc, List.singleton_append]
  · intro l hl
    rw [h]
    exact List.mem_append_left back hl
  · intro l hl
    rw [h]
    exact List.mem_append_right front hl

theorem eq_of_lines_eq_singleton {l : Text} (h : lines t = [l]) : t = l := by
  rw [← join_lines t, h, join_singleton]

/-- A line stands between line ends, or at the start or end of the text. -/
theorem exists_of_mem_lines {l : Text} (h : l ∈ lines t) :
    ∃ u v, t = u ++ l ++ v ∧ (u = [] ∨ ∃ w, u = w ++ ['\n']) ∧ (v = [] ∨ ∃ w, v = '\n' :: w) := by
  obtain ⟨front, back, hlines⟩ := List.append_of_mem h
  have hlast : ∀ {u : Text}, lines u = front ++ [l] → ∃ w, u = w ++ l ∧ (w = [] ∨ ∃ x, w = x ++ ['\n']) := by
    intro u hu
    cases front with
    | nil => exact ⟨[], eq_of_lines_eq_singleton hu, .inl rfl⟩
    | cons first front =>
      obtain ⟨x, y, rfl, -, hy⟩ := exists_of_lines_eq_append hu (List.cons_ne_nil _ _) (List.cons_ne_nil _ _)
      rw [eq_of_lines_eq_singleton hy]
      exact ⟨x ++ ['\n'], by simp, .inr ⟨x, rfl⟩⟩
  cases back with
  | nil =>
    obtain ⟨w, rfl, hw⟩ := hlast hlines
    exact ⟨w, [], by simp, hw, .inl rfl⟩
  | cons next back =>
    rw [← List.singleton_append, ← List.append_assoc] at hlines
    obtain ⟨x, y, rfl, hx, -⟩ := exists_of_lines_eq_append hlines (by simp) (List.cons_ne_nil _ _)
    obtain ⟨w, rfl, hw⟩ := hlast hx
    exact ⟨w, '\n' :: y, rfl, hw, .inr ⟨y, rfl⟩⟩

/-- What stands between line ends, and holds none, is a line. -/
theorem mem_lines_of_between {u l v : Text} (hl : '\n' ∉ l) (hu : u = [] ∨ ∃ w, u = w ++ ['\n'])
    (hv : v = [] ∨ ∃ w, v = '\n' :: w) : l ∈ lines (u ++ l ++ v) := by
  have hend : l ∈ lines (l ++ v) := by
    rcases hv with rfl | ⟨w, rfl⟩
    · rw [List.append_nil, lines_of_notMem hl]
      exact List.mem_cons_self
    · rw [lines_append_cons, lines_of_notMem hl]
      exact List.mem_cons_self
  rcases hu with rfl | ⟨w, rfl⟩
  · exact hend
  · have hsplit : w ++ ['\n'] ++ l ++ v = w ++ '\n' :: (l ++ v) := by simp
    rw [hsplit, lines_append_cons]
    exact List.mem_append_right _ hend

/-- A text after a line end is its lines, each after a line end. -/
theorem cons_eq_flatMap_lines (t : Text) : '\n' :: t = (lines t).flatMap fun l => '\n' :: l := by
  have hjoin : ∀ ls : List Text, ls ≠ [] → '\n' :: join ['\n'] ls = ls.flatMap fun l => '\n' :: l := by
    intro ls
    induction ls with
    | nil => exact fun h => absurd rfl h
    | cons l ls ih =>
      intro _
      cases ls with
      | nil => simp
      | cons m ls =>
        rw [join_cons_cons, List.append_assoc, List.singleton_append, ih (List.cons_ne_nil m ls)]
        rfl
  rw [← hjoin (lines t) (lines_ne_nil t), join_lines]

/-- A text starts with its first line. -/
theorem exists_firstLine (t : Text) : ∃ l ls v, lines t = l :: ls ∧ t = l ++ v := by
  cases hlines : lines t with
  | nil => exact absurd hlines (lines_ne_nil t)
  | cons l ls =>
    have hcons := cons_eq_flatMap_lines t
    rw [hlines, List.flatMap_cons, List.cons_append, List.cons.injEq] at hcons
    exact ⟨l, ls, _, rfl, hcons.2⟩

/-- What a text starts with, and holds no line end, its first line starts with. -/
theorem exists_line_of_prefix (hpat : '\n' ∉ pat) (h : pat <+: t) : ∃ l ls, lines t = l :: ls ∧ pat <+: l := by
  obtain ⟨v, rfl⟩ := h
  have hlines := splitOn_append_of_notMem hpat v
  cases hv : splitOn '\n' v with
  | nil => exact absurd hv (splitOn_ne_nil '\n' v)
  | cons m ms =>
    rw [hv] at hlines
    exact ⟨pat ++ m, ms, hlines, m, rfl⟩

/-- What occurs before a line end is found before it. -/
theorem exists_of_first_append_cons {x y a b : Text} (h : x ++ pat ++ y = a ++ '\n' :: b) (hpat : '\n' ∉ pat)
    (hfirst : ¬ pat <:+: x) (ha : pat <:+: a) : ∃ z, a = x ++ pat ++ z ∧ y = z ++ '\n' :: b := by
  rcases append_cons_eq_append_iff.1 h.symm with ⟨z, hz, -⟩ | hz
  · rcases append_cons_eq_append_iff.1 hz.symm with ⟨z', rfl, -⟩ | ⟨z', -, rfl⟩
    · exact absurd (ha.trans (List.prefix_append a _).isInfix) hfirst
    · exact absurd (List.mem_append_right z' List.mem_cons_self) hpat
  · exact hz

/-- What holds no line end occurs in a text just if it occurs in a line. -/
theorem infix_iff_lines (hpat : '\n' ∉ pat) : pat <:+: t ↔ ∃ l ∈ lines t, pat <:+: l := by
  suffices hjoin : ∀ ls : List Text, ls ≠ [] → (pat <:+: join ['\n'] ls ↔ ∃ l ∈ ls, pat <:+: l) by
    have h := hjoin (lines t) (lines_ne_nil t)
    rwa [join_lines] at h
  intro ls
  induction ls with
  | nil => exact fun h => absurd rfl h
  | cons l ls ih =>
    intro _
    cases ls with
    | nil => simp
    | cons m ls =>
      rw [join_cons_cons, List.append_assoc, List.singleton_append, List.exists_mem_cons_iff,
        ← ih (List.cons_ne_nil m ls)]
      constructor
      · exact infix_of_infix_append_cons hpat
      · rintro (h | h)
        · exact h.trans ⟨[], _, rfl⟩
        · exact h.trans ⟨l ++ ['\n'], [], by simp⟩

/-- A text goes to the last line of what stands before it. -/
theorem exists_lastLine (t : Text) : ∃ l, '\n' ∉ l ∧ (t = l ∨ ∃ u, t = u ++ '\n' :: l) := by
  induction t with
  | nil => exact ⟨[], List.not_mem_nil, .inl rfl⟩
  | cons c t ih =>
    obtain ⟨l, hl, rfl | ⟨u, rfl⟩⟩ := ih
    · by_cases hc : c = '\n'
      · exact ⟨t, hl, .inr ⟨[], by rw [hc]; rfl⟩⟩
      · exact ⟨c :: t, by simp [hl, Ne.symm hc], .inl rfl⟩
    · exact ⟨l, hl, .inr ⟨c :: u, rfl⟩⟩

/-- Whole lines are inserted between two lines of a text, or at its start or end. -/
def InsertsLines (new : List Text) (t t' : Text) : Prop :=
  ∃ front back, lines t = front ++ back ∧ lines t' = front ++ new ++ back

theorem insertsLines_between (u v w : Text) : InsertsLines (lines w) (u ++ '\n' :: v) (u ++ '\n' :: w ++ '\n' :: v) :=
  ⟨lines u, lines v, lines_append_cons u v, by rw [lines_append_cons, lines_append_cons]⟩

theorem insertsLines_start (v w : Text) : InsertsLines (lines w) v (w ++ '\n' :: v) :=
  ⟨[], lines v, rfl, lines_append_cons w v⟩

theorem insertsLines_end (u w : Text) : InsertsLines (lines w) u (u ++ '\n' :: w) :=
  ⟨lines u, [], by simp, by rw [lines_append_cons, List.append_nil]⟩

theorem InsertsLines.sublist {new : List Text} (h : InsertsLines new t t') : (lines t).Sublist (lines t') := by
  obtain ⟨front, back, ht, ht'⟩ := h
  rw [ht, ht', List.append_assoc]
  exact (List.Sublist.refl front).append (List.sublist_append_right new back)

theorem InsertsLines.countP_eq {new : List Text} (h : InsertsLines new t t') (p : Text → Bool) :
    (lines t').countP p = (lines t).countP p + new.countP p := by
  obtain ⟨front, back, ht, ht'⟩ := h
  rw [ht, ht', List.countP_append, List.countP_append, List.countP_append]
  omega

theorem InsertsLines.mem {new : List Text} (h : InsertsLines new t t') {l : Text} (hl : l ∈ new) : l ∈ lines t' := by
  obtain ⟨front, back, -, ht'⟩ := h
  rw [ht']
  exact List.mem_append_left back (List.mem_append_right front hl)

end MdxSafe.Text
