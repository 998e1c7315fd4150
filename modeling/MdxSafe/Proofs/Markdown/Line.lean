-- SUMMARY: What a line shows to a container, and how quotes and list items move the left edge.
import Mathlib.Data.List.TakeWhile
import MdxSafe.Markdown.Block

/-!
# Lines seen from a left edge

A container sees a text on each of its lines: what stands there right of its left edge. `Line.Shows l e s`
says so for a line, an edge and a text, whatever markers and spaces stand left of the edge. A line on which
the container sees nothing is a line without any characters.

Reading a quote or a list item moves the edge. What is seen afterwards is what was seen before without the
marker (`shows_unquoted`, `shows_item`) or without the spaces under the marker (`shows_of_spaces`).
-/

namespace MdxSafe

/-- Whether something stands at the very start of a text. -/
def flush (s : Text) : Bool := s.head?.any fun c => !isIndent c

/-- Whether nothing but indentation stands on a line. -/
def blank (s : Text) : Bool := s.all isIndent

/-- What follows the indentation of a line. -/
def afterIndent (s : Text) : Text := s.dropWhile isIndent

/-- As many spaces. -/
def spaces (n : Nat) : Text := List.replicate n ' '

-- ---------------------------------------------------------------------------
-- Indentation of a text
-- ---------------------------------------------------------------------------

theorem flush_cons {c : Char} {s : Text} : flush (c :: s) = !isIndent c := rfl

theorem ne_nil_of_flush {s : Text} (h : flush s) : s ≠ [] := by
  rintro rfl
  cases h

theorem flush_append {s : Text} (h : flush s) (t : Text) : flush (s ++ t) := by
  cases s with
  | nil => cases h
  | cons c s => exact h

theorem takeWhile_isIndent_of_flush {s : Text} (h : flush s) : s.takeWhile isIndent = [] := by
  cases s with
  | nil => rfl
  | cons c s =>
    rw [flush_cons, Bool.not_eq_true'] at h
    simp [h]

theorem afterIndent_of_flush {s : Text} (h : flush s) : afterIndent s = s := by
  cases s with
  | nil => rfl
  | cons c s =>
    rw [flush_cons, Bool.not_eq_true'] at h
    simp [afterIndent, h]

theorem blank_eq_false_of_flush {s : Text} (h : flush s) : blank s = false := by
  cases s with
  | nil => cases h
  | cons c s =>
    rw [flush_cons, Bool.not_eq_true'] at h
    simp [blank, h]

theorem takeWhile_append_afterIndent (s : Text) : s.takeWhile isIndent ++ afterIndent s = s :=
  List.takeWhile_append_dropWhile

theorem drop_takeWhile_isIndent (s : Text) : s.drop (s.takeWhile isIndent).length = afterIndent s := by
  induction s with
  | nil => rfl
  | cons c s ih =>
    by_cases h : isIndent c
    · simpa [afterIndent, h] using ih
    · simp [afterIndent, h]

theorem blank_iff_afterIndent {s : Text} : blank s ↔ afterIndent s = [] := by
  simp [blank, afterIndent, List.dropWhile_eq_nil_iff]

theorem spaces_all_isIndent (n : Nat) : (spaces n).all isIndent := by
  simp [spaces, isIndent]

theorem takeWhile_spaces_append (n : Nat) (s : Text) :
    (spaces n ++ s).takeWhile isIndent = spaces n ++ s.takeWhile isIndent := by
  rw [List.takeWhile_append_of_pos]
  intro c hc
  exact List.all_eq_true.1 (spaces_all_isIndent n) c hc

theorem afterIndent_spaces_append (n : Nat) (s : Text) : afterIndent (spaces n ++ s) = afterIndent s := by
  rw [afterIndent, List.dropWhile_append_of_pos]
  · rfl
  · intro c hc
    exact List.all_eq_true.1 (spaces_all_isIndent n) c hc

-- ---------------------------------------------------------------------------
-- Columns
-- ---------------------------------------------------------------------------

theorem le_columnAfter (b c : Nat) (t : Text) : c ≤ columnAfter b c t := by
  induction t generalizing c with
  | nil => exact Nat.le_refl c
  | cons d t ih =>
    rw [columnAfter]
    refine Nat.le_trans ?_ (ih _)
    split <;> omega

theorem columnAfter_append (b c : Nat) (t u : Text) :
    columnAfter b c (t ++ u) = columnAfter b (columnAfter b c t) u := by
  induction t generalizing c with
  | nil => rfl
  | cons d t ih => rw [List.cons_append, columnAfter, columnAfter, ih]

theorem columnAfter_spaces (b c n : Nat) : columnAfter b c (spaces n) = c + n := by
  induction n generalizing c with
  | zero => rfl
  | succ n ih =>
    have h : spaces (n + 1) = ' ' :: spaces n := rfl
    rw [h, columnAfter, if_neg (by decide), ih]
    omega

/-- Counting columns from a later one is counting them with a larger base. -/
theorem columnAfter_add (b c d : Nat) (t : Text) : columnAfter b (c + d) t = columnAfter (b + d) c t + d := by
  induction t generalizing c with
  | nil => rfl
  | cons a t ih =>
    rw [columnAfter, columnAfter, ← ih]
    congr 1
    split
    · have : (c + d + b) % 4 = (c + (b + d)) % 4 := by congr 1; omega
      omega
    · omega

/-- Dropping columns passes over characters without tabs one by one. -/
theorem dropColumns_append (b : Nat) (c h : Nat) {pre : Text} (s : Text) (htab : '\t' ∉ pre)
    (hh : pre.length ≤ h) : Line.dropColumns b ((c + pre.length : Nat) : Int) c h (pre ++ s) = s := by
  induction pre generalizing c h with
  | nil =>
    cases s with
    | nil => simp [Line.dropColumns]
    | cons a s => simp [Line.dropColumns]
  | cons a pre ih =>
    have hlen : c + (a :: pre).length = (c + 1) + pre.length := by
      rw [List.length_cons]
      omega
    rw [List.cons_append, Line.dropColumns, if_pos (by rw [List.length_cons]; omega), hlen]
    have hpre : '\t' ∉ pre := fun m => htab (List.mem_cons_of_mem _ m)
    have hne : a ≠ '\t' := fun e => htab (e ▸ List.mem_cons_self)
    have hle : pre.length ≤ h - 1 := by
      rw [List.length_cons] at hh
      omega
    have hpos : 0 < h := by
      rw [List.length_cons] at hh
      omega
    rw [if_neg hne, if_pos hpos, ih _ _ hpre hle, ite_self]

namespace Line

-- ---------------------------------------------------------------------------
-- What a line shows
-- ---------------------------------------------------------------------------

/-- The line shows a text right of an edge. The columns of its indentation may be counted from any tab
stop `b`. -/
def Shows (l : Line) (e : Nat) (s : Text) : Prop :=
  l.ended = true ∧
    if s = [] then l.raw = [] ∧ l.shift = 0
    else ∃ (pre : Text) (b : Nat), l.raw = pre ++ s ∧ pre.length = e ∧ '\t' ∉ pre
      ∧ l.shift = e + (s.takeWhile isIndent).length ∧ l.indent = columnAfter b e (s.takeWhile isIndent)

namespace Shows

variable {l : Line} {e : Nat} {s : Text}

theorem content_eq (h : l.Shows e s) : l.content = afterIndent s := by
  obtain ⟨-, h⟩ := h
  split at h
  · next hs => simp [content, h.1, hs, afterIndent]
  · obtain ⟨pre, b, hraw, hlen, -, hshift, -⟩ := h
    rw [content, hraw, hshift, ← hlen, List.drop_append, ← drop_takeWhile_isIndent]
    simp

theorem isEmpty_eq (h : l.Shows e s) : l.isEmpty = blank s := by
  obtain ⟨-, h⟩ := h
  split at h
  · next hs => simp [isEmpty, h.1, hs, blank]
  · obtain ⟨pre, b, hraw, hlen, -, hshift, -⟩ := h
    have hle : (s.takeWhile isIndent).length + (afterIndent s).length = s.length := by
      rw [← List.length_append, takeWhile_append_afterIndent]
    rw [isEmpty, hraw, hshift, ← hlen, List.length_append]
    rw [Bool.eq_iff_iff, decide_eq_true_iff, blank_iff_afterIndent, ← List.length_eq_zero_iff]
    omega

theorem isCutOff_eq (h : l.Shows e s) : l.isCutOff = false := by
  simp [isCutOff, h.1]

theorem ending_eq (h : l.Shows e s) : l.ending = ['\n'] := by
  simp [ending, h.1]

theorem le_indent (h : l.Shows e s) (hs : s ≠ []) : (e : Int) ≤ l.indent := by
  obtain ⟨-, h⟩ := h
  rw [if_neg hs] at h
  obtain ⟨pre, b, -, -, -, -, hindent⟩ := h
  rw [hindent]
  exact_mod_cast le_columnAfter b e _

theorem indent_eq (h : l.Shows e s) (hs : flush s) : l.indent = e := by
  obtain ⟨-, h⟩ := h
  rw [if_neg (ne_nil_of_flush hs)] at h
  obtain ⟨pre, b, -, -, -, -, hindent⟩ := h
  rw [hindent, takeWhile_isIndent_of_flush hs]
  rfl

theorem unindent_eq (h : l.Shows e s) : l.unindent e = s := by
  obtain ⟨-, h⟩ := h
  split at h
  · next hs => simp [unindent, h.1, h.2, hs, dropColumns]
  · obtain ⟨pre, b, hraw, hlen, htab, hshift, -⟩ := h
    have := dropColumns_append l.base 0 l.shift s htab (by omega)
    rwa [Nat.zero_add, hlen, ← hraw] at this

/-- Spaces under a marker move the edge. -/
theorem of_spaces {w : Nat} (hs : s ≠ []) (h : l.Shows e (spaces w ++ s)) : l.Shows (e + w) s := by
  obtain ⟨hended, h⟩ := h
  rw [if_neg (by simp [hs])] at h
  obtain ⟨pre, b, hraw, hlen, htab, hshift, hindent⟩ := h
  rw [takeWhile_spaces_append] at hshift hindent
  refine ⟨hended, ?_⟩
  rw [if_neg hs]
  refine ⟨pre ++ spaces w, b, ?_, ?_, ?_, ?_, ?_⟩
  · rw [hraw, List.append_assoc]
  · simp [spaces, hlen]
  · simp [spaces, htab]
  · rw [hshift, List.length_append]
    simp only [spaces, List.length_replicate]
    omega
  · rw [hindent, columnAfter_append, columnAfter_spaces]

end Shows

-- ---------------------------------------------------------------------------
-- Moving the edge
-- ---------------------------------------------------------------------------

/-- A line without the marker of a list item. -/
def afterMarker (l : Line) (width gap : Nat) : Line :=
  { l with shift := l.shift + width + gap, indent := columnAfter l.base (l.indent.toNat + width) (spaces gap) }

theorem shows_afterMarker {l : Line} {e gap : Nat} {marker s : Text} (hm : flush (marker ++ spaces gap ++ s))
    (htab : '\t' ∉ marker) (hs : flush s) (h : l.Shows e (marker ++ spaces gap ++ s)) :
    (l.afterMarker marker.length gap).Shows (e + (marker.length + gap)) s := by
  have hindent := h.indent_eq hm
  obtain ⟨hended, h⟩ := h
  rw [if_neg (ne_nil_of_flush hm)] at h
  obtain ⟨pre, b, hraw, hlen, hpre, hshift, -⟩ := h
  refine ⟨hended, ?_⟩
  rw [if_neg (ne_nil_of_flush hs)]
  refine ⟨pre ++ marker ++ spaces gap, b, ?_, ?_, ?_, ?_, ?_⟩
  · simp [afterMarker, hraw]
  · simp [spaces, hlen]
  · simp [spaces, hpre, htab]
  · rw [takeWhile_isIndent_of_flush hm] at hshift
    simp only [afterMarker, hshift, takeWhile_isIndent_of_flush hs, List.length_nil]
    omega
  · rw [takeWhile_isIndent_of_flush hs]
    simp only [afterMarker, hindent, columnAfter_spaces, columnAfter, Int.toNat_natCast, Nat.add_assoc]

/-- A line of a quote that shows a text. -/
def quoted (s : Text) : Text := if s = [] then ['>'] else '>' :: ' ' :: s

theorem quoted_eq_cons (s : Text) : ∃ t, quoted s = '>' :: t := by
  unfold quoted
  split
  · exact ⟨[], rfl⟩
  · exact ⟨' ' :: s, rfl⟩

theorem flush_quoted (s : Text) : flush (quoted s) := by
  obtain ⟨t, ht⟩ := quoted_eq_cons s
  rw [ht]
  rfl

theorem shows_unquoted {l : Line} {e : Nat} {s : Text} (h : l.Shows e (quoted s)) :
    (Block.unquoted l).Shows 0 s := by
  have hcontent := h.content_eq.trans (afterIndent_of_flush (flush_quoted s))
  refine ⟨h.1, ?_⟩
  split
  · next hs =>
    simp [Block.unquoted, hcontent, quoted, hs]
  · next hs =>
    rw [quoted, if_neg hs] at hcontent
    have hblank : isIndent ' ' = true := rfl
    refine ⟨[], l.base + (l.indent.toNat + 2), ?_, rfl, by simp, ?_, ?_⟩
    · simp [Block.unquoted, hcontent, hblank]
    · simp [Block.unquoted, hcontent, hblank]
    · have := columnAfter_add l.base 0 (l.indent.toNat + 2) (s.takeWhile isIndent)
      rw [Nat.zero_add] at this
      simp [Block.unquoted, hcontent, hblank, this]
      omega

end Line
end MdxSafe
