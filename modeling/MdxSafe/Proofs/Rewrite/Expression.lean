-- SUMMARY: The expression comments that converting comments inserts, and which of them end where they should.
import MdxSafe.Proofs.Rewrite.Comment
import MdxSafe.Proofs.Text.Splice
import MdxSafe.Rewrite.Pass

/-!
# Expression comments

A text is read from left to right as characters and comments (`IsReading`); in what it is converted to, an expression
comment stands for each comment. An expression comment ends at the first `*/`. Its body is written as it is, so it ends
at its own mark just if the body of the comment holds no `*/` (`expression_closed_iff`).
-/

namespace MdxSafe.Comment

variable {t u raw : Text}

-- ---------------------------------------------------------------------------
-- Comments of a text
-- ---------------------------------------------------------------------------

/-- A piece of a text: a comment, given by what stands between its marks, or a character outside of the comments. -/
inductive Piece where
  | char (c : Char)
  | comment (raw : Text)

namespace Piece

/-- The text of a piece. -/
def written : Piece → Text
  | char c => [c]
  | comment raw => opener ++ (raw ++ closer)

/-- The text that a piece is converted to. -/
def converted : Piece → Text
  | char c => [c]
  | comment raw => expression (Text.trimBlank raw)

end Piece

/-- The text of pieces in order. -/
def textOf (ps : List Piece) : Text := ps.flatMap Piece.written

/-- The text that pieces are converted to. -/
def convertedOf (ps : List Piece) : Text := ps.flatMap Piece.converted

theorem textOf_cons (p : Piece) (ps : List Piece) : textOf (p :: ps) = p.written ++ textOf ps := List.flatMap_cons

/-- A text as it is read from left to right: a comment ends at the first closer, and no comment starts at a character
between two of them. -/
structure IsReading (t : Text) (ps : List Piece) : Prop where
  text_eq : textOf ps = t
  ends_first : ∀ raw, .comment raw ∈ ps → ¬ closer <:+: raw
  not_starts : ∀ before c after, ps = before ++ .char c :: after → ¬ Starts (c :: textOf after)

theorem Converted.exists_reading (h : Converted t u) : ∃ ps, IsReading t ps ∧ convertedOf ps = u := by
  induction h with
  | nil =>
    refine ⟨[], ⟨rfl, fun raw hmem => absurd hmem List.not_mem_nil, fun before c after heq => ?_⟩, rfl⟩
    cases before <;> cases heq
  | @char c t u hstarts _ ih =>
    obtain ⟨ps, hps, rfl⟩ := ih
    refine ⟨.char c :: ps, ⟨?_, fun raw hmem => ?_, fun before d after heq => ?_⟩, rfl⟩
    · rw [textOf_cons, hps.text_eq]
      rfl
    · exact hps.ends_first raw ((List.mem_cons.1 hmem).resolve_left nofun)
    · cases before with
      | nil =>
        cases heq
        rwa [hps.text_eq]
      | cons p before => exact hps.not_starts before d after (List.cons_eq_cons.1 heq).2
  | @comment raw t u hraw _ ih =>
    obtain ⟨ps, hps, rfl⟩ := ih
    refine ⟨.comment raw :: ps, ⟨?_, fun raw' hmem => ?_, fun before d after heq => ?_⟩, rfl⟩
    · rw [textOf_cons, hps.text_eq, Piece.written, List.append_assoc, List.append_assoc]
    · rcases List.mem_cons.1 hmem with heq | hmem
      · cases heq
        exact hraw
      · exact hps.ends_first raw' hmem
    · cases before with
      | nil => cases heq
      | cons p before => exact hps.not_starts before d after (List.cons_eq_cons.1 heq).2

-- ---------------------------------------------------------------------------
-- Where an expression comment ends
-- ---------------------------------------------------------------------------

/-- What ends an expression comment. -/
def terminator : Text := ['*', '/']

/-- What stands between the marks of the expression comment that is inserted for a comment. -/
def inner (raw : Text) : Text := ' ' :: Text.trimBlank raw ++ [' ']

theorem expression_eq (raw : Text) :
    expression (Text.trimBlank raw) = "\x7b/*".toList ++ (inner raw ++ (terminator ++ ['\x7d'])) := by
  simp [expression, inner, terminator]

/-- The body of an expression comment is that of the comment, blanks apart. -/
theorem trimBlank_inner (raw : Text) : Text.trimBlank (inner raw) = Text.trimBlank raw := by
  have hblank : isBlank ' ' = true := rfl
  unfold inner Text.trimBlank
  rw [List.cons_append, Text.trim_cons hblank, Text.trim_concat hblank, Text.trim_trim]

theorem terminator_infix_trimBlank_iff (raw : Text) : terminator <:+: Text.trimBlank raw ↔ terminator <:+: raw :=
  Text.infix_trim_iff (List.cons_ne_nil _ _) (List.forall_mem_cons.2 ⟨rfl, List.forall_mem_singleton.2 rfl⟩) raw

/-- The first `*/` behind a mark is the one that was inserted with it just if the comment held none. -/
theorem isFirst_terminator_iff (lead raw rest : Text) :
    Text.IsFirst terminator lead.length (lead ++ (inner raw ++ (terminator ++ rest))) (lead.length + (inner raw).length)
      ↔ ¬ terminator <:+: raw := by
  have hne : terminator ≠ [] := List.cons_ne_nil _ _
  have hlength : (inner raw).length = (Text.trimBlank raw).length + 2 := by simp [inner]
  rw [← terminator_infix_trimBlank_iff]
  constructor
  · rintro ⟨-, -, hfirst⟩ ⟨front, back, hbody⟩
    have hstands : Text.StandsAt terminator (lead ++ (inner raw ++ (terminator ++ rest)))
        (lead.length + (front.length + 1)) := by
      have hsplit : lead ++ (inner raw ++ (terminator ++ rest))
          = (lead ++ ' ' :: front) ++ (terminator ++ (back ++ ' ' :: (terminator ++ rest))) := by
        rw [inner, ← hbody]
        simp
      have hfront : lead.length + (front.length + 1) = (lead ++ ' ' :: front).length := by simp
      rw [Text.StandsAt, hsplit, hfront, List.drop_left]
      exact List.prefix_append _ _
    have hle := hfirst _ (Nat.le_add_right _ _) hstands
    have hbodyLength := congrArg List.length hbody
    simp only [List.length_append] at hbodyLength
    omega
  · intro hbody
    have hspace : ' ' ∉ terminator := by decide
    have hlead : ¬ terminator <:+: ' ' :: Text.trimBlank raw := by
      intro h
      rcases Text.infix_of_infix_append_cons (x := []) hspace h with h | h
      · exact hne (List.infix_nil.1 h)
      · exact hbody h
    have hown : Text.find? terminator (terminator ++ rest) = some 0 :=
      (Text.find?_eq_some_iff hne).2 ⟨List.prefix_append _ _, fun j _ => Nat.zero_le j⟩
    have hfind := Text.find?_append_cons hspace hlead (terminator ++ rest)
    rw [hown, Option.map_some] at hfind
    have hinner : inner raw ++ (terminator ++ rest) = ' ' :: Text.trimBlank raw ++ ' ' :: (terminator ++ rest) := by
      simp [inner]
    rw [← Text.findFrom?_eq_some_iff hne, Text.findFrom?, List.drop_left, hinner, hfind, Option.map_some, hlength]
    rfl

end MdxSafe.Comment

namespace MdxSafe

open Comment

/-- In what a text is converted to, an expression comment stands for every comment of the text. Between its marks stands
the body of the comment, blanks apart, and it is closed by its own mark just if no `*/` stands in that body. -/
theorem expression_closed_iff (s : Settings) (t : Text) :
    ∃ ps, IsReading t ps ∧ Pass.convertComments.rewrite s t = convertedOf ps
      ∧ ∀ before raw after, ps = before ++ .comment raw :: after →
          let lead := convertedOf before ++ "\x7b/*".toList
          Pass.convertComments.rewrite s t = lead ++ (inner raw ++ (terminator ++ '\x7d' :: convertedOf after))
            ∧ Text.trimBlank (inner raw) = Text.trimBlank raw
            ∧ (Text.IsFirst terminator lead.length (Pass.convertComments.rewrite s t) (lead.length + (inner raw).length)
                ↔ ¬ terminator <:+: raw) := by
  obtain ⟨ps, hps, hconverted⟩ := (converted_convert t).exists_reading
  refine ⟨ps, hps, hconverted.symm, ?_⟩
  rintro before raw after rfl
  have hsplit : Pass.convertComments.rewrite s t
      = (convertedOf before ++ "\x7b/*".toList) ++ (inner raw ++ (terminator ++ '\x7d' :: convertedOf after)) := by
    refine hconverted.symm.trans ?_
    rw [convertedOf, List.flatMap_append, List.flatMap_cons, Piece.converted, expression_eq]
    simp [convertedOf]
  refine ⟨hsplit, trimBlank_inner raw, ?_⟩
  rw [hsplit]
  exact isFirst_terminator_iff _ raw _

/-- A comment with `*/` in it becomes an expression comment that ends too early. -/
theorem expression_closed_early :
    Pass.convertComments.rewrite {} "<!-- a */ b -->".toList = "\x7b/* a */ b */\x7d".toList
      ∧ Text.IsFirst terminator 3 "\x7b/* a */ b */\x7d".toList 6
      ∧ Text.StandsAt "*/\x7d".toList "\x7b/* a */ b */\x7d".toList 11 := by
  refine ⟨by decide +kernel, (Text.findFrom?_eq_some_iff (by decide)).1 (by decide +kernel), ?_⟩
  exact ⟨[], by decide +kernel⟩

end MdxSafe
