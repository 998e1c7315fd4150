-- SUMMARY: Rows of tables: cells, alignments, and what makes two lines a table.
import MdxSafe.Text.Blank

/-!
# Table rows

A row is cut at the pipes that no backslash precedes; a backslash before a pipe is dropped, so that the
pipe stands in the cell. The second line of a table says how its columns are aligned.
-/

namespace MdxSafe.Table

/-- The pieces of a row between its pipes; `escaped` says that a backslash comes before. -/
def cutRow (escaped : Bool) : Text → List Text
  | [] => [[]]
  | c :: t =>
    if c = '|' ∧ !escaped then [] :: cutRow false t
    else if c = '\\' ∧ t.head? = some '|' then cutRow true t
    else
      match cutRow false t with
      | p :: ps => (c :: p) :: ps
      | [] => [[c]]

/-- The pieces of a row between its pipes. -/
def splitRow (t : Text) : List Text := cutRow false t

/-- The cells of a trimmed row: its pieces without an empty one at either end. -/
def cells (row : Text) : List Text :=
  let dropEmpty (ps : List Text) : List Text :=
    match ps with
    | [] :: rest => rest
    | ps => ps
  (dropEmpty (dropEmpty (splitRow row)).reverse).reverse

/-- How a column is aligned. -/
inductive Align where
  | unset | left | right | center
  deriving DecidableEq, Repr, Inhabited

/-- The style of a cell that is aligned. -/
def Align.style? : Align → Option Text
  | unset => none
  | left => some "text-align:left"
  | right => some "text-align:right"
  | center => some "text-align:center"

/-- A character of the line below the head of a table. -/
def isDelimiter (c : Char) : Bool := c = '|' || c = '-' || c = ':'

/-- The alignment that a cell of that line gives: hyphens, with a colon at the sides aligned to. -/
def align? (t : Text) : Option Align :=
  let left := t.head? = some ':'
  let right := t.getLast? = some ':'
  let hyphens := if left then t.drop 1 else t
  let hyphens := if right then hyphens.dropLast else hyphens
  if hyphens ≠ [] ∧ hyphens.all (· = '-') then
    some (if left && right then .center else if right then .right else if left then .left else .unset)
  else none

/-- The alignments of the pieces of that line, of which only the first and the last may be empty. -/
def alignsFrom (first : Bool) : List Text → Option (List Align)
  | [] => some []
  | p :: ps =>
    let p := Text.trimMargin p
    if p = [] then if first || ps = [] then alignsFrom false ps else none
    else do
      let a ← align? p
      return a :: (← alignsFrom false ps)

/-- The alignments that the content of the second line of a table gives. -/
def aligns? (t : Text) : Option (List Align) :=
  match t with
  | a :: b :: _ =>
    if isDelimiter a && (isDelimiter b || isIndent b) && !(a = '-' && isIndent b)
        && t.all fun c => isDelimiter c || isIndent c then
      alignsFrom true (Text.splitOn '|' t)
    else none
  | _ => none

/-- The cells of the head and the alignments of a table with these contents on its first two lines. -/
def head? (first second : Text) : Option (List Text × List Align) := do
  let aligns ← aligns? second
  let row := Text.trimMargin first
  let cs := cells row
  if '|' ∈ row ∧ cs ≠ [] ∧ cs.length = aligns.length then return (cs, aligns) else none

/-- The greatest count of cells that rows may lack in all. -/
def maxMissing : Int := 65536

end MdxSafe.Table
