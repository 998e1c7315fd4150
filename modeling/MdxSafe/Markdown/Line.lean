-- SUMMARY: Lines of a Markdown text as a container sees them.
import MdxSafe.Text.Blank

/-!
# Lines

Reading a container (a quote, a list item) moves the left edge of its lines. A line therefore keeps its
characters from that edge on, how many of them stand before its content, and in columns, with tab stops
every four of them, how far the content is indented.
-/

namespace MdxSafe

/-- A line as the innermost container sees it. -/
structure Line where
  /-- The characters from the left edge on, without the line end. -/
  raw : Text := []
  /-- How many of them stand before the content. -/
  shift : Nat := 0
  /-- The column of the content; negative for a line that can only continue a paragraph. -/
  indent : Int := 0
  /-- The columns that markers of containers take up before the left edge. -/
  base : Nat := 0
  /-- Whether a line end follows. -/
  ended : Bool := false
  deriving Repr, Inhabited

/-- The column after indentation that starts in a column; tab stops are every four columns counted from
`base` columns before. -/
def columnAfter (base column : Nat) : Text → Nat
  | [] => column
  | c :: t => columnAfter base (if c = '\t' then column + (4 - (column + base) % 4) else column + 1) t

namespace Line

/-- What stands on the line after its indentation. -/
def content (l : Line) : Text := l.raw.drop l.shift

/-- Whether nothing does. -/
def isEmpty (l : Line) : Bool := l.raw.length ≤ l.shift

/-- Whether a text is cut off on the line: it ends there, with nothing after the markers of containers. -/
def isCutOff (l : Line) : Bool := l.isEmpty && !l.ended

/-- The line end, if there is one. -/
def ending (l : Line) : Text := if l.ended then ['\n'] else []

/-- A line of a text. -/
def ofText (raw : Text) (ended : Bool) : Line :=
  let blanks := raw.takeWhile isIndent
  { raw, shift := blanks.length, indent := columnAfter 0 0 blanks, ended }

/-- The characters from the left edge on without the first `width` columns of indentation: `column` of
them are passed, and `hidden` characters belong to markers. A tab that reaches past the width leaves
spaces. -/
def dropColumns (base : Nat) (width : Int) (column : Nat) : Nat → Text → Text
  | hidden, c :: t =>
    if (column : Int) < width then
      if c = ' ' then dropColumns base width (column + 1) (hidden - 1) t
      else if c = '\t' then dropColumns base width (column + (4 - (column + base) % 4)) (hidden - 1) t
      else if 0 < hidden then dropColumns base width (column + 1) (hidden - 1) t
      else c :: t
    else List.replicate ((column : Int) - width).toNat ' ' ++ c :: t
  | _, [] => List.replicate ((column : Int) - width).toNat ' '

/-- Whether the indentation of the line is at least as wide as a width. -/
def reaches (l : Line) (width : Int) : Bool := width ≤ columnAfter l.base 0 (l.raw.take l.shift)

/-- The line without an indentation. -/
def unindent (l : Line) (width : Int) : Text := dropColumns l.base width 0 l.shift l.raw

end Line

/-- Lines from the pieces of a text between its line ends. A last piece with only indentation on it is
no line. -/
def linesFrom : List Text → List Line
  | [] => []
  | [last] => if last.all isIndent then [] else [Line.ofText last false]
  | l :: ls => Line.ofText l true :: linesFrom ls

/-- The lines of a text. -/
def linesOf (t : Text) : Array Line := (linesFrom (Text.splitOn '\n' t)).toArray

end MdxSafe
