-- SUMMARY: Headings and thematic breaks.
import MdxSafe.Text.Blank

/-!
# Headings and thematic breaks

A heading starts with one to six number signs, or is underlined. A run of number signs that ends a
heading after a blank is not part of its text.
-/

namespace MdxSafe

namespace Heading

/-- The text without number signs at its end, if a blank stands before them. -/
def dropClosing (t : Text) : Text :=
  let t := Text.trimRight isIndent t
  let head := Text.trimRight (· = '#') t
  match head.getLast? with
  | some c => if isIndent c then head else t
  | none => t

/-- The level and the text of a heading that starts with number signs. -/
def read? (t : Text) : Option (Nat × Text) :=
  let level := (t.takeWhile (· = '#')).length
  let rest := t.drop level
  if 1 ≤ level ∧ level ≤ 6 ∧ rest.head?.all isIndent then
    some (level, Text.trimMargin (dropClosing rest))
  else none

/-- The mark of a line that underlines a heading. -/
def underline? (t : Text) : Option Char :=
  match t with
  | c :: _ =>
    if (c = '=' ∨ c = '-') ∧ (t.dropWhile (· = c)).all isIndent then some c else none
  | [] => none

/-- The level that an underline gives. -/
def underlineLevel (mark : Char) : Nat := if mark = '=' then 1 else 2

end Heading

/-- The mark and the count of marks of a thematic break. -/
def thematicBreak? (t : Text) : Option (Char × Nat) :=
  match t with
  | c :: _ =>
    if (c = '*' ∨ c = '-' ∨ c = '_') ∧ t.all fun d => d = c || isIndent d then
      let n := t.count c
      if 3 ≤ n then some (c, n) else none
    else none
  | [] => none

end MdxSafe
