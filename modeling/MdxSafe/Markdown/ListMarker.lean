-- SUMMARY: Markers of list items.
import MdxSafe.Text.Blank

/-!
# List markers

A bullet, or a number of up to nine digits with a period or a parenthesis; a blank or the end of the
line follows.
-/

namespace MdxSafe

/-- The marker of a list item. -/
structure ListMarker where
  /-- The digits of an ordered item; empty for a bullet. -/
  digits : Text
  /-- The bullet, or the character after the number. -/
  mark : Char
  deriving Repr, DecidableEq

namespace ListMarker

/-- Whether the item is numbered. -/
def isOrdered (m : ListMarker) : Bool := m.digits ≠ []

/-- The number of an ordered item. -/
def number (m : ListMarker) : Nat := Text.natOfDigits 0 m.digits

/-- The count of characters. -/
def width (m : ListMarker) : Nat := m.digits.length + 1

/-- Whether two items may belong to one list. -/
def continues (m n : ListMarker) : Bool := m.isOrdered == n.isOrdered && m.mark == n.mark

/-- The marker that the content of a line starts with. -/
def read? (t : Text) : Option ListMarker :=
  let digits := t.takeWhile Char.isDigit
  match t.drop digits.length with
  | mark :: rest =>
    let fits :=
      if digits = [] then mark = '*' || mark = '-' || mark = '+'
      else (mark = '.' || mark = ')') && digits.length ≤ 9
    if fits && rest.head?.all isIndent then some { digits, mark } else none
  | [] => none

end ListMarker
end MdxSafe
