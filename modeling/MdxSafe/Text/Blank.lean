-- SUMMARY: The classes of blank characters: blanks of a text, margins of Markdown inline text, indentation.
import MdxSafe.Text.Basic

/-!
# Blank characters

Four classes are in use. `isBlank` is the widest: everything that separates words. `isMargin` is
what Markdown removes around the text of a paragraph, heading or table cell, `isNumeralMargin` what
may stand around a numeral. `isIndent` is what counts as indentation.
-/

namespace MdxSafe

/-- Blanks beyond ASCII that also count as a margin in Markdown. -/
def isWideSpace (c : Char) : Bool :=
  let n := c.toNat
  n == 0xA0 || n == 0x1680 || (0x2000 ≤ n && n ≤ 0x200A) || n == 0x2028 || n == 0x2029 || n == 0x202F
    || n == 0x205F || n == 0x3000

/-- A blank: what separates words. -/
def isBlank (c : Char) : Bool :=
  let n := c.toNat
  (0x9 ≤ n && n ≤ 0xD) || (0x1C ≤ n && n ≤ 0x20) || n == 0x85 || isWideSpace c

/-- A character removed around Markdown inline text. -/
def isMargin (c : Char) : Bool :=
  let n := c.toNat
  (0x9 ≤ n && n ≤ 0xD) || n == 0x20 || isWideSpace c

/-- A character that may stand around a numeral. -/
def isNumeralMargin (c : Char) : Bool := isMargin c || c.toNat == 0x85

/-- A character of indentation: space or tab. -/
def isIndent (c : Char) : Bool := c = ' ' || c = '\t'

namespace Text

/-- The text without blanks at both ends. -/
def trimBlank (t : Text) : Text := trim isBlank t

/-- The text without Markdown margins. -/
def trimMargin (t : Text) : Text := trim isMargin t

end Text
end MdxSafe
