-- SUMMARY: The quoted form of a text.
import MdxSafe.Text.Basic
import MdxSafe.Text.Printable

/-!
# Quoted texts

A text is quoted with single quotes unless it holds a single and no double one. The quote in use,
the backslash and every character that is not printable are escaped.
-/

namespace MdxSafe.Text

/-- The digits of a number in base 16, padded with zeros to a width. -/
def hexPadded (width n : Nat) : Text :=
  let ds := Nat.toDigits 16 n
  List.replicate (width - ds.length) '0' ++ ds

/-- A character between quotes of the given kind. -/
def quotedChar (quote c : Char) : Text :=
  if c = quote ∨ c = '\\' then ['\\', c]
  else if c = '\n' then "\\n"
  else if c = '\r' then "\\r"
  else if c = '\t' then "\\t"
  else if isPrintable c then [c]
  else if c.toNat < 0x100 then "\\x".toList ++ hexPadded 2 c.toNat
  else if c.toNat < 0x10000 then "\\u".toList ++ hexPadded 4 c.toNat
  else "\\U".toList ++ hexPadded 8 c.toNat

/-- The quotes for a text: double ones only if it holds single ones and no double one. -/
def quoteFor (t : Text) : Char :=
  if '\'' ∈ t ∧ '"' ∉ t then '"' else '\''

/-- The text in quotes. -/
def quoted (t : Text) : Text :=
  let q := quoteFor t
  q :: t.flatMap (quotedChar q) ++ [q]

end MdxSafe.Text
