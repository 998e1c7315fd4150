-- SUMMARY: Integers written as texts in typed data.
import MdxSafe.Text.Blank

/-!
# Numerals in typed data

A plain numeral is a run of digits that starts with no needless zero, perhaps after a minus sign. Any other
text is made plain first: the blanks around it go, then one sign, leading zeros, a fraction of zeros, and the
underscores that separate digits, in this order. Underscores among leading zeros go with them, and a minus
sign that follows leading zeros counts.
-/

namespace MdxSafe.Numeral

/-- Whether there is a minus sign in front, and what follows it. -/
def cutMinus : Text → Bool × Text
  | '-' :: t => (true, t)
  | t => (false, t)

/-- Whether a text starts with more digits than are read. -/
def isTooLong (t : Text) : Bool :=
  let digits := (cutMinus t).2.takeWhile Char.isDigit
  Text.maxDigits < digits.length && digits.head? != some '0'

/-- The integer of a plain numeral. -/
def plain? (t : Text) : Option Int :=
  let (negative, digits) := cutMinus t
  if digits ≠ [] ∧ digits.all Char.isDigit ∧ (digits.head? ≠ some '0' ∨ digits = ['0'])
      ∧ digits.length ≤ Text.maxDigits then
    let n : Int := Text.natOfDigits 0 digits
    some (if negative then -n else n)
  else none

/-- What is left after leading zeros; `last` is the one just passed, and is kept if no digit follows. -/
def afterZeros? (last : Char) : Text → Option Text
  | [] => some [last]
  | c :: t =>
    if c = '0' || c = '_' then afterZeros? c t
    else if c.isDigit || c = '-' then some (c :: t)
    else if c = '.' then some (last :: c :: t)
    else none

/-- A text that starts with a digit without leading zeros. -/
def dropZeros? : Text → Option Text
  | [] => none
  | c :: t => if c = '0' then afterZeros? c t else if c.isDigit then some (c :: t) else none

/-- A text without a point and zeros at its end. -/
def dropFraction (t : Text) : Text :=
  match Text.cut? ['.'] t with
  | some (whole, zeros) => if zeros ≠ [] ∧ zeros.all (· = '0') then whole else t
  | none => t

/-- A text without underscores, unless one leads, ends, or follows another. -/
def dropSeparators (t : Text) : Text :=
  if t.head? = some '_' ∨ t.getLast? = some '_' ∨ Text.contains t "__" then t else t.filter (· ≠ '_')

/-- The plain numeral of a text, as far as it can be made plain. -/
def simplify? (t : Text) : Option Text := do
  let t ← match Text.trim isNumeralMargin t with
    | '+' :: '-' :: _ | '-' :: '-' :: _ => none
    | '+' :: t => some t
    | t => some t
  let (negative, t) := cutMinus t
  let t := dropSeparators (dropFraction (← dropZeros? t))
  return if negative then '-' :: t else t

/-- The integer that a text writes. -/
def read? (t : Text) : Option Int := (plain? t).or ((simplify? t).bind plain?)

end MdxSafe.Numeral
