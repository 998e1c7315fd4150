-- SUMMARY: Numbers out of dynamic values, with the causes of failure.
import MdxSafe.Value.Printer

/-!
# Numbers out of values

Texts are read as decimal numerals, numbers lose their fraction where an integer is wanted, and the
rest is refused. A failure says which value was at fault.
-/

namespace MdxSafe

/-- Why a value gives no number. -/
inductive ConversionError where
  /-- The text is no integer numeral. -/
  | notInteger (t : Text)
  /-- The text is an integer numeral of more digits than are read. -/
  | tooManyDigits (count : Nat)
  /-- The text is no decimal number. -/
  | notNumber (t : Text)
  | integerOfNaN
  | integerOfInfinity
  /-- A value of this type is never an integer. -/
  | integerOf (typeName : String)
  /-- A value of this type is never a number. -/
  | floatOf (typeName : String)
  /-- The integer is beyond the range of double precision. -/
  | integerTooLarge
  /-- An integer has more digits than are written. -/
  | integerTooLong
  deriving DecidableEq, Repr

/-- What to tell about a failed conversion. A text that is no integer is shown up to 200 characters. -/
def ConversionError.message : ConversionError → Text
  | notInteger t => "invalid literal for int() with base 10: ".toList ++ (Text.quoted t).take 200
  | tooManyDigits count =>
    "Exceeds the limit (".toList ++ Text.ofNat Text.maxDigits
      ++ " digits) for integer string conversion: value has ".toList ++ Text.ofNat count
      ++ " digits; use sys.set_int_max_str_digits() to increase the limit".toList
  | notNumber t => "could not convert string to float: ".toList ++ Text.quoted t
  | integerOfNaN => "cannot convert float NaN to integer"
  | integerOfInfinity => "cannot convert float infinity to integer"
  | integerOf name =>
    "int() argument must be a string, a bytes-like object or a real number, not '".toList
      ++ name.toList ++ ['\'']
  | floatOf name =>
    "float() argument must be a string or a real number, not '".toList ++ name.toList ++ ['\'']
  | integerTooLarge => "int too large to convert to float"
  | integerTooLong =>
    "Exceeds the limit (".toList ++ Text.ofNat Text.maxDigits
      ++ " digits) for integer string conversion; use sys.set_int_max_str_digits() to increase the limit".toList

/-- The integer written by a numeral: blanks around it do not count, a sign may lead, single
underscores may separate digits, and digits may be of any script. Digits are counted before anything
else that follows them counts, unless that is an underscore. -/
def Text.toInt (t : Text) : Except ConversionError Int :=
  let (negative, digits) := Binary64.readSign (trim isNumeralMargin t)
  let (value, count, rest) := Binary64.readDigits 0 0 digits
  if maxDigits < count ∧ rest.head? ≠ some '_' then .error (.tooManyDigits count)
  else if count = 0 ∨ rest ≠ [] then .error (.notInteger t)
  else .ok (if negative then -(value : Int) else value)

namespace Binary64

/-- The integer part of a number. -/
def toInt : Binary64 → Except ConversionError Int
  | .nan => .error .integerOfNaN
  | .infinite _ => .error .integerOfInfinity
  | .finite s m e => .ok ((truncate? (.finite s m e)).getD 0)

end Binary64

namespace Value

mutual
/-- Whether a value holds an integer that has too many digits to be written. -/
def isTooLong : Value → Bool
  | int i => Text.maxDigits < (Text.ofNat i.natAbs).length
  | list xs => anyTooLong xs
  | object fs => anyFieldTooLong fs
  | _ => false

/-- Whether one of several values is too long to be written. -/
def anyTooLong : List Value → Bool
  | [] => false
  | x :: xs => isTooLong x || anyTooLong xs

/-- Whether the value of a field is too long to be written. -/
def anyFieldTooLong : List (Text × Value) → Bool
  | [] => false
  | (_, x) :: fs => isTooLong x || anyFieldTooLong fs
end

/-- The integer that a value gives. -/
def toInt : Value → Except ConversionError Int
  | bool b => .ok (if b then 1 else 0)
  | int i => .ok i
  | float x => x.toInt
  | text t => t.toInt
  | v => .error (.integerOf v.typeName)

/-- The double precision number that a value gives. -/
def toFloat : Value → Except ConversionError Binary64
  | bool b => .ok (.ofInt (if b then 1 else 0))
  | int i => match Binary64.ofInt i with
    | .infinite _ => .error .integerTooLarge
    | x => .ok x
  | float x => .ok x
  | text t => match Binary64.ofText? t with
    | some x => .ok x
    | none => .error (.notNumber t)
  | v => .error (.floatOf v.typeName)

end Value
end MdxSafe
