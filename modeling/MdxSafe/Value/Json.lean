-- SUMMARY: Reading JSON texts into dynamic values.
import MdxSafe.Binary64.Decimal
import MdxSafe.Text.Basic
import MdxSafe.Value.Basic

/-!
# JSON

The reader follows the standard, and takes the words `NaN`, `Infinity` and `-Infinity` for numbers
beside. A number with a point or an exponent is a double precision one, any other an integer of any
size. Of several fields with one key the last value counts, at the place of the first. An escape that is
half of a character stands for the replacement character. An integer of too many digits is refused as soon
as it is read, whatever is wrong behind it.
-/

namespace MdxSafe.Json

/-- Why a text is refused. -/
inductive Fault where
  | malformed
  | tooManyDigits (count : Nat)
  deriving DecidableEq, Repr

/-- A character between tokens. -/
def isSpace (c : Char) : Bool := c = ' ' || c = '\t' || c = '\n' || c = '\r'

/-- The text after the characters between tokens. -/
def skip (t : Text) : Text := t.dropWhile isSpace

-- ---------------------------------------------------------------------------
-- Strings
-- ---------------------------------------------------------------------------

/-- The value of a hexadecimal digit. -/
def hexValue? (c : Char) : Option Nat :=
  if '0' ≤ c ∧ c ≤ '9' then some (c.toNat - '0'.toNat)
  else if 'a' ≤ c ∧ c ≤ 'f' then some (c.toNat - 'a'.toNat + 10)
  else if 'A' ≤ c ∧ c ≤ 'F' then some (c.toNat - 'A'.toNat + 10)
  else none

/-- Four hexadecimal digits, and the rest. -/
def takeHex4? : Text → Option (Nat × Text)
  | a :: b :: c :: d :: t => do
    let a ← hexValue? a
    let b ← hexValue? b
    let c ← hexValue? c
    let d ← hexValue? d
    return (((a * 16 + b) * 16 + c) * 16 + d, t)
  | _ => none

/-- The low half of a character that is written in two halves, and the rest. -/
def takeLow? : Text → Option (Nat × Text)
  | '\\' :: 'u' :: t =>
    match takeHex4? t with
    | some (n, t) => if 0xDC00 ≤ n ∧ n ≤ 0xDFFF then some (n, t) else none
    | none => none
  | _ => none

/-- The character of a numeric escape, given its digits and what follows, and the rest. -/
def escaped? (t : Text) : Option (Char × Text) :=
  match takeHex4? t with
  | none => none
  | some (n, t) =>
    if 0xD800 ≤ n ∧ n ≤ 0xDBFF then
      match takeLow? t with
      | some (m, t) => some (Char.ofNat (0x10000 + (n - 0xD800) * 0x400 + (m - 0xDC00)), t)
      | none => some (Char.ofNat 0xFFFD, t)
    else if 0xDC00 ≤ n ∧ n ≤ 0xDFFF then some (Char.ofNat 0xFFFD, t)
    else some (Char.ofNat n, t)

/-- The character of a one-letter escape. -/
def letterEscape? (c : Char) : Option Char :=
  match c with
  | '"' => some '"'
  | '\\' => some '\\'
  | '/' => some '/'
  | 'b' => some (Char.ofNat 8)
  | 'f' => some (Char.ofNat 12)
  | 'n' => some '\n'
  | 'r' => some '\r'
  | 't' => some '\t'
  | _ => none

/-- A string after its opening quote, and the rest; `fuel` bounds the count of characters. -/
def string? : Nat → Text → Option (Text × Text)
  | 0, _ => none
  | _, [] => none
  | _, '"' :: t => some ([], t)
  | fuel + 1, '\\' :: 'u' :: t => do
    let (c, t) ← escaped? t
    let (s, t) ← string? fuel t
    return (c :: s, t)
  | fuel + 1, '\\' :: c :: t => do
    let c ← letterEscape? c
    let (s, t) ← string? fuel t
    return (c :: s, t)
  | fuel + 1, c :: t =>
    if c.toNat < 0x20 then none
    else do
      let (s, t) ← string? fuel t
      return (c :: s, t)

-- ---------------------------------------------------------------------------
-- Numbers
-- ---------------------------------------------------------------------------

/-- The digits at the start of a text, and the rest. -/
def takeDigits (t : Text) : Text × Text :=
  let ds := t.takeWhile Char.isDigit
  (ds, t.drop ds.length)

/-- The digits before the point at the start of a text, and the rest. A zero at the start stands alone. -/
def takeWhole : Text → Text × Text
  | '0' :: u => (['0'], u)
  | t => takeDigits t

/-- The fraction at the start of a text, without its point, and the rest. -/
def takeFraction (t : Text) : Text × Text :=
  match t with
  | '.' :: u =>
    let r := takeDigits u
    if r.1 = [] then ([], t) else r
  | _ => ([], t)

/-- The exponent at the start of a text, and the rest. -/
def takeExponent (t : Text) : Option Int × Text :=
  match t with
  | c :: u =>
    if c = 'e' ∨ c = 'E' then
      let s := Binary64.readSign u
      let r := takeDigits s.2
      if r.1 = [] then (none, t)
      else
        let n : Int := Text.natOfDigits 0 r.1
        (some (if s.1 then -n else n), r.2)
    else (none, t)
  | [] => (none, t)

/-- A number without its sign, and the rest. -/
def number (negative : Bool) (t : Text) : Except Fault (Value × Text) :=
  let whole := takeWhole t
  if whole.1 = [] then .error .malformed
  else
    let frac := takeFraction whole.2
    let exp := takeExponent frac.2
    if frac.1 = [] ∧ exp.1 = none then
      if Text.maxDigits < whole.1.length then .error (.tooManyDigits whole.1.length)
      else
        let n : Int := Text.natOfDigits 0 whole.1
        .ok (.int (if negative then -n else n), whole.2)
    else
      let m := Text.natOfDigits 0 (whole.1 ++ frac.1)
      .ok (.float (.ofDecimal negative m (exp.1.getD 0 - frac.1.length)), exp.2)

-- ---------------------------------------------------------------------------
-- Values
-- ---------------------------------------------------------------------------

/-- The words that are values. -/
def words : List (Text × Value) :=
  [("null".toList, .null), ("true".toList, .bool true), ("false".toList, .bool false),
   ("NaN".toList, .float .nan), ("Infinity".toList, .float (.infinite false)),
   ("-Infinity".toList, .float (.infinite true))]

/-- The word at the start of a text, and the rest. -/
def word? (t : Text) : Option (Value × Text) :=
  words.findSome? fun w => (Text.after? w.1 t).map fun rest => (w.2, rest)

/-- What was read, if anything was. -/
def needed {α : Type} : Option α → Except Fault α
  | some x => .ok x
  | none => .error .malformed

mutual
/-- A value, and the rest; `fuel` bounds the depth and the counts of items. -/
def value : Nat → Text → Except Fault (Value × Text)
  | 0, _ => .error .malformed
  | fuel + 1, t =>
    match t with
    | '"' :: u => do
      let (s, u) ← needed (string? (u.length + 1) u)
      return (.text s, u)
    | '[' :: u =>
      match skip u with
      | ']' :: u => .ok (.list [], u)
      | u => do
        let (xs, u) ← items fuel u
        return (.list xs, u)
    | '\x7b' :: u =>
      match skip u with
      | '\x7d' :: u => .ok (.object [], u)
      | u => do
        let (fs, u) ← fields fuel u
        return (.object (Fields.ofEntries fs), u)
    | t =>
      match word? t with
      | some r => .ok r
      | none =>
        match t with
        | '-' :: u => number true u
        | u => number false u

/-- The items of a list up to its closing bracket, and the rest. -/
def items : Nat → Text → Except Fault (List Value × Text)
  | 0, _ => .error .malformed
  | fuel + 1, t => do
    let (v, t) ← value fuel t
    match skip t with
    | ',' :: t =>
      let (vs, t) ← items fuel (skip t)
      return (v :: vs, t)
    | ']' :: t => return ([v], t)
    | _ => .error .malformed

/-- The fields of an object up to its closing brace, and the rest. -/
def fields : Nat → Text → Except Fault (List (Text × Value) × Text)
  | 0, _ => .error .malformed
  | fuel + 1, t =>
    match t with
    | '"' :: t => do
      let (k, t) ← needed (string? (t.length + 1) t)
      match skip t with
      | ':' :: t =>
        let (v, t) ← value fuel (skip t)
        match skip t with
        | ',' :: t =>
          let (fs, t) ← fields fuel (skip t)
          return ((k, v) :: fs, t)
        | '\x7d' :: t => return ([(k, v)], t)
        | _ => .error .malformed
      | _ => .error .malformed
    | _ => .error .malformed
end

/-- The value that a whole text writes. -/
def read (t : Text) : Except Fault Value := do
  let (v, rest) ← value (2 * t.length + 1) (skip t)
  if skip rest = [] then return v else .error .malformed

end MdxSafe.Json
