-- SUMMARY: Decimal text of double precision numbers: shortest digits that read back, fixed places, reading.
import MdxSafe.Binary64.Basic
import MdxSafe.Text.Blank
import MdxSafe.Text.Digit

/-!
# Decimal text of numbers

The shortest text of a number has the fewest digits that read back as it, and of those the digits
nearest to it. It is positional for magnitudes from `1e-4` up to but not including `1e16`, and
always shows that it is not an integer. Fixed text rounds the exact value to a count of places.
-/

namespace MdxSafe.Binary64

-- ---------------------------------------------------------------------------
-- Shortest digits
-- ---------------------------------------------------------------------------

/-- The number of decimal digits before the point of a positive fraction: the `p` with
`10 ^ (p - 1) ≤ num / den < 10 ^ p`, sought upward from `p` with a bound on the steps. -/
def pointPosition (num den : Nat) : Nat → Int → Int
  | 0, p => p
  | steps + 1, p =>
    let below := if 0 ≤ p then num < den * pow10 p.toNat else num * pow10 p.natAbs < den
    if below then p else pointPosition num den steps (p + 1)

/-- The decimal with `n` digits that is nearest to a positive number and reads back as it. -/
def digitsOfLength? (m : Nat) (e : Int) (n : Nat) : Option (Nat × Int) :=
  let r := ratio m e
  let p := pointPosition r.1 r.2 700 (-330)
  let k : Int := p - n
  let s := if 0 ≤ k then (r.1, r.2 * pow10 k.toNat) else (r.1 * pow10 k.natAbs, r.2)
  let low := s.1 / s.2
  let high := low + 1
  let self := Binary64.finite false m e
  let lowReads := low ≠ 0 ∧ ofDecimal false low k = self
  let highReads := ofDecimal false high k = self
  let lowNearer := 2 * (s.1 % s.2) < s.2 ∨ (2 * (s.1 % s.2) = s.2 ∧ low % 2 = 0)
  if lowReads ∧ (lowNearer ∨ ¬highReads) then some (low, k)
  else if highReads then some (high, k)
  else none

/-- The fewest digits that read back as a positive number: the decimal `d * 10 ^ k`. -/
def shortestFrom (m : Nat) (e : Int) : Nat → Nat → Nat × Int
  | 0, n => (digitsOfLength? m e n).getD (m, 0)
  | steps + 1, n =>
    match digitsOfLength? m e n with
    | some r => r
    | none => shortestFrom m e steps (n + 1)

/-- Digits without trailing zeros, with their exponent. -/
def dropZeros : Nat → Nat × Int → Nat × Int
  | 0, r => r
  | steps + 1, r => if r.1 ≠ 0 ∧ r.1 % 10 = 0 then dropZeros steps (r.1 / 10, r.2 + 1) else r

/-- The shortest decimal of a positive number. -/
def shortest (m : Nat) (e : Int) : Nat × Int := dropZeros 20 (shortestFrom m e 17 1)

/-- The text of digits `d * 10 ^ k`: positional from `1e-4` up to below `1e16`. -/
def decimalText (d : Nat) (k : Int) : Text :=
  let ds := Text.ofNat d
  let point : Int := ds.length + k
  if -4 < point ∧ point ≤ 16 then
    if point ≤ 0 then "0.".toList ++ List.replicate point.natAbs '0' ++ ds
    else if 0 ≤ k then ds ++ List.replicate k.toNat '0' ++ ".0".toList
    else ds.take point.toNat ++ '.' :: ds.drop point.toNat
  else
    let e := point - 1
    let body := match ds with
      | [] => []
      | [c] => [c]
      | c :: rest => c :: '.' :: rest
    body ++ 'e' :: (if e < 0 then '-' else '+') :: Text.ofNatPadded 2 e.natAbs

/-- The shortest text that reads back as the number. -/
def toText : Binary64 → Text
  | .nan => "nan"
  | .infinite s => if s then "-inf" else "inf"
  | .finite s m e =>
    let body := if m = 0 then "0.0".toList else
      let r := shortest m e
      decimalText r.1 r.2
    if s then '-' :: body else body

-- ---------------------------------------------------------------------------
-- Fixed places
-- ---------------------------------------------------------------------------

/-- The value in units of the last of `places` decimal places, to the nearest, a tie to even. -/
def scaledTo (places m : Nat) (e : Int) : Nat :=
  let r := ratio m e
  roundRatio (r.1 * pow10 places) r.2

/-- The text with a fixed count of decimal places. -/
def toFixed (places : Nat) : Binary64 → Text
  | .nan => "nan"
  | .infinite s => if s then "-inf" else "inf"
  | .finite s m e =>
    let units := scaledTo places m e
    let ds := Text.ofNatPadded (places + 1) units
    let cut := ds.length - places
    let body := ds.take cut ++ (if places = 0 then [] else '.' :: ds.drop cut)
    if s then '-' :: body else body

/-- The number nearest to the value rounded to a count of decimal places. -/
def roundTo (places : Nat) : Binary64 → Binary64
  | .finite s m e => ofDecimal s (scaledTo places m e) (-(places : Int))
  | x => x

-- ---------------------------------------------------------------------------
-- Reading
-- ---------------------------------------------------------------------------

/-- A run of digits of any script, single underscores allowed between them: value, count of digits
and the rest. -/
def readDigits (value count : Nat) : Text → Nat × Nat × Text
  | [] => (value, count, [])
  | c :: t =>
    match decimalValue? c with
    | some d => readDigits (10 * value + d) (count + 1) t
    | none =>
      match c, t with
      | '_', d :: t' =>
        match (if count = 0 then none else decimalValue? d) with
        | some v => readDigits (10 * value + v) (count + 1) t'
        | none => (value, count, c :: t)
      | _, _ => (value, count, c :: t)

/-- A sign, if one stands first, and the rest. -/
def readSign : Text → Bool × Text
  | '-' :: t => (true, t)
  | '+' :: t => (false, t)
  | t => (false, t)

/-- An exponent part, empty or complete. -/
def readExponent? : Text → Option Int
  | [] => some 0
  | c :: t =>
    if c = 'e' ∨ c = 'E' then
      let s := readSign t
      let r := readDigits 0 0 s.2
      if r.2.1 = 0 ∨ r.2.2 ≠ [] then none else some (if s.1 then -(r.1 : Int) else r.1)
    else none

/-- The number written by a text: optional sign, digits with an optional point and exponent, or one
of the words for infinity and not-a-number in any case. Blanks around it do not count. -/
def ofText? (t : Text) : Option Binary64 :=
  let s := readSign (Text.trim isNumeralMargin t)
  let word := s.2.map Char.toLower
  if word = "inf".toList ∨ word = "infinity".toList then some (.infinite s.1)
  else if word = "nan".toList then some .nan
  else
    let whole := readDigits 0 0 s.2
    let frac := match whole.2.2 with
      | '.' :: t => readDigits whole.1 0 t
      | t => (whole.1, 0, t)
    if whole.2.1 + frac.2.1 = 0 then none
    else (readExponent? frac.2.2).map fun e => ofDecimal s.1 frac.1 (e - frac.2.1)

end MdxSafe.Binary64
