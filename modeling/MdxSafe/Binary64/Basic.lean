-- SUMMARY: Double precision numbers as exact binary fractions, with correct rounding.

/-!
# Double precision numbers

A finite number is a sign and an exact value `m * 2 ^ e`, kept in lowest form: `m` has 53 bits, or
fewer at the least exponent. Every operation computes exactly and rounds once, to the nearest
number and on a tie to the one with an even `m`.
-/

namespace MdxSafe

/-- A double precision number. -/
inductive Binary64 where
  | nan
  | infinite (negative : Bool)
  | finite (negative : Bool) (mantissa : Nat) (exponent : Int)
  deriving DecidableEq, Repr, Inhabited

/-- A power of two. -/
def pow2 (n : Nat) : Nat := Nat.pow 2 n

/-- A power of ten. -/
def pow10 (n : Nat) : Nat := Nat.pow 10 n

/-- The quotient rounded to the nearest integer, a tie to the even one. -/
def roundRatio (num den : Nat) : Nat :=
  let q := num / den
  let r := num % den
  if 2 * r < den then q
  else if den < 2 * r then q + 1
  else if q % 2 = 0 then q else q + 1

namespace Binary64

/-- The least exponent of a finite number. -/
def minExponent : Int := -1074

/-- The greatest exponent of a finite number. -/
def maxExponent : Int := 971

/-- Zero. -/
def zero : Binary64 := .finite false 0 minExponent

/-- Multiply numerator or denominator so that the quotient is divided by `2 ^ e`. -/
def scale (num den : Nat) (e : Int) : Nat × Nat :=
  if e < 0 then (num * pow2 e.natAbs, den) else (num, den * pow2 e.natAbs)

/-- The number nearest to a non-negative fraction, with a sign. -/
def ofRatio (negative : Bool) (num den : Nat) : Binary64 :=
  if num = 0 then .finite negative 0 minExponent
  else
    let guess : Int := (num.log2 : Int) - (den.log2 : Int) - 53
    let e := max minExponent guess
    let s := scale num den e
    let e := if s.1 / s.2 < pow2 53 then e else e + 1
    let s := scale num den e
    let m := roundRatio s.1 s.2
    let r : Nat × Int := if m = pow2 53 then (pow2 52, e + 1) else (m, e)
    if maxExponent < r.2 then .infinite negative else .finite negative r.1 r.2

/-- The number nearest to an integer. -/
def ofInt (i : Int) : Binary64 := ofRatio (i < 0) i.natAbs 1

/-- The number nearest to `m * 10 ^ e`. Exponents beyond the range of any finite or non-zero
result are not computed with. -/
def ofDecimal (negative : Bool) (m : Nat) (e : Int) : Binary64 :=
  if m = 0 then .finite negative 0 minExponent
  else if 400 < e then .infinite negative
  else
    let digits : Int := (Nat.toDigits 10 m).length
    if digits + e < -400 then .finite negative 0 minExponent
    else if 0 ≤ e then ofRatio negative (m * pow10 e.toNat) 1
    else ofRatio negative m (pow10 e.natAbs)

/-- Whether the number is finite. -/
def isFinite : Binary64 → Bool
  | .finite .. => true
  | _ => false

/-- Whether the number equals zero, of either sign. -/
def isZero : Binary64 → Bool
  | .finite _ m _ => m == 0
  | _ => false

/-- A finite number as numerator, denominator and sign of the numerator. -/
def ratio (m : Nat) (e : Int) : Nat × Nat :=
  if e < 0 then (m, pow2 e.natAbs) else (m * pow2 e.natAbs, 1)

/-- The integer part, toward zero, of a finite number. -/
def truncate? : Binary64 → Option Int
  | .finite negative m e =>
    let r := ratio m e
    let q : Int := ((r.1 / r.2 : Nat) : Int)
    some (if negative then -q else q)
  | _ => none

/-- Whether a finite number has no fraction. -/
def isIntegral : Binary64 → Bool
  | .finite _ m e => let r := ratio m e; r.1 % r.2 == 0
  | _ => false

/-- The negated number. -/
def neg : Binary64 → Binary64
  | .nan => .nan
  | .infinite s => .infinite !s
  | .finite s m e => .finite (!s) m e

/-- The sum, rounded once. Two zeros of opposite sign, and a number and its negation, give `0`. -/
def add : Binary64 → Binary64 → Binary64
  | .nan, _ => .nan
  | _, .nan => .nan
  | .infinite s, .infinite t => if s = t then .infinite s else .nan
  | .infinite s, _ => .infinite s
  | _, .infinite t => .infinite t
  | .finite s m e, .finite t n f =>
    let g := min e f
    let a : Int := m * pow2 (e - g).toNat
    let b : Int := n * pow2 (f - g).toNat
    let c := (if s then -a else a) + (if t then -b else b)
    if c = 0 then .finite (s && t) 0 minExponent
    else
      let r := ratio c.natAbs g
      ofRatio (c < 0) r.1 r.2

/-- The difference, rounded once. -/
def sub (x y : Binary64) : Binary64 := add x y.neg

/-- Equality of numbers: zeros of either sign are equal, and a NaN equals nothing. -/
def eqv : Binary64 → Binary64 → Bool
  | .nan, _ => false
  | _, .nan => false
  | x, y => x = y || (x.isZero && y.isZero)

end Binary64
end MdxSafe
