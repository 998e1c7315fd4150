-- SUMMARY: Host names in ASCII form and back.
import MdxSafe.Text.Basic
import MdxSafe.Text.Case

/-!
# Punycode

A label with characters beyond ASCII is written as `xn--`, its ASCII characters, and a sequence of
generalised numbers that say which character goes where. Letters keep their case.
-/

namespace MdxSafe.Punycode

/-- The bias for a scaled number, divided down by steps of 36. -/
def adaptLoop : Nat → Nat → Nat → Nat
  | 0, k, delta => k + 36 * delta / (delta + 38)
  | fuel + 1, k, delta =>
    if 455 < delta then adaptLoop fuel (k + 36) (delta / 35) else k + 36 * delta / (delta + 38)

/-- The next bias after a number `delta`, with `count` characters so far. -/
def adapt (delta count : Nat) (first : Bool) : Nat :=
  let d := if first then delta / 700 else delta / 2
  adaptLoop 64 0 (d + d / count)

/-- The threshold of the digit at position `k`. -/
def threshold (bias k : Nat) : Nat :=
  if k ≤ bias then 1 else if bias + 26 ≤ k then 26 else k - bias

/-- The character of a digit from zero to thirty-five. -/
def digitChar (d : Nat) : Char :=
  if d < 26 then Char.ofNat ('a'.toNat + d) else Char.ofNat ('0'.toNat + (d - 26))

/-- The value of a digit. -/
def digitValue? (c : Char) : Option Nat :=
  if 'a' ≤ c ∧ c ≤ 'z' then some (c.toNat - 'a'.toNat)
  else if '0' ≤ c ∧ c ≤ '9' then some (c.toNat - '0'.toNat + 26)
  else none

/-- A generalised number. -/
def numberText (bias : Nat) : Nat → Nat → Nat → Text
  | 0, _, q => [digitChar q]
  | fuel + 1, k, q =>
    let t := threshold bias k
    if q < t then [digitChar q]
    else digitChar (t + (q - t) % (36 - t)) :: numberText bias fuel (k + 36) ((q - t) / (36 - t))

/-- The coder's state while one code point is written: delta, bias, count of characters written. -/
structure Coder where
  delta : Nat
  bias : Nat
  count : Nat
  out : Text

/-- Pass over the label once, writing every occurrence of the code point `n`. -/
def passOver (label : Text) (n basic : Nat) (s : Coder) : Coder :=
  label.foldl (fun s c =>
    if c.toNat < n then { s with delta := s.delta + 1 }
    else if c.toNat = n then
      { delta := 0, bias := adapt s.delta (s.count + 1) (s.count = basic), count := s.count + 1
        out := s.out ++ numberText s.bias 40 36 s.delta }
    else s) s

/-- The least code point of the label that is at least `n`. -/
def leastFrom (label : Text) (n : Nat) : Option Nat :=
  ((label.map Char.toNat).filter (n ≤ ·)).min?

/-- Write the code points from `n` on; `fuel` bounds the count of different ones. -/
def encodeFrom (label : Text) (basic : Nat) : Nat → Nat → Coder → Coder
  | 0, _, s => s
  | fuel + 1, n, s =>
    match leastFrom label n with
    | none => s
    | some m =>
      let s := passOver label m basic { s with delta := s.delta + (m - n) * (s.count + 1) }
      encodeFrom label basic fuel (m + 1) { s with delta := s.delta + 1 }

/-- A label in ASCII without the leading mark. -/
def encode (label : Text) : Text :=
  let basic := label.filter fun c => c.toNat < 0x80
  let s := encodeFrom label basic.length label.length 0x80 ⟨0, 72, basic.length, []⟩
  (if basic = [] then [] else basic ++ ['-']) ++ s.out

/-- Read a generalised number: its value and the rest. -/
def readNumber (bias : Nat) (value weight k : Nat) : Text → Option (Nat × Text)
  | [] => none
  | c :: t =>
    match digitValue? c with
    | none => none
    | some d =>
      let th := threshold bias k
      let value := value + d * weight
      if d < th then some (value, t) else readNumber bias value (weight * (36 - th)) (k + 36) t

/-- Insert the characters that the numbers name, `i` being the last position plus one. -/
def insertAll : Nat → Nat → Nat → Nat → Bool → Text → Text → Option Text
  | 0, _, _, _, _, base, _ => some base
  | _, _, _, _, _, base, [] => some base
  | fuel + 1, n, i, bias, first, base, numbers =>
    match readNumber bias 0 1 36 numbers with
    | none => none
    | some (delta, rest) =>
      let len := base.length + 1
      let i := i + delta
      let n := n + i / len
      if h : n.isValidChar then
        let pos := i % len
        let base := base.take pos ++ Char.ofNatAux n h :: base.drop pos
        insertAll fuel n (pos + 1) (adapt delta len first) false base rest
      else none

/-- A label from its ASCII form without the leading mark. -/
def decode? (t : Text) : Option Text :=
  if t.any fun c => 0x80 ≤ c.toNat then none
  else
    let numbers := (t.reverse.takeWhile (· ≠ '-')).reverse
    let base := t.take (t.length - numbers.length - 1)
    insertAll t.length 0x80 0 72 true base numbers

/-- The mark of a label in ASCII form. -/
def mark : Text := "xn--"

/-- The separators of labels. -/
def isSeparator (c : Char) : Bool :=
  c = '.' || c.toNat == 0x3002 || c.toNat == 0xFF0E || c.toNat == 0xFF61

/-- The labels of a host name. -/
def labels (host : Text) : List Text :=
  Text.splitOn '.' (host.map fun c => if isSeparator c then '.' else c)

/-- The host name with every label in ASCII form. -/
def toAscii (host : Text) : Text :=
  Text.join "." ((labels host).map fun l => if l.any fun c => 0x7F ≤ c.toNat then mark ++ encode l else l)

/-- The host name with every label in full form, if all of them can be read. -/
def toUnicode? (host : Text) : Option Text :=
  ((labels host).mapM fun l =>
    match Text.after? mark l with
    | some t => decode? (Text.lower t)
    | none => some l).map (Text.join ".")

end MdxSafe.Punycode
