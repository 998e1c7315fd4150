-- SUMMARY: Character references and backslash escapes.
import MdxSafe.Markdown.EntityTable
import MdxSafe.Text.Symbol
import MdxSafe.Text.Basic

/-!
# Character references

A reference names a character (`&copy;`) or gives its number (`&#169;`, `&#xA9;`). A number that is no
character of a text stands for the replacement character where it is read on its own; inside a link
target or title it stays as it is written.
-/

namespace MdxSafe.Entity

/-- The characters that a name stands for. -/
def named? (name : Text) : Option Text :=
  match name with
  | [] => none
  | c :: _ => ((names c).find? fun e => e.1.toList = name).map fun e => e.2.map Char.ofNat

/-- Whether a number is a character that may stand in a text. -/
def isAllowed (n : Nat) : Bool :=
  !((0xD800 ≤ n && n ≤ 0xDFFF) || (0xFDD0 ≤ n && n ≤ 0xFDEF) || n % 0x10000 == 0xFFFF
    || n % 0x10000 == 0xFFFE || n ≤ 0x8 || n == 0xB || (0xE ≤ n && n ≤ 0x1F) || (0x7F ≤ n && n ≤ 0x9F)
    || 0x10FFFF < n)

/-- The value of a digit in a base up to sixteen. -/
def digitValue? (base : Nat) (c : Char) : Option Nat :=
  let v :=
    if '0' ≤ c ∧ c ≤ '9' then c.toNat - '0'.toNat
    else if 'a' ≤ c ∧ c ≤ 'f' then c.toNat - 'a'.toNat + 10
    else if 'A' ≤ c ∧ c ≤ 'F' then c.toNat - 'A'.toNat + 10
    else base
  if v < base then some v else none

/-- The number that digits write in a base. -/
def number? (base : Nat) (digits : Text) : Option Nat :=
  if digits = [] then none
  else digits.foldl (fun n c => n.bind fun n => (digitValue? base c).map (base * n + ·)) (some 0)

/-- A reference between ampersand and semicolon. -/
inductive Ref where
  | number (n : Nat)
  | name (chars : Text)

/-- The reference that the characters between ampersand and semicolon form; numbers have at most
`decimals` decimal or `hexes` hexadecimal digits. -/
def ofBody? (decimals hexes : Nat) : Text → Option Ref
  | '#' :: 'x' :: ds | '#' :: 'X' :: ds =>
    if ds.length ≤ hexes then (number? 16 ds).map .number else none
  | '#' :: ds => if ds.length ≤ decimals then (number? 10 ds).map .number else none
  | c :: cs =>
    if c.isAlpha ∧ 1 ≤ cs.length ∧ cs.length ≤ 31 ∧ cs.all Char.isAlphanum then
      (named? (c :: cs)).map .name
    else none
  | [] => none

/-- The reference at the start of a text that follows an ampersand: its body and meaning. -/
def take? (decimals hexes : Nat) (t : Text) : Option (Text × Ref) :=
  let body := t.takeWhile fun c => c.isAlphanum || c = '#'
  if t[body.length]? = some ';' then (ofBody? decimals hexes body).map fun r => (body, r) else none

/-- The characters of a reference that is read on its own. -/
def Ref.text : Ref → Text
  | number n => [if isAllowed n then Char.ofNat n else Char.ofNat 0xFFFD]
  | name cs => cs

/-- The characters of a reference inside a link target or title, if it stands for any. -/
def Ref.text? : Ref → Option Text
  | number n => if isAllowed n then some [Char.ofNat n] else none
  | name cs => some cs

/-- A text with backslash escapes and references resolved, passing over `skip` characters. -/
def resolveFrom : Nat → Text → Text
  | _, [] => []
  | skip + 1, _ :: t => resolveFrom skip t
  | 0, c :: t =>
    match c, t with
    | '\\', d :: _ => if isAsciiSymbol d then d :: resolveFrom 1 t else '\\' :: resolveFrom 0 t
    | '&', _ =>
      match take? 8 8 t with
      | some (body, r) =>
        match r.text? with
        | some cs => cs ++ resolveFrom (body.length + 1) t
        | none => '&' :: resolveFrom 0 t
      | none => '&' :: resolveFrom 0 t
    | c, _ => c :: resolveFrom 0 t

/-- A text with backslash escapes and references resolved. -/
def resolve (t : Text) : Text := resolveFrom 0 t

end MdxSafe.Entity
