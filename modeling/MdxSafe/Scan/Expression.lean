-- SUMMARY: Curly braces that an MDX renderer would read as an expression.
import MdxSafe.Text.Blank

/-!
# Curly expressions

An expression is `\x7b`, a character that is neither blank nor `/` nor `*`, and everything up to the next
`\x7d` after that character. Expressions are read from the left and do not overlap.
-/

namespace MdxSafe.Expression

/-- The expression at the start of a text. -/
def read? : Text → Option Text
  | '\x7b' :: c :: t =>
    if isBlank c || c = '/' || c = '*' then none
    else (Text.cut? ['\x7d'] t).map fun r => '\x7b' :: c :: r.1 ++ ['\x7d']
  | _ => none

/-- The expressions of a text; its first `skip` characters belong to the last one. -/
def findFrom : Nat → Text → List Text
  | _, [] => []
  | skip + 1, _ :: t => findFrom skip t
  | 0, c :: t =>
    match read? (c :: t) with
    | some e => e :: findFrom (e.length - 1) t
    | none => findFrom 0 t

/-- The expressions of a text from left to right. -/
def findAll (t : Text) : List Text := findFrom 0 t

end MdxSafe.Expression
