-- SUMMARY: HTML comments turned into expression comments.
import MdxSafe.Text.Blank

/-!
# Comments

A comment of HTML reaches from `<!--` to the first `-->`. In an expression comment the same body stands
between other marks, without the blanks around it.
-/

namespace MdxSafe.Comment

/-- What opens an HTML comment. -/
def opener : Text := "<!--"

/-- What closes an HTML comment. -/
def closer : Text := "-->"

/-- An expression comment with a body. -/
def expression (body : Text) : Text := "\x7b/* ".toList ++ body ++ " */\x7d".toList

/-- The body of the comment at the start of a text, and the length of that comment. -/
def read? (t : Text) : Option (Text × Nat) :=
  match Text.after? opener t with
  | none => none
  | some rest =>
    match Text.cut? closer rest with
    | none => none
    | some (body, _) => some (Text.trimBlank body, opener.length + body.length + closer.length)

/-- The text with its comments converted; `skip` characters belong to a comment already converted. -/
def convertFrom : Nat → Text → Text
  | _, [] => []
  | skip + 1, _ :: t => convertFrom skip t
  | 0, c :: t =>
    match read? (c :: t) with
    | some (body, length) => expression body ++ convertFrom (length - 1) t
    | none => c :: convertFrom 0 t

/-- The text with every HTML comment turned into an expression comment. -/
def convert (t : Text) : Text := convertFrom 0 t

end MdxSafe.Comment
