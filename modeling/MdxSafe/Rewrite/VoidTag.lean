-- SUMMARY: Tags of void elements closed in place.
import MdxSafe.Text.Blank
import MdxSafe.Text.Case

/-!
# Void tags

A void tag is `<`, the name of a void element in letters of either case, a blank or `/` or nothing, and
whatever else up to the next `>`, as long as no other `<` comes before that. It is closed if the last
character before `>`, blanks apart, is `/`.
-/

namespace MdxSafe.VoidTag

/-- A tag as it was read: its name, what follows the name up to blanks before `>`, and its length. -/
structure Tag where
  name : Text
  attributes : Text
  length : Nat
  deriving DecidableEq, Repr

/-- Names in order with one more, in front of all that are not longer. -/
def insertName (name : Text) : List Text → List Text
  | [] => [name]
  | n :: ns => if n.length ≤ name.length then name :: n :: ns else n :: insertName name ns

/-- The element names in the order in which they are tried: longer ones first. If there are none, a tag has
no name. -/
def tryOrder (names : List Text) : List Text :=
  if names = [] then [[]] else names.foldr insertName []

/-- The leading part of a text that spells a name in letters of either case, and what follows it. -/
def spells? : Text → Text → Option (Text × Text)
  | [], t => some ([], t)
  | _ :: _, [] => none
  | a :: name, b :: t => if sameLetter a b then (spells? name t).map fun r => (b :: r.1, r.2) else none

/-- Whether a name may end before this text. -/
def endsName : Text → Bool
  | [] => false
  | c :: _ => isBlank c || c = '/' || c = '>'

/-- What stands before the first `>`, if no `<` comes earlier. -/
def inside? : Text → Option Text
  | [] => none
  | c :: t => if c = '>' then some [] else if c = '<' then none else (inside? t).map (c :: ·)

/-- The tag of an element at the start of a text from which `<` was taken. -/
def readName? (rest name : Text) : Option Tag :=
  match spells? name rest with
  | none => none
  | some (spelled, rest) =>
    if endsName rest then
      (inside? rest).map fun attributes =>
        ⟨spelled, Text.trimRight isBlank attributes, spelled.length + attributes.length + 2⟩
    else none

/-- The void tag at the start of a text. -/
def read? (names : List Text) : Text → Option Tag
  | '<' :: rest => names.findSome? (readName? rest)
  | _ => none

/-- Whether a tag is closed in place. -/
def Tag.isClosed (tag : Tag) : Bool := tag.attributes.getLast? = some '/'

/-- A tag closed in place. -/
def Tag.close (tag : Tag) : Text := '<' :: tag.name ++ tag.attributes ++ " />".toList

/-- The text with void tags closed, given the names in order; `skip` characters belong to a tag already
read, and are written out again if `keep` holds. -/
def closeFrom (names : List Text) (keep : Bool) : Nat → Text → Text
  | _, [] => []
  | skip + 1, c :: t => if keep then c :: closeFrom names keep skip t else closeFrom names keep skip t
  | 0, c :: t =>
    match read? names (c :: t) with
    | some tag =>
      if tag.isClosed then c :: closeFrom names true (tag.length - 1) t
      else tag.close ++ closeFrom names false (tag.length - 1) t
    | none => c :: closeFrom names true 0 t

/-- The text with every void tag closed. -/
def closeAll (names : List Text) (t : Text) : Text := closeFrom (tryOrder names) true 0 t

end MdxSafe.VoidTag
