-- SUMMARY: Inline HTML: tags, comments, instructions, declarations, character data.
import MdxSafe.Text.Blank

/-!
# Inline HTML

What counts as one piece of HTML inside running text. Blanks between attributes may be any blanks, and
an unquoted attribute value may hold blanks beyond ASCII; where a value could end is therefore open,
and a reader of attributes yields every rest that it may leave, the longest value first.
-/

namespace MdxSafe.Tag

/-- A letter of the English alphabet. -/
def isLetter (c : Char) : Bool := c.isAlpha

/-- A character of a tag name after its first letter. -/
def isNameChar (c : Char) : Bool := c.isAlphanum || c = '-'

/-- The first character of an attribute name. -/
def isAttrStart (c : Char) : Bool := c.isAlpha || c = '_' || c = ':'

/-- A further character of an attribute name. -/
def isAttrChar (c : Char) : Bool := c.isAlphanum || c = ':' || c = '.' || c = '_' || c = '-'

/-- A character of an unquoted attribute value. -/
def isBareChar (c : Char) : Bool := 0x20 < c.toNat && decide (c ∉ "\"'=<>`".toList)

/-- What follows a tag name. -/
def afterName? : Text → Option Text
  | c :: t => if isLetter c then some (t.dropWhile isNameChar) else none
  | [] => none

/-- What follows the first occurrence of `stop`. -/
def afterStop? (stop : Text) (t : Text) : Option Text := (Text.cut? stop t).map Prod.snd

/-- The rests that an unquoted value leaves when it may end before `t`, the longest value first. -/
def bareRests : Text → List Text
  | [] => [[]]
  | c :: t =>
    if isBareChar c then bareRests t ++ (if isBlank c then [c :: t] else []) else [c :: t]

/-- The rests that an attribute value leaves. -/
def valueRests : Text → List Text
  | '"' :: t => (afterStop? ['"'] t).toList
  | '\'' :: t => (afterStop? ['\''] t).toList
  | c :: t => if isBareChar c then bareRests t else []
  | [] => []

/-- The text after each count of leading blanks, most blanks first. -/
def blankRests : Text → List Text
  | [] => [[]]
  | c :: t => if isBlank c then blankRests t ++ [c :: t] else [c :: t]

/-- The rests that the value part of an attribute leaves: with a value, then without one. -/
def assignmentRests (t : Text) : List Text :=
  (match t.dropWhile isBlank with
    | '=' :: u => (blankRests u).flatMap valueRests
    | _ => []) ++ [t]

/-- The rests that one attribute leaves, blanks before it included. -/
def attributeRests (t : Text) : List Text :=
  match t with
  | c :: _ =>
    if isBlank c then
      match t.dropWhile isBlank with
      | a :: u => if isAttrStart a then assignmentRests (u.dropWhile isAttrChar) else []
      | [] => []
    else []
  | [] => []

/-- The end of an opening tag: blanks, an optional slash, and the bracket. -/
def afterEnd? (t : Text) : Option Text :=
  match t.dropWhile isBlank with
  | '/' :: '>' :: u => some u
  | '>' :: u => some u
  | _ => none

/-- What follows the attributes and the end of an opening tag; `fuel` bounds the attributes. -/
def afterAttributes? : Nat → Text → Option Text
  | 0, t => afterEnd? t
  | fuel + 1, t =>
    ((attributeRests t).findSome? (afterAttributes? fuel)).or (afterEnd? t)

/-- What follows an opening tag, given what follows its bracket. -/
def afterOpen? (t : Text) : Option Text := (afterName? t).bind fun u => afterAttributes? u.length u

/-- What follows a closing tag, given what follows its bracket and slash. -/
def afterClose? (t : Text) : Option Text :=
  (afterName? t).bind fun u =>
    match u.dropWhile isBlank with
    | '>' :: v => some v
    | _ => none

/-- What follows the body of a comment and its end mark. A hyphen takes the next character with it, two
hyphens take the next one too, unless they close the comment. -/
def afterCommentBody? : Text → Option Text
  | [] => none
  | '-' :: '-' :: '>' :: t => some t
  | '-' :: '-' :: _ :: t => afterCommentBody? t
  | ['-', '-'] => none
  | '-' :: _ :: t => afterCommentBody? t
  | ['-'] => none
  | _ :: t => afterCommentBody? t

/-- What follows a comment, given what follows its opening mark. -/
def afterComment? : Text → Option Text
  | '>' :: t => some t
  | '-' :: '>' :: t => some t
  | t => afterCommentBody? t

/-- What follows a piece of HTML, given what follows its bracket. -/
def after? (t : Text) : Option Text :=
  match t with
  | '/' :: u => afterClose? u
  | '?' :: u => afterStop? "?>" u
  | '!' :: '-' :: '-' :: u => afterComment? u
  | '!' :: '[' :: 'C' :: 'D' :: 'A' :: 'T' :: 'A' :: '[' :: u => afterStop? "]]>" u
  | '!' :: c :: u => if isLetter c then afterStop? ['>'] u else none
  | u => afterOpen? u

/-- A line that holds one complete opening or closing tag and nothing but blanks after it. -/
def isWholeLine (t : Text) : Bool :=
  match t with
  | '<' :: u =>
    let rest := match u with
      | '/' :: v => afterClose? v
      | v => afterOpen? v
    match rest with
    | some r => r.all isBlank
    | none => false
  | _ => false

end MdxSafe.Tag
