-- SUMMARY: Autolinks: targets between angle brackets that are their own text.
import MdxSafe.Text.Blank
import MdxSafe.Url.Link

/-!
# Autolinks

`<scheme:rest>` and `<local@host>`. What stands between the brackets has no blank and no bracket.
-/

namespace MdxSafe.Autolink

/-- A character of a scheme after its first letter. -/
def isSchemeChar (c : Char) : Bool := c.isAlphanum || c = '+' || c = '.' || c = '-'

/-- Whether a text is an absolute URL: a scheme of two to thirty-two characters, a colon, visible
characters. -/
def isAbsolute (t : Text) : Bool :=
  let scheme := t.takeWhile isSchemeChar
  let body := t.drop (scheme.length + 1)
  (scheme.head?.any Char.isAlpha) && 2 ≤ scheme.length && scheme.length ≤ 32
    && t[scheme.length]? == some ':'
    && body.all fun c => 0x20 < c.toNat && c != '<' && c != '>'

/-- A character of the local part of a mail address. -/
def isLocalChar (c : Char) : Bool := c.isAlphanum || decide (c ∈ ".!#$%&'*+/=?^_`\x7b|\x7d~-".toList)

/-- Whether a text is a label of a mail host. -/
def isHostLabel (l : Text) : Bool :=
  l ≠ [] && l.length ≤ 63 && (l.head?.any Char.isAlphanum) && (l.getLast?.any Char.isAlphanum)
    && l.all fun c => c.isAlphanum || c = '-'

/-- Whether a text is a mail address. -/
def isMail (t : Text) : Bool :=
  let name := t.takeWhile isLocalChar
  match t.drop name.length with
  | '@' :: host => name ≠ [] && (Text.splitOn '.' host).all isHostLabel
  | _ => false

/-- The text without one line end at its end. -/
def chomp (t : Text) : Text := if t.getLast? = some '\n' then t.dropLast else t

/-- The target and the visible text of an autolink, given what stands between the brackets. -/
def ofBody? (t : Text) : Option (Text × Text) :=
  let link (url : Text) : Option (Text × Text) :=
    let href := Url.normalize url
    if Url.isSafe href then some (href, Url.readable t) else none
  if isAbsolute t || isAbsolute (chomp t) then link t
  else if isMail t || isMail (chomp t) then link ("mailto:".toList ++ t)
  else none

end MdxSafe.Autolink
