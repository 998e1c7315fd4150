-- SUMMARY: URLs taken apart and put together.
import MdxSafe.Text.Basic
import MdxSafe.Text.Blank
import MdxSafe.Text.Case

/-!
# URLs

`Url.parse` takes any text apart into the parts of a URL, and `Url.format` puts parts together. The
reading is lenient: there is no text it refuses. A host is read after `//`, and after a scheme that is
not one of the hierarchical ones; what cannot belong to a host falls to the path.
-/

namespace MdxSafe

/-- The parts of a URL; an absent part is empty. -/
structure Url where
  /-- The scheme with its colon. -/
  scheme : Text := []
  /-- Whether `//` follows the scheme. -/
  slashes : Bool := false
  auth : Text := []
  host : Text := []
  /-- The digits after the host. -/
  portNumber : Text := []
  path : Text := []
  query : Text := []
  fragment : Text := []
  deriving Repr, Inhabited, DecidableEq

namespace Url

/-- A character of a scheme; letters count without regard to case. -/
def isSchemeChar (c : Char) : Bool := isPlainLetter c || c.isDigit || c = '.' || c = '+' || c = '-'

/-- The scheme at the start of a text, with its colon, and the rest. -/
def takeScheme (t : Text) : Text × Text :=
  let name := t.takeWhile isSchemeChar
  match t.drop name.length with
  | ':' :: rest => if name = [] then ([], t) else (name ++ [':'], rest)
  | _ => ([], t)

/-- Schemes whose URLs have a host only after `//`. -/
def hierarchical : List Text := ["http:", "https:", "ftp:", "gopher:", "file:"].map String.toList

/-- A character that no host holds. -/
def endsHost (c : Char) : Bool := decide (c ∈ "%/?;#'\x7b\x7d|\\^`<>\" \r\n\t".toList)

/-- A character after which no `@` belongs to the part before the host. -/
def endsAuth (c : Char) : Bool := c = '/' || c = '?' || c = '#'

/-- A character of a label of a host; any character beyond ASCII counts as one. -/
def isHostChar (c : Char) : Bool :=
  c.isAlphanum || c = '+' || c = '_' || c = '-' || 0x7F < c.toNat

/-- A character of a label of a host within ASCII. -/
def isAsciiHostChar (c : Char) : Bool := c.isAlphanum || c = '+' || c = '_' || c = '-'

/-- What stands before and after the last `@` that comes before any end of the authority. -/
def splitAuth (t : Text) : Option (Text × Text) :=
  let head := t.takeWhile fun c => !endsAuth c
  if '@' ∈ head then
    let tail := (head.reverse.takeWhile (· ≠ '@')).length
    some (head.take (head.length - tail - 1), t.drop (head.length - tail))
  else none

/-- A host and the number at its end, which stands after a colon. A lone colon is dropped. -/
def splitNumber (host : Text) : Text × Text :=
  let digits := (host.reverse.takeWhile Char.isDigit).reverse
  let head := host.take (host.length - digits.length)
  if head.getLast? = some ':' then (head.dropLast, digits) else (host, [])

/-- Whether a label of a host is valid. -/
def isLabel (l : Text) : Bool := l.all isHostChar && l.length ≤ 63

/-- A host cut before the first invalid label, inside which its valid start is kept; and the labels
that fall to the path. -/
def validHost (done : List Text) : List Text → Text × Option Text
  | [] => (Text.join "." done.reverse, none)
  | l :: ls =>
    if isLabel l then validHost (l :: done) ls
    else
      let good := (l.takeWhile isAsciiHostChar).take 63
      (Text.join "." (done.reverse ++ [good]), some (Text.join "." (l.drop good.length :: ls)))

/-- Whether a host stands in brackets. -/
def isBracketed (host : Text) : Bool := host.head? = some '[' && host.getLast? = some ']'

/-- A URL with the authority at the start of `t` read into it, and the rest. -/
def takeAuthority (u : Url) (t : Text) : Url × Text :=
  let (auth, t) := (splitAuth t).getD ([], t)
  let all := t.takeWhile fun c => !endsHost c
  let all := if all.getLast? = some ':' then all.dropLast else all
  let rest := t.drop all.length
  let (host, portNumber) := splitNumber all
  let u := { u with auth, portNumber }
  if isBracketed host then
    let inner := (host.drop 1).take (host.length - 2)
    ({ u with host := if 255 < host.length then [] else inner }, rest)
  else
    let (host, spill) := validHost [] (Text.splitOn '.' host)
    ({ u with host := if 255 < host.length then [] else host }, spill.getD [] ++ rest)

/-- A URL with path, query and fragment read into it. -/
def takePath (u : Url) (t : Text) : Url :=
  let beforeFragment := t.takeWhile (· ≠ '#')
  let path := beforeFragment.takeWhile (· ≠ '?')
  { u with
    path
    query := beforeFragment.drop path.length
    fragment := t.drop beforeFragment.length }

/-- The parts of a URL. Blanks around it do not count. -/
def parse (t : Text) : Url :=
  let (scheme, rest) := takeScheme (Text.trimBlank t)
  let u : Url := { scheme }
  if scheme = "javascript:".toList then takePath u rest
  else
    let slashes := Text.startsWith rest "//"
    let u := { u with slashes }
    let rest := if slashes then rest.drop 2 else rest
    if slashes || (scheme ≠ [] && decide (scheme ∉ hierarchical)) then
      let (u, rest) := takeAuthority u rest
      takePath u rest
    else takePath u rest

/-- The text of a URL around its host: the parts before and after it. -/
def around (u : Url) : Text × Text :=
  (u.scheme ++ (if u.slashes then "//".toList else []) ++ (if u.auth = [] then [] else u.auth ++ ['@']),
   (if u.portNumber = [] then [] else ':' :: u.portNumber) ++ u.path ++ u.query ++ u.fragment)

/-- Whether the host is an address to be written in brackets. -/
def hasAddress (u : Url) : Bool := decide (':' ∈ u.host)

/-- The text of a URL. -/
def format (u : Url) : Text :=
  let a := u.around
  a.1 ++ (if u.hasAddress then '[' :: u.host ++ [']'] else u.host) ++ a.2

end Url
end MdxSafe
