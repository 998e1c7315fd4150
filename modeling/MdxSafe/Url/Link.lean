-- SUMMARY: Link targets: normal form, readable form, and the schemes that are refused.
import MdxSafe.Text.Case
import MdxSafe.Url.Basic
import MdxSafe.Url.Percent
import MdxSafe.Url.Punycode

/-!
# Link targets

A link target is written with its host in ASCII form and everything else percent-encoded; what a
reader sees instead is decoded. Targets whose scheme could run code are refused.
-/

namespace MdxSafe.Url

/-- Whether the host of a URL has a form in ASCII: the scheme is one of the web or of mail, or absent. -/
def hostIsRecoded (u : Url) : Bool :=
  u.host ≠ [] && ["", "http:", "https:", "mailto:"].any fun s => s.toList = u.scheme

/-- The encoded text of a URL; the brackets around an address stay. -/
def encoded (u : Url) : Text :=
  if u.hasAddress then
    let a := u.around
    Percent.encode a.1 ++ '[' :: Percent.encode u.host ++ [']'] ++ Percent.encode a.2
  else Percent.encode u.format

/-- The normal form of a link target. -/
def normalize (t : Text) : Text :=
  let u := parse t
  encoded (if u.hostIsRecoded then { u with host := Punycode.toAscii u.host } else u)

/-- The form of a link target that a reader sees. -/
def readable (t : Text) : Text :=
  let u := parse t
  let host := if u.hostIsRecoded then (Punycode.toUnicode? u.host).getD u.host else u.host
  Percent.decode { u with host }.format

/-- Whether a link target may be used. -/
def isSafe (t : Text) : Bool :=
  let t := Text.lower (Text.trimBlank t)
  let starts (s : String) : Bool := Text.startsWith t s
  if starts "data:" then
    starts "data:image/gif;" || starts "data:image/png;" || starts "data:image/jpeg;"
      || starts "data:image/webp;"
  else !(starts "vbscript:" || starts "javascript:" || starts "file:")

end MdxSafe.Url
