-- SUMMARY: Addresses in the place of file names: which texts are taken for one, and what opening one gives.
import MdxSafe.Disk.Access
import MdxSafe.Text.Blank
import MdxSafe.Text.Case
import MdxSafe.Url.Percent

/-!
# Addresses

A file name that starts with a known scheme and a colon is taken for an address, and is opened for reading.
Its slashes were brought together like those of any path, so it never names a host: only an address of the
scheme `file` can be opened, and that gives a copy of the file. What is written to it is lost.
-/

namespace MdxSafe.Report

/-- Why an address cannot be opened. -/
inductive AddressError where
  | noHost
  /-- There is no host to fetch the file from. -/
  | noFileHost
  | unknownType (name : Text)
  /-- The file of this name cannot be read. -/
  | file (cause : DiskFault) (name : Text)
  deriving DecidableEq, Repr

namespace AddressError

/-- Whether the address was refused, and not the name of its file was none. -/
def isRefusal : AddressError → Bool
  | file cause _ => cause.isRefusal
  | _ => true

/-- What to tell about an address that cannot be opened. -/
def message : AddressError → Text
  | noHost => "<urlopen error no host given>"
  | noFileHost => "<urlopen error ftp error: no host given>"
  | unknownType name => "<urlopen error unknown url type: ".toList ++ name ++ ['>']
  | file cause name =>
    if cause.isRefusal then "<urlopen error ".toList ++ cause.message name ++ ['>'] else cause.message name

end AddressError

namespace Address

/-- The schemes of addresses. -/
def schemes : List Text :=
  ["file", "ftp", "git", "git+ssh", "gopher", "hdl", "http", "https", "imap", "mms", "nfs", "nntp", "prospero",
   "rsync", "rtsp", "rtsps", "rtspu", "sftp", "shttp", "sip", "sips", "snews", "svn", "svn+ssh", "tel", "telnet",
   "wais", "ws", "wss"]

/-- A character that may stand before the scheme without counting. -/
def isLead (c : Char) : Bool := c.toNat ≤ 0x20

/-- A character that does not count anywhere in a scheme. -/
def isIgnored (c : Char) : Bool := c = '\t' || c = '\n' || c = '\r'

/-- Whether a text is taken for an address. -/
def isAddress (t : Text) : Bool :=
  match Text.cut? [':'] ((Text.trimLeft isLead t).filter fun c => !isIgnored c) with
  | some (scheme, _) => schemes.any (· = scheme.map Char.toLower)
  | none => false

/-- What stands before the last `#`, if there is one. -/
def withoutFragment (t : Text) : Text :=
  match (t.reverse.dropWhile (· ≠ '#')) with
  | [] => t
  | _ :: before => before.reverse

/-- The type of an address, and what it leads to. -/
def parts (t : Text) : Text × Text :=
  match Text.cut? [':'] (withoutFragment (Text.trimBlank t)) with
  | some (type, rest) => (Text.lower type, rest)
  | none => ([], t)

/-- The name of the file that an address leads to. -/
def file (t : Text) : Except AddressError Text :=
  let (type, rest) := parts t
  match String.ofList type with
  | "http" | "https" => .error .noHost
  | "ftp" => .error .noFileHost
  | "file" => .ok (Percent.fileName rest)
  | _ => .error (.unknownType type)

/-- Open an address. -/
def openAddress (d : Disk) (t : Text) : Except AddressError Unit := do
  let name ← file t
  if name = [] then throw (.file .missing name)
  match d.read (.ofText name) with
  | .error e => throw (.file e.cause name)
  | .ok _ => return

end Address
end MdxSafe.Report
