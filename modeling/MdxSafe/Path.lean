-- SUMMARY: File paths: anchors and parts, joining, relative paths, names and suffixes.
import MdxSafe.Text.Quoted

/-!
# Paths

A path is an anchor and a list of parts. Empty parts and `.` are dropped when a path is read; `..` is kept,
since what it leads to depends on the files. Two leading slashes are an anchor of their own, three or
more are as good as one.
-/

namespace MdxSafe

/-- Where a path starts. -/
inductive Anchor where
  /-- The current directory. -/
  | here
  | root
  /-- A root written with two slashes. -/
  | doubleRoot
  deriving DecidableEq, Repr, Inhabited

/-- How an anchor is written. -/
def Anchor.toText : Anchor → Text
  | here => []
  | root => "/"
  | doubleRoot => "//"

/-- A path. -/
structure Path where
  anchor : Anchor := .here
  parts : List Text := []
  deriving DecidableEq, Repr, Inhabited

namespace Path

/-- The parts of a text between slashes, without those that lead nowhere. -/
def partsOf (t : Text) : List Text := (Text.splitOn '/' t).filter fun p => p ≠ [] ∧ p ≠ ['.']

/-- The anchor of a text. -/
def anchorOf (t : Text) : Anchor :=
  match (t.takeWhile (· = '/')).length with
  | 0 => .here
  | 2 => .doubleRoot
  | _ => .root

/-- A path from its text. -/
def ofText (t : Text) : Path := ⟨anchorOf t, partsOf t⟩

/-- The text of a path; the empty path is a period. -/
def toText (p : Path) : Text :=
  match p.anchor.toText ++ Text.join ['/'] p.parts with
  | [] => ['.']
  | t => t

instance : Coe String Path := ⟨fun s => ofText s.toList⟩

/-- Whether a path does not depend on the current directory. -/
def isAbsolute (p : Path) : Bool := p.anchor ≠ .here

/-- A path taken from a directory; an absolute one does not depend on it. -/
def join (dir p : Path) : Path := if p.isAbsolute then p else ⟨dir.anchor, dir.parts ++ p.parts⟩

/-- An entry of a directory. -/
def child (dir : Path) (name : Text) : Path := ⟨dir.anchor, dir.parts ++ [name]⟩

/-- The directory that holds the entry of a path. -/
def parent (p : Path) : Path := ⟨p.anchor, p.parts.dropLast⟩

/-- The last part; empty if there is none. -/
def name (p : Path) : Text := p.parts.getLastD []

/-- What follows `lead` in a list, if the list starts with it. -/
def partsAfter? : List Text → List Text → Option (List Text)
  | [], parts => some parts
  | _ :: _, [] => none
  | a :: lead, b :: parts => if a = b then partsAfter? lead parts else none

/-- The path as seen from a directory above it. -/
def relativeTo? (p dir : Path) : Option Path :=
  if p.anchor = dir.anchor then (partsAfter? dir.parts p.parts).map fun parts => ⟨.here, parts⟩ else none

/-- The end of the name from its last period on, if something stands before and after that. -/
def suffix (p : Path) : Text :=
  let tail := p.name.reverse.takeWhile (· ≠ '.')
  if tail = [] ∨ p.name.length ≤ tail.length + 1 then [] else '.' :: tail.reverse

-- ---------------------------------------------------------------------------
-- Names
-- ---------------------------------------------------------------------------

/-- Why the name of a path cannot be replaced. -/
inductive NameError where
  /-- The path has no name. -/
  | unnamed (p : Path)
  /-- The new name is not the name of one file. -/
  | invalid (name : Text)
  deriving DecidableEq, Repr

/-- What to tell about a name that cannot be replaced. -/
def NameError.message : NameError → Text
  | unnamed p => "PosixPath(".toList ++ Text.quoted p.toText ++ ") has an empty name".toList
  | invalid name => "Invalid name ".toList ++ Text.quoted name

/-- The path with another name. -/
def withName (p : Path) (name : Text) : Except NameError Path :=
  if p.name = [] then .error (.unnamed p)
  else if name.getLast? = some '/' ∨ anchorOf name ≠ .here ∨ (partsOf name).length ≠ 1 then
    .error (.invalid name)
  else .ok ⟨p.anchor, p.parts.dropLast ++ [name]⟩

/-- Where the backup of a file is kept: beside it, under its name and a suffix. -/
def backup (p : Path) (suffix : Text) : Except NameError Path := p.withName (p.name ++ suffix)

-- ---------------------------------------------------------------------------
-- Directories given by name
-- ---------------------------------------------------------------------------

/-- The path for readers: as seen from a directory, if it lies below it. -/
def display (p : Path) (base : Option Path) : Text :=
  match base.bind p.relativeTo? with
  | some q => q.toText
  | none => p.toText

/-- Root directories from their names, taken from a base directory. -/
def resolveRoots (names : List Text) (base : Path) : List Path := names.map fun n => base.join (ofText n)

end Path
end MdxSafe
