-- SUMMARY: Disks as trees of directories, files and links, and how a path leads to an entry.
import MdxSafe.Path
import MdxSafe.Text.Utf8

/-!
# Disks

A disk is a tree of entries and the place of the current directory in it. `Disk.resolve` follows a path
through directories and links to an entry, or to the place where one could be made. At most forty links
are followed on the way. What is done with the last name (`LastName`) depends on what the entry is for.
-/

namespace MdxSafe

/-- Why the disk refuses an operation. -/
inductive DiskFault where
  | missing
  | noDevice
  | denied
  | occupied
  | notDirectory
  | isDirectory
  | nameTooLong
  | linkLoop
  /-- The path holds a null character; the disk is not even asked. -/
  | nullCharacter
  deriving DecidableEq, Repr

namespace DiskFault

/-- The number of a cause, if the disk gives one. -/
def number? : DiskFault → Option Nat
  | missing => some 2
  | noDevice => some 6
  | denied => some 13
  | occupied => some 17
  | notDirectory => some 20
  | isDirectory => some 21
  | nameTooLong => some 36
  | linkLoop => some 40
  | nullCharacter => none

/-- Whether the disk gives the cause, and not the path is none. -/
def isRefusal (cause : DiskFault) : Bool := cause.number?.isSome

/-- The wording of a cause. -/
def wording : DiskFault → String
  | missing => "No such file or directory"
  | noDevice => "No such device or address"
  | denied => "Permission denied"
  | occupied => "File exists"
  | notDirectory => "Not a directory"
  | isDirectory => "Is a directory"
  | nameTooLong => "File name too long"
  | linkLoop => "Too many levels of symbolic links"
  | nullCharacter => "embedded null byte"

/-- What to tell about a cause, for a path that is shown in one way or another. -/
def message (cause : DiskFault) (shown : Text) : Text :=
  match cause.number? with
  | some n =>
    "[Errno ".toList ++ Text.ofNat n ++ "] ".toList ++ cause.wording.toList ++ ": ".toList ++ Text.quoted shown
  | none => cause.wording.toList

end DiskFault

/-- A failed operation on a path. -/
structure DiskError where
  cause : DiskFault
  path : Path
  deriving DecidableEq, Repr

namespace DiskError

/-- Whether the disk refused the operation, and not the path was none. -/
def isRefusal (e : DiskError) : Bool := e.cause.isRefusal

/-- What to tell about a failed operation. -/
def message (e : DiskError) : Text := e.cause.message e.path.toText

end DiskError

/-- What a name in a directory stands for. -/
inductive Entry where
  | file (bytes : Bytes)
  | directory (readable : Bool) (entries : List (Text × Entry))
  | link (target : Text)
  /-- Neither file nor directory nor link. -/
  | special
  deriving Repr, Inhabited

/-- A place on a disk: the names on the way down from the root, none of them a link. -/
abbrev Spot := List Text

namespace Entry

/-- The entry of a name. -/
def find? (es : List (Text × Entry)) (name : Text) : Option Entry :=
  (es.find? fun e => e.1 = name).map Prod.snd

/-- Entries with one set: in place of the one of its name, or at the end. -/
def set (es : List (Text × Entry)) (name : Text) (entry : Entry) : List (Text × Entry) :=
  match es with
  | [] => [(name, entry)]
  | e :: rest => if e.1 = name then (name, entry) :: rest else e :: set rest name entry

/-- The entry at a spot below this one. -/
def at? (entry : Entry) : Spot → Option Entry
  | [] => some entry
  | name :: spot =>
    match entry with
    | directory _ es =>
      match find? es name with
      | some e => e.at? spot
      | none => none
    | _ => none

/-- The entry with another one put at a spot below it, if the spot lies in a directory. -/
def put (entry new : Entry) : Spot → Entry
  | [] => new
  | name :: spot =>
    match entry with
    | directory readable es =>
      match find? es name, spot with
      | some e, spot => directory readable (set es name (e.put new spot))
      | none, [] => directory readable (set es name new)
      | none, _ => directory readable es
    | e => e

end Entry

/-- A disk. -/
structure Disk where
  root : Entry
  /-- Where the current directory is. -/
  current : Spot := []
  deriving Repr, Inhabited

namespace Disk

/-- The path of the current directory. -/
def currentPath (d : Disk) : Path := ⟨.root, d.current⟩

/-- Where a path leads. -/
inductive Target where
  /-- To an entry. -/
  | found (spot : Spot) (entry : Entry)
  /-- To a name that is free in a directory. -/
  | free (directory : Spot) (name : Text)
  deriving Repr

/-- The greatest length of a name, in bytes. -/
def maxNameLength : Nat := 255

/-- What is done with the last name of a path. -/
inductive LastName where
  /-- A link of this name is followed. -/
  | follow
  /-- A link of this name is the entry itself. -/
  | keep
  /-- A link of this name is followed, and a file may be made. A slash after the name, as the target of a
  link may have one, tells that it is meant for a directory, and is refused. -/
  | create
  deriving DecidableEq, Repr

/-- Follow names from a spot. A link on the way is left to `expand`, with the names that follow it. -/
def walkFrom (root : Entry) (last : LastName) (expand : Spot → List Text → Except DiskFault Target) (spot : Spot) :
    List Text → Except DiskFault Target
  | [] =>
    match root.at? spot with
    | some e => .ok (.found spot e)
    | none => .error .missing
  | name :: rest =>
    match root.at? spot with
    | some (.directory _ es) =>
      if name = [] ∨ name = ['.'] then walkFrom root last expand spot rest
      else if name = ['.', '.'] then walkFrom root last expand spot.dropLast rest
      else if last = .create ∧ rest ≠ [] ∧ rest.all (· = []) then .error .isDirectory
      else if maxNameLength < (Utf8.encode name).length then .error .nameTooLong
      else
        match Entry.find? es name with
        | none => if rest = [] then .ok (.free spot name) else .error .missing
        | some (.link target) =>
          if rest = [] ∧ last = .keep then .ok (.found (spot ++ [name]) (.link target))
          else
            let start := if target.head? = some '/' then [] else spot
            expand start (Text.splitOn '/' target ++ rest)
        | some _ => walkFrom root last expand (spot ++ [name]) rest
    | some _ => .error .notDirectory
    | none => .error .missing

/-- Follow names from a spot over at most `links` links. -/
def walk (root : Entry) (last : LastName) : Nat → Spot → List Text → Except DiskFault Target
  | 0 => walkFrom root last fun _ _ => .error .linkLoop
  | links + 1 => walkFrom root last (walk root last links)

/-- How many links are followed at most. -/
def maxLinks : Nat := 40

/-- The greatest length of the text of a path, in bytes. -/
def maxPathLength : Nat := 4095

/-- Where a path leads. -/
def resolve (d : Disk) (last : LastName) (p : Path) : Except DiskFault Target :=
  let t := p.toText
  if t.any fun c => c.toNat = 0 then .error .nullCharacter
  else if maxPathLength < (Utf8.encode t).length then .error .nameTooLong
  else walk d.root last maxLinks (if p.isAbsolute then [] else d.current) (Text.splitOn '/' t)

end Disk
end MdxSafe
