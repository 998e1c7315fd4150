-- SUMMARY: Reading and writing files on a disk, making directories, and asking what a path leads to.
import MdxSafe.Disk.Basic

/-!
# Access to a disk

An operation gives its result, and a disk if it changes one, or says why it failed. A disk is never
changed by an operation that fails, except for directories made above one that cannot be made. Questions
about a path that leads nowhere, or is none, are answered in the negative; only an overlong path is refused.
-/

namespace MdxSafe.Disk

-- ---------------------------------------------------------------------------
-- Questions
-- ---------------------------------------------------------------------------

/-- The entry that a path leads to, if it leads anywhere. -/
def status (d : Disk) (p : Path) : Except DiskError (Option Entry) :=
  match d.resolve .follow p with
  | .ok (.found _ e) => .ok (some e)
  | .ok (.free _ _) | .error .missing | .error .notDirectory | .error .linkLoop | .error .nullCharacter => .ok none
  | .error cause => .error ⟨cause, p⟩

/-- Whether a path leads to an entry. -/
def isThere (d : Disk) (p : Path) : Except DiskError Bool := (d.status p).map Option.isSome

/-- Whether a path leads to a directory. -/
def isDirectory (d : Disk) (p : Path) : Except DiskError Bool :=
  (d.status p).map fun e =>
    match e with
    | some (.directory _ _) => true
    | _ => false

/-- Whether a path leads to a file. -/
def isFile (d : Disk) (p : Path) : Except DiskError Bool :=
  (d.status p).map fun e =>
    match e with
    | some (.file _) => true
    | _ => false

-- ---------------------------------------------------------------------------
-- Files
-- ---------------------------------------------------------------------------

/-- The content of a file. -/
def read (d : Disk) (p : Path) : Except DiskError Bytes :=
  match d.resolve .follow p with
  | .ok (.found _ (.file bytes)) => .ok bytes
  | .ok (.found _ (.directory _ _)) => .error ⟨.isDirectory, p⟩
  | .ok (.found _ _) => .error ⟨.noDevice, p⟩
  | .ok (.free _ _) => .error ⟨.missing, p⟩
  | .error cause => .error ⟨cause, p⟩

/-- The disk with the content of a file replaced, or with a new file. -/
def write (d : Disk) (p : Path) (bytes : Bytes) : Except DiskError Disk :=
  match d.resolve .create p with
  | .ok (.found spot (.file _)) => .ok { d with root := d.root.put (.file bytes) spot }
  | .ok (.found _ (.directory _ _)) => .error ⟨.isDirectory, p⟩
  | .ok (.found _ _) => .error ⟨.noDevice, p⟩
  | .ok (.free spot name) => .ok { d with root := d.root.put (.file bytes) (spot ++ [name]) }
  | .error cause => .error ⟨cause, p⟩

/-- Why a file gives no text. -/
inductive ReadError where
  | disk (e : DiskError)
  | encoding (e : Utf8.Failure)
  deriving DecidableEq, Repr

/-- What to tell about a file that gives no text. -/
def ReadError.message : ReadError → Text
  | disk e => e.message
  | encoding e => e.message

/-- The text of a file. -/
def readText (d : Disk) (p : Path) : Except ReadError Text :=
  match d.read p with
  | .error e => .error (.disk e)
  | .ok bytes => (Utf8.decode bytes).mapError .encoding

/-- The disk with the text of a file replaced, or with a new file. -/
def writeText (d : Disk) (p : Path) (t : Text) : Except DiskError Disk := d.write p (Utf8.encode t)

-- ---------------------------------------------------------------------------
-- Directories
-- ---------------------------------------------------------------------------

/-- The entries of a directory, if it can be read. -/
def list (d : Disk) (p : Path) : Except DiskError (List (Text × Entry)) :=
  match d.resolve .follow p with
  | .ok (.found _ (.directory true es)) => .ok es
  | .ok (.found _ (.directory false _)) => .error ⟨.denied, p⟩
  | .ok (.found _ _) => .error ⟨.notDirectory, p⟩
  | .ok (.free _ _) => .error ⟨.missing, p⟩
  | .error cause => .error ⟨cause, p⟩

/-- The disk with a new directory. -/
def makeDirectory (d : Disk) (p : Path) : Except DiskError Disk :=
  match d.resolve .keep p with
  | .ok (.found _ _) => .error ⟨.occupied, p⟩
  | .ok (.free spot name) => .ok { d with root := d.root.put (.directory true []) (spot ++ [name]) }
  | .error cause => .error ⟨cause, p⟩

/-- The disk with a directory that may be there already. -/
def ensureDirectory (d : Disk) (p : Path) : Except DiskError Disk :=
  match d.makeDirectory p with
  | .ok d => .ok d
  | .error e =>
    if e.cause = .missing then .error e
    else match d.isDirectory p with
      | .ok true => .ok d
      | .ok false => .error e
      | .error e => .error e

/-- A disk after an operation that may fail, and why it failed, if it did. -/
def orElse (d : Disk) : Except DiskError Disk → Disk × Option DiskError
  | .ok d => (d, none)
  | .error e => (d, some e)

/-- The disk with a directory and what is missing above it, at most `levels` levels up. If the directory
cannot be made, those made above it stay, and the reason is given. -/
def ensureDirectoriesUpTo (d : Disk) (anchor : Anchor) : Nat → List Text → Disk × Option DiskError
  | 0, parts => d.orElse (d.ensureDirectory ⟨anchor, parts⟩)
  | levels + 1, parts =>
    match d.ensureDirectory ⟨anchor, parts⟩ with
    | .ok d => (d, none)
    | .error e =>
      if e.cause = .missing ∧ parts ≠ [] then
        match ensureDirectoriesUpTo d anchor levels parts.dropLast with
        | (d, none) => d.orElse (d.ensureDirectory ⟨anchor, parts⟩)
        | failed => failed
      else (d, some e)

/-- The disk with a directory and what is missing above it. -/
def ensureDirectories (d : Disk) (p : Path) : Disk × Option DiskError :=
  d.ensureDirectoriesUpTo p.anchor p.parts.length p.parts

/-- The disk with an entry at a path, and directories above it. Nothing changes if there can be none. -/
def place (d : Disk) (p : Path) (e : Entry) : Disk :=
  match d.ensureDirectories p.parent with
  | (_, some _) => d
  | (above, none) =>
    match above.resolve .keep p with
    | .ok (.found spot _) => { above with root := above.root.put e spot }
    | .ok (.free spot name) => { above with root := above.root.put e (spot ++ [name]) }
    | .error _ => d

end MdxSafe.Disk
