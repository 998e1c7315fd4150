-- SUMMARY: Finding the documents below root directories.
import MdxSafe.Disk.Access
import MdxSafe.Log

/-!
# Discovery

The documents below a directory are the files whose name ends in the extension, and the links to such
files, in the order of their names at every level; what is below a directory stands at the place of its
name. Directories that are links, or cannot be read, are passed over. Roots are searched one after the
other, and those that are no directories contribute nothing. The search fails at the first root, link or path
below a root that the disk refuses to be asked about.
-/

namespace MdxSafe.Discovery

/-- What a search found. -/
structure Found where
  documents : List Path := []
  log : List Log.Entry := []

/-- What two searches found, one after the other. -/
def Found.append (a b : Found) : Found := ⟨a.documents ++ b.documents, a.log ++ b.log⟩

/-- A note of a search. -/
def note (message : Text) : Log.Entry := ⟨.debug, "loader.services.document_discovery_service", message⟩

/-- What was found by one search and the next, unless one of them failed; the earlier failure counts. -/
def andThen (a b : Except DiskError Found) : Except DiskError Found := a.bind fun x => b.map x.append

/-- What was found under the names of a directory, in the order of the names. -/
def inOrder (found : List (Text × Except DiskError Found)) : Except DiskError Found :=
  (found.mergeSort fun a b => Text.le a.1 b.1).foldr (fun f rest => andThen f.2 rest) (.ok {})

/-- What was found at a path, unless the path is too long to be asked about. -/
def asking (p : Path) (found : Except DiskError Found) : Except DiskError Found :=
  if Disk.maxPathLength < (Utf8.encode p.toText).length then .error ⟨.nameTooLong, p⟩ else found

/-- What a link at a path is taken for. -/
def ofLink (d : Disk) (extension : Text) (p : Path) : Except DiskError Found :=
  match d.isDirectory p, d.isFile p with
  | .error e, _ | _, .error e => .error e
  | .ok true, _ => .ok ⟨[], [note ("Skipping symlinked directory ".toList ++ p.toText ++ ['.'])]⟩
  | .ok false, .ok isFile => .ok ⟨if isFile && p.name.endsWith extension then [p] else [], []⟩

mutual
/-- The documents at and below an entry that is found at a path. -/
def ofEntry (d : Disk) (extension : Text) (p : Path) : Entry → Except DiskError Found
  | .file _ => .ok ⟨if p.name.endsWith extension then [p] else [], []⟩
  | .directory true es => inOrder (ofEntries d extension p es)
  | .directory false _ =>
    .ok ⟨[], [note ("Cannot read directory ".toList ++ p.toText ++ ": ".toList
      ++ (DiskError.mk .denied p).message)]⟩
  | .link _ => ofLink d extension p
  | .special => .ok {}
termination_by structural e => e

/-- The documents under each of the names of a directory. -/
def ofEntries (d : Disk) (extension : Text) (dir : Path) :
    List (Text × Entry) → List (Text × Except DiskError Found)
  | [] => []
  | (name, e) :: es =>
    (name, asking (dir.child name) (ofEntry d extension (dir.child name) e)) :: ofEntries d extension dir es
termination_by structural es => es
end

/-- The documents below a root. -/
def ofRoot (d : Disk) (extension : Text) (root : Path) : Except DiskError Found :=
  match d.status root with
  | .error e => .error e
  | .ok (some (.directory readable es)) => ofEntry d extension root (.directory readable es)
  | .ok _ =>
    .ok ⟨[], [note ("Skipping root ".toList ++ root.toText ++ " (missing or not a directory).".toList)]⟩

/-- The documents below roots, one after the other. -/
def ofRoots (d : Disk) (extension : Text) (roots : List Path) : Except DiskError Found :=
  roots.foldr (fun root rest => andThen (ofRoot d extension root) rest) (.ok {})

/-- The documents below roots, with a note of their number. -/
def run (d : Disk) (extension : Text) (roots : List Path) : Except DiskError Found :=
  (ofRoots d extension roots).map fun f =>
    f.append ⟨[], [⟨.info, "loader.services.document_discovery_service",
      "Discovered ".toList ++ Text.ofNat f.documents.length ++ " document(s).".toList⟩]⟩

end MdxSafe.Discovery
