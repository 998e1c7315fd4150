-- SUMMARY: Processing one document: examining it without touching the disk, then writing what changed.
import MdxSafe.Run.Basic

/-!
# Processing a document

`examine` reads, parses, rewrites and scans; it never changes the disk and depends on nothing but the content
of the file. `commit` backs up and writes a changed document. `process` is one after the other, the second
only if changes are to be applied.
-/

namespace MdxSafe

/-- How far a document came. -/
structure Progressed where
  /-- The states that the run went through. -/
  states : List RunState := []
  /-- The document, once there is one. -/
  document : Option Document := none
  /-- The stage that failed, and why. -/
  failure : Option (Stage × StageError) := none
  /-- What was told, and in which state; a record without one was told before the first of these states. -/
  trace : List (RunState ⊕ Log.Entry) := []

namespace Progressed

/-- Enter a state. -/
def enter (x : Progressed) (s : RunState) : Progressed :=
  { x with states := x.states ++ [s], trace := x.trace ++ [.inl s] }

/-- Tell something. -/
def tell (x : Progressed) (es : List Log.Entry) : Progressed := { x with trace := x.trace ++ es.map .inr }

/-- Keep a document. -/
def keep (x : Progressed) (d : Document) : Progressed := { x with document := some d }

/-- Fail at a stage. -/
def fail (x : Progressed) (stage : Stage) (e : StageError) : Progressed := { x with failure := some (stage, e) }

end Progressed

namespace RunPlan

/-- Read, parse, rewrite and scan a document. -/
def examine (plan : RunPlan) (disk : Disk) (p : Path) : Progressed :=
  let h := plan.hazards
  let loading := ({} : Progressed).enter .loading
  match h.guard .read p ((disk.readText p).mapError .read) with
  | .error e => loading.fail .read e
  | .ok text =>
    let parsing := loading.enter .parsing
    match h.guard .parse p ((Document.read p text).mapError .parse) with
    | .error e => parsing.fail .parse e
    | .ok document =>
      let rewriting := (parsing.keep document).enter .rewriting
      match h.guard .rewrite p (.ok (document.runPasses plan.settings)) with
      | .error e => rewriting.fail .rewrite e
      | .ok (document, told) =>
        let scanning := ((rewriting.tell told).keep document).enter .scanning
        match h.guard .scan p (.ok (document.scan plan.settings (plan.source p))) with
        | .error e => scanning.fail .scan e
        | .ok (document, told) => (scanning.tell told).keep document

/-- What is told about a file that was written. -/
def wrote (p : Path) : Log.Entry := ⟨.debug, "loader.services.document_io_service", "Wrote ".toList ++ p.toText⟩

/-- What is told about a backup that was made. -/
def backedUp (p : Path) : Log.Entry :=
  ⟨.debug, "loader.services.document_io_service", "Created backup: ".toList ++ p.name⟩

/-- The disk with a backup of a document, and where that is. -/
def writeBackup (plan : RunPlan) (disk : Disk) (p : Path) (text : Text) : Except StageError (Disk × Path) :=
  match p.backup plan.settings.backupSuffix with
  | .error e => .error (.name e)
  | .ok backup =>
    match disk.writeText backup text with
    | .error e => .error (.disk e)
    | .ok disk => .ok (disk, backup)

/-- Write the tree of a document to its file. -/
def writeDocument (plan : RunPlan) (x : Progressed) (disk : Disk) (p : Path) (text : Text) : Progressed × Disk :=
  match plan.hazards.guard .write p ((disk.writeText p text).mapError .disk) with
  | .error e => (x.fail .write e, disk)
  | .ok disk => (x.tell [wrote p], disk)

/-- Write a document back, after a backup if one is wanted. -/
def commit (plan : RunPlan) (x : Progressed) (disk : Disk) (p : Path) (document : Document) : Progressed × Disk :=
  let h := plan.hazards
  let serializing := x.enter .serializing
  match h.guard .serialize p ((document.render plan.settings).mapError .layout) with
  | .error e => (serializing.fail .serialize e, disk)
  | .ok text =>
    let writing := serializing.enter .writing
    if plan.backup then
      match h.guard .backup p (plan.writeBackup disk p document.text) with
      | .error e => (writing.fail .backup e, disk)
      | .ok (disk, backup) => plan.writeDocument (writing.tell [backedUp backup]) disk p text
    else plan.writeDocument writing disk p text

/-- Process a document. -/
def process (plan : RunPlan) (disk : Disk) (p : Path) : Progressed × Disk :=
  let x := plan.examine disk p
  match x.failure, x.document with
  | none, some document =>
    if document.changed && plan.apply then plan.commit x disk p document else (x, disk)
  | _, _ => (x, disk)

end RunPlan
end MdxSafe
