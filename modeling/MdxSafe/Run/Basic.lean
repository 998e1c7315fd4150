-- SUMMARY: The stages of a run, the states it goes through, and how a stage can fail.
import MdxSafe.Disk.Access
import MdxSafe.Document
import MdxSafe.Log
import MdxSafe.Run.Summary

/-!
# Stages and states

Every document goes through the stages in order: reading, parsing, rewriting, scanning and, if it changed
and changes are to be applied, writing its tree as a text, backing up the file and writing it. A run tells
the states it goes through. Any stage can fail; the run then goes on with the next document.
-/

namespace MdxSafe

/-- A stage of processing a document. -/
inductive Stage where
  | read | parse | rewrite | scan | serialize | backup | write
  deriving DecidableEq, Repr

namespace Stage

/-- All stages. -/
def all : List Stage := [read, parse, rewrite, scan, serialize, backup, write]

/-- The name of a stage. -/
def name : Stage → String
  | read => "read"
  | parse => "parse"
  | rewrite => "rewrite"
  | scan => "scan"
  | serialize => "serialize"
  | backup => "backup"
  | write => "write"

end Stage

/-- A state of a run. -/
inductive RunState where
  | idle | loading | parsing | rewriting | scanning | serializing | writing | reporting | done
  deriving DecidableEq, Repr

/-- The name of a state. -/
def RunState.name : RunState → String
  | idle => "idle"
  | loading => "loading"
  | parsing => "parsing"
  | rewriting => "rewriting"
  | scanning => "scanning"
  | serializing => "serializing"
  | writing => "writing"
  | reporting => "reporting"
  | done => "done"

/-- Why a stage failed. -/
inductive StageError where
  | read (e : Disk.ReadError)
  | parse (e : Markdown.ReadFault)
  | layout (e : Layout.Error)
  | name (e : Path.NameError)
  | disk (e : DiskError)
  /-- Something outside this program went wrong. -/
  | outside (message : Text)
  deriving DecidableEq, Repr

/-- What to tell about a failed stage. -/
def StageError.message : StageError → Text
  | read e => e.message
  | parse e => e.message
  | layout e => e.message
  | name e => e.message
  | disk e => e.message
  | outside m => m

/-- What is kept about a failed stage: the message, or the kind of failure if that is empty. -/
def StageError.account (e : StageError) : Text :=
  match e.message with
  | [] => "RuntimeError"
  | m => m

/-- What may go wrong outside this program: a message for each stage that fails at a document. -/
abbrev Hazards := Stage → Path → Option Text

/-- Nothing goes wrong. -/
def Hazards.none : Hazards := fun _ _ => Option.none

/-- The outcome of a stage, unless something goes wrong before. -/
def Hazards.guard {α : Type} (h : Hazards) (stage : Stage) (p : Path) (x : Except StageError α) :
    Except StageError α :=
  match h stage p with
  | some message => .error (.outside message)
  | Option.none => x

/-- How a run is to proceed. -/
structure RunPlan where
  settings : Settings := {}
  /-- Whether changed documents are written back. -/
  apply : Bool := false
  /-- Whether files are backed up before they are written. -/
  backup : Bool := true
  /-- The directory that paths are shown from. -/
  base : Path
  hazards : Hazards := Hazards.none

/-- The name by which a run tells of a document. -/
def RunPlan.source (plan : RunPlan) (p : Path) : Text := p.display (some plan.base)

end MdxSafe
