-- SUMMARY: A run over a list of documents: its summary, what it told, and the disk it leaves.
import MdxSafe.Disk.Discovery
import MdxSafe.Run.Process
import MdxSafe.Run.Timer

/-!
# Runs

A run processes documents one after the other on one disk and counts what came of each. A document that
fails at any stage adds an error and nothing else. Whoever watches the run is told once about every document.
-/

namespace MdxSafe

/-- What a watcher of a run is told about a document. -/
structure DocumentEvent where
  path : Path
  document : Option Document
  error : Option FailedDocument

namespace Summary

/-- The summary with one more document that failed. -/
def addFailed (s : Summary) (e : FailedDocument) : Summary :=
  { s with scanned := s.scanned + 1, errors := s.errors ++ [e] }

/-- The summary with one more document that was processed. -/
def addProcessed (s : Summary) (source : Text) (d : Document) : Summary :=
  { s with
    scanned := s.scanned + 1
    changed := if d.changed then s.changed + 1 else s.changed
    changedFiles := if d.changed then s.changedFiles ++ [source] else s.changedFiles
    found := s.found + d.warnings.length
    warnings := s.warnings ++ d.warnings }

end Summary

/-- A run as far as it got. -/
structure Run where
  disk : Disk
  state : RunState := .idle
  states : List RunState := []
  summary : Summary := {}
  events : List DocumentEvent := []
  log : List Log.Entry := []

namespace Run

/-- What is told about a change of state. -/
def transition (old new : RunState) : Log.Entry :=
  ⟨.debug, "transformer.controllers.run_controller",
    "RunController: ".toList ++ old.name.toList ++ " -> ".toList ++ new.name.toList⟩

/-- Enter a state. -/
def enter (r : Run) (s : RunState) : Run :=
  { r with state := s, states := r.states ++ [s], log := r.log ++ [transition r.state s] }

/-- Go through what processing a document told. -/
def follow (r : Run) : List (RunState ⊕ Log.Entry) → Run
  | [] => r
  | .inl s :: trace => follow (r.enter s) trace
  | .inr e :: trace => follow { r with log := r.log ++ [e] } trace

/-- What a run tells about what came of a document, and what its watcher is told. -/
def event (plan : RunPlan) (p : Path) (x : Progressed) : DocumentEvent × List Log.Entry :=
  match x.failure with
  | none => (⟨p, x.document, none⟩, [])
  | some (stage, e) =>
    let source := plan.source p
    (⟨p, x.document, some ⟨source, stage.name, e.account⟩⟩,
      [⟨.error, "transformer.controllers.run_controller",
        "Failed to ".toList ++ stage.name.toList ++ ' ' :: source ++ ": ".toList ++ e.message⟩])

/-- The summary with what came of a document. -/
def count (plan : RunPlan) (s : Summary) (p : Path) (event : DocumentEvent) : Summary :=
  match event.error, event.document with
  | some e, _ => s.addFailed e
  | none, some d => s.addProcessed (plan.source p) d
  | none, none => { s with scanned := s.scanned + 1 }

/-- Process one more document. What the watcher tells is added to what is told. -/
def step (plan : RunPlan) (watcher : DocumentEvent → List Log.Entry) (r : Run) (p : Path) : Run :=
  let (x, disk) := plan.process r.disk p
  let (event, told) := event plan p x
  let r := { r with disk }.follow x.trace
  { r with
    summary := count plan r.summary p event
    events := r.events ++ [event]
    log := r.log ++ told ++ watcher event }

/-- Finish a run that took some time. -/
def finish (r : Run) (duration : Binary64) : Run :=
  let r := r.enter .reporting
  let s := { r.summary with duration, finalized := true }
  let told : Log.Entry := ⟨.info, "transformer.controllers.run_controller",
    "Run finished: ".toList ++ Text.ofInt s.scanned ++ " scanned, ".toList ++ Text.ofInt s.changed
      ++ " changed, ".toList ++ Text.ofInt s.found ++ " warning(s), ".toList ++ Text.ofNat s.errors.length
      ++ " error(s) in ".toList ++ duration.toFixed 2 ++ "s.".toList⟩
  { r with summary := s, log := r.log ++ [told] }.enter .done

/-- Start on a run from a state in which documents may have been searched already. -/
def start (plan : RunPlan) (r : Run) : Run :=
  { r with summary := { applied := plan.apply, backup := plan.apply && plan.backup } }

/-- Process documents that were given or found. -/
def documents (plan : RunPlan) (watcher : DocumentEvent → List Log.Entry) (duration : Binary64) (r : Run)
    (paths : List Path) : Run :=
  (paths.foldl (step plan watcher) (r.start plan)).finish duration

/-- Search the documents below roots. -/
def discover (extension : Text) (roots : List Path) (r : Run) : Except DiskError (List Path × Run) :=
  let r := r.enter .loading
  match Discovery.run r.disk extension roots with
  | .error e => .error e
  | .ok found => .ok (found.documents, { r with log := r.log ++ found.log })

end Run
end MdxSafe
