-- SUMMARY: The accounts of a run: each count is the length of its list, and each list is made up from the documents.
import Mathlib.Data.List.Forall2
import MdxSafe.Proofs.Run.Atomic

/-!
# The accounts of a run

A run keeps its counts and its lists apart from each other, and a document can leave it at any of seven stages.
`Run.Accounts` says what counts and lists come to, given the documents that were met. It holds at the start of a run,
both a document that fails and one that is processed preserve it (`Run.Accounts.step`), and so it holds of every run
(`Run.accounts_documents`). The same document may be met again; what goes wrong then may be something else, so things go
wrong here with each document that is met, not with each path.
-/

namespace MdxSafe

/-- A document as a run meets it: its path, what goes wrong at it, and the disk by then. -/
structure Encounter where
  path : Path
  hazards : Hazards
  disk : Disk

namespace RunPlan

/-- The plan, but these things go wrong. -/
def amid (plan : RunPlan) (h : Hazards) : RunPlan := { plan with hazards := h }

/-- The documents of a run as it meets them, one after the other on one disk. -/
def encounters (plan : RunPlan) : Disk → List (Path × Hazards) → List Encounter
  | _, [] => []
  | d, (p, h) :: items => ⟨p, h, d⟩ :: encounters plan ((plan.amid h).process d p).2 items

theorem map_encounters (plan : RunPlan) (d : Disk) (items : List (Path × Hazards)) :
    ((plan.encounters d items).map fun x => (x.path, x.hazards)) = items := by
  induction items generalizing d with
  | nil => rfl
  | cons item items ih => rw [encounters, List.map_cons, ih]

/-- The warnings about a document that was examined are those of its tree. -/
theorem warnings_of_examined {plan : RunPlan} {d : Disk} {p : Path} {document : Document}
    (h : plan.examined d p = .ok document) :
    document.warnings
      = (Scan.run plan.settings.excerptLength [.curlyBraces] (plan.source p) document.tree).warnings := by
  unfold examined at h
  obtain ⟨text, -, h⟩ := exists_of_bind_eq_ok h
  obtain ⟨parsed, -, h⟩ := exists_of_bind_eq_ok h
  obtain ⟨rewritten, -, h⟩ := exists_of_bind_eq_ok h
  obtain rfl := Except.ok.inj (under_eq_ok_iff.1 h).2
  rfl

/-- A document that was processed was examined. -/
theorem examined_of_attempt {plan : RunPlan} {d d' : Disk} {p : Path} {document : Document}
    (h : plan.attempt d p = .ok (document, d')) : plan.examined d p = .ok document := by
  unfold attempt at h
  obtain ⟨examined, hexamined, h⟩ := exists_of_bind_eq_ok h
  split at h
  · obtain ⟨d'', -, h⟩ := exists_of_bind_eq_ok h
    cases h
    exact hexamined
  · cases h
    exact hexamined

end RunPlan

-- ---------------------------------------------------------------------------
-- One document
-- ---------------------------------------------------------------------------

namespace Encounter

variable {plan : RunPlan} {x : Encounter} {document : Document}

/-- What came of a document: the stage that failed and why, or the document. -/
def outcome (plan : RunPlan) (x : Encounter) : Except (Stage × StageError) Document :=
  ((plan.amid x.hazards).attempt x.disk x.path).map Prod.fst

/-- The error about a document that failed. -/
def error? (plan : RunPlan) (x : Encounter) : Option FailedDocument :=
  match x.outcome plan with
  | .error (stage, e) => some ⟨plan.source x.path, stage.name, e.account⟩
  | .ok _ => none

/-- The document, if it did not fail. -/
def document? (plan : RunPlan) (x : Encounter) : Option Document := (x.outcome plan).toOption

/-- Whether a document did not fail and was changed. -/
def isChanged (plan : RunPlan) (x : Encounter) : Bool := (x.document? plan).any Document.changed

/-- A document that did not fail is the text of the file. It counts as changed just if the text is not parsed to its
tree, and the warnings are what a scan of its tree gives. -/
structure Examined (plan : RunPlan) (x : Encounter) (document : Document) : Prop where
  text : x.disk.readText x.path = .ok document.text
  changed : document.changed = true ↔ Node.parse document.text ≠ .ok document.tree
  warnings : document.warnings
    = (Scan.run plan.settings.excerptLength [.curlyBraces] (plan.source x.path) document.tree).warnings

theorem outcome_eq_ok_iff : x.outcome plan = .ok document ↔ x.document? plan = some document := by
  unfold document?
  cases x.outcome plan <;> simp [Except.toOption]

theorem examined_of_document? (h : x.document? plan = some document) : x.Examined plan document := by
  have houtcome := outcome_eq_ok_iff.2 h
  unfold outcome at houtcome
  cases hattempt : (plan.amid x.hazards).attempt x.disk x.path with
  | error f =>
    rw [hattempt] at houtcome
    cases houtcome
  | ok done =>
    rw [hattempt] at houtcome
    cases houtcome
    have hexamined := RunPlan.examined_of_attempt hattempt
    obtain ⟨tree, htext, hparse, htree, hchanged⟩ := RunPlan.of_examined hexamined
    have hwarnings := RunPlan.warnings_of_examined hexamined
    refine ⟨htext, ?_, hwarnings⟩
    rw [hchanged, Rewrite.results_changed_iff Rewrite.nodup_all, ← htree, hparse, ne_comm, ne_eq, ne_eq,
      Except.ok.injEq]

/-- What a watcher is told about a document: an error just if it failed, and the document if it did not. -/
structure IsTold (plan : RunPlan) (x : Encounter) (call : DocumentEvent) : Prop where
  path : call.path = x.path
  error : call.error = x.error? plan
  document : ∀ document, x.document? plan = some document → call.document = some document

end Encounter

-- ---------------------------------------------------------------------------
-- Runs
-- ---------------------------------------------------------------------------

namespace Run

variable {plan : RunPlan} {watcher : DocumentEvent → List Log.Entry} {r r' : Run} {met : List Encounter}
  {before : List DocumentEvent} {x : Encounter} {call : DocumentEvent}

/-- Process one more document, at which these things go wrong. -/
def stepAmid (plan : RunPlan) (watcher : DocumentEvent → List Log.Entry) (r : Run) (item : Path × Hazards) : Run :=
  step (plan.amid item.2) watcher r item.1

/-- Process documents, at each of which other things go wrong. -/
def documentsAmid (plan : RunPlan) (watcher : DocumentEvent → List Log.Entry) (duration : Binary64) (r : Run)
    (items : List (Path × Hazards)) : Run :=
  (items.foldl (stepAmid plan watcher) (r.start plan)).finish duration

theorem documents_eq_amid (plan : RunPlan) (watcher : DocumentEvent → List Log.Entry) (duration : Binary64) (r : Run)
    (paths : List Path) :
    documents plan watcher duration r paths
      = documentsAmid plan watcher duration r (paths.map fun p => (p, plan.hazards)) := by
  rw [documentsAmid, List.foldl_map]
  rfl

/-- What a run that has met some documents has counted and listed, and what it told its watcher beside what had been
told before. -/
structure Accounts (plan : RunPlan) (met : List Encounter) (before : List DocumentEvent) (run : Run) : Prop where
  scanned : run.summary.scanned = met.length
  changed : run.summary.changed = run.summary.changedFiles.length
  found : run.summary.found = run.summary.warnings.length
  /-- The documents that failed, in order. -/
  errors : run.summary.errors = met.filterMap fun x => x.error? plan
  /-- Of the others, those whose trees changed, in order. -/
  changedFiles : run.summary.changedFiles = (met.filter fun x => x.isChanged plan).map fun x => plan.source x.path
  /-- The warnings about the others, in order. -/
  warnings : run.summary.warnings = (met.filterMap fun x => x.document? plan).flatMap Document.warnings
  /-- One call for each document, in order. -/
  events : ∃ calls, run.events = before ++ calls ∧ List.Forall₂ (Encounter.IsTold plan) met calls

theorem accounts_start (plan : RunPlan) (r : Run) : Accounts plan [] r.events (r.start plan) where
  scanned := rfl
  changed := rfl
  found := rfl
  errors := rfl
  changedFiles := rfl
  warnings := rfl
  events := ⟨[], (List.append_nil _).symm, .nil⟩

theorem Accounts.finish (h : Accounts plan met before r) (duration : Binary64) :
    Accounts plan met before (r.finish duration) where
  scanned := h.scanned
  changed := h.changed
  found := h.found
  errors := h.errors
  changedFiles := h.changedFiles
  warnings := h.warnings
  events := h.events

theorem Accounts.events_append (h : Accounts plan met before r) (hevents : r'.events = r.events ++ [call])
    (htold : x.IsTold plan call) :
    ∃ calls, r'.events = before ++ calls ∧ List.Forall₂ (Encounter.IsTold plan) (met ++ [x]) calls := by
  obtain ⟨calls, hcalls, hall⟩ := h.events
  exact ⟨calls ++ [call], by rw [hevents, hcalls, List.append_assoc], List.rel_append hall (.cons htold .nil)⟩

/-- A document that failed is one more error, and nothing else. -/
theorem Accounts.failed (h : Accounts plan met before r) {stage : Stage} {e : StageError}
    (houtcome : x.outcome plan = .error (stage, e))
    (hsummary : r'.summary = r.summary.addFailed ⟨plan.source x.path, stage.name, e.account⟩)
    (hevents : r'.events = r.events ++ [call]) (htold : x.IsTold plan call) :
    Accounts plan (met ++ [x]) before r' := by
  have herror : x.error? plan = some ⟨plan.source x.path, stage.name, e.account⟩ := by rw [Encounter.error?, houtcome]
  have hdocument : x.document? plan = none := by
    rw [Encounter.document?, houtcome]
    rfl
  have hunchanged : x.isChanged plan = false := by
    rw [Encounter.isChanged, hdocument]
    rfl
  constructor
  case scanned => simp [hsummary, Summary.addFailed, h.scanned]
  case changed => simp [hsummary, Summary.addFailed, h.changed]
  case found => simp [hsummary, Summary.addFailed, h.found]
  case errors => simp [hsummary, Summary.addFailed, h.errors, herror]
  case changedFiles => simp [hsummary, Summary.addFailed, h.changedFiles, hunchanged]
  case warnings => simp [hsummary, Summary.addFailed, h.warnings, hdocument]
  case events => exact h.events_append hevents htold

/-- A document that was processed is listed if it was changed, with its warnings, and is no error. -/
theorem Accounts.processed (h : Accounts plan met before r) {document : Document}
    (houtcome : x.outcome plan = .ok document)
    (hsummary : r'.summary = r.summary.addProcessed (plan.source x.path) document)
    (hevents : r'.events = r.events ++ [call]) (htold : x.IsTold plan call) :
    Accounts plan (met ++ [x]) before r' := by
  have herror : x.error? plan = none := by rw [Encounter.error?, houtcome]
  have hdocument : x.document? plan = some document := by
    rw [Encounter.document?, houtcome]
    rfl
  have hchanged : x.isChanged plan = document.changed := by
    rw [Encounter.isChanged, hdocument]
    rfl
  constructor
  case scanned => simp [hsummary, Summary.addProcessed, h.scanned]
  case changed => cases hdone : document.changed <;> simp [hsummary, Summary.addProcessed, h.changed, hdone]
  case found => simp [hsummary, Summary.addProcessed, h.found]
  case errors => simp [hsummary, Summary.addProcessed, h.errors, herror]
  case changedFiles =>
    cases hdone : document.changed <;> simp [hsummary, Summary.addProcessed, h.changedFiles, hchanged, hdone]
  case warnings => simp [hsummary, Summary.addProcessed, h.warnings, hdocument]
  case events => exact h.events_append hevents htold

theorem event_of_error (plan : RunPlan) (p : Path) {y : Progressed} {stage : Stage} {e : StageError}
    (h : y.outcome = .error (stage, e)) :
    (event plan p y).1.path = p ∧ (event plan p y).1.error = some ⟨plan.source p, stage.name, e.account⟩ := by
  unfold event
  rw [Progressed.outcome_eq_error_iff.1 h]
  exact ⟨rfl, rfl⟩

theorem event_of_ok (plan : RunPlan) (p : Path) {y : Progressed} {document : Document}
    (h : y.outcome = .ok (some document)) :
    (event plan p y).1 = ⟨p, some document, none⟩ := by
  obtain ⟨hfailure, hdocument⟩ := Progressed.outcome_eq_ok_iff.1 h
  unfold event
  rw [hfailure, hdocument]

/-- One more document, whatever comes of it. -/
theorem Accounts.step (h : Accounts plan met before r) (watcher : DocumentEvent → List Log.Entry)
    (item : Path × Hazards) :
    Accounts plan (met ++ [⟨item.1, item.2, r.disk⟩]) before (stepAmid plan watcher r item) := by
  obtain ⟨p, hazards⟩ := item
  have hattempt := RunPlan.attempt_eq (plan.amid hazards) r.disk p
  have hevents := events_step (plan.amid hazards) watcher r p
  cases hdone : (plan.amid hazards).attempt r.disk p with
  | error f =>
    obtain ⟨stage, e⟩ := f
    rw [hdone] at hattempt
    have houtcome : Encounter.outcome plan ⟨p, hazards, r.disk⟩ = .error (stage, e) := by
      rw [Encounter.outcome, hdone]
      rfl
    obtain ⟨hpath, herror⟩ := event_of_error (plan.amid hazards) p hattempt
    refine h.failed houtcome (summary_step_of_outcome hattempt) hevents ⟨hpath, ?_, ?_⟩
    · rw [herror, Encounter.error?, houtcome]
      rfl
    · intro document hdocument
      rw [Encounter.document?, houtcome] at hdocument
      cases hdocument
  | ok done =>
    obtain ⟨document, d'⟩ := done
    rw [hdone] at hattempt
    have houtcome : Encounter.outcome plan ⟨p, hazards, r.disk⟩ = .ok document := by
      rw [Encounter.outcome, hdone]
      rfl
    have hcall := event_of_ok (plan.amid hazards) p hattempt.1
    refine h.processed houtcome (summary_step_of_outcome hattempt.1) hevents ⟨?_, ?_, ?_⟩
    · rw [hcall]
    · rw [hcall, Encounter.error?, houtcome]
    · intro other hother
      rw [Encounter.document?, houtcome] at hother
      rw [hcall]
      exact hother

/-- Any number of documents. -/
theorem Accounts.foldl (h : Accounts plan met before r) (watcher : DocumentEvent → List Log.Entry)
    (items : List (Path × Hazards)) :
    Accounts plan (met ++ plan.encounters r.disk items) before (items.foldl (stepAmid plan watcher) r) := by
  induction items generalizing met r with
  | nil =>
    rw [RunPlan.encounters, List.append_nil]
    exact h
  | cons item items ih =>
    have hrest := ih (h.step watcher item)
    rw [stepAmid, disk_step, List.append_assoc] at hrest
    exact hrest

/-- Each count of a run is the length of its list, and the lists are made up from the documents that it meets, in order:
those that failed are the errors and give nothing else, those of the others that changed are the changed files, and the
warnings are those about the others. The watcher is told of each document once, and of an error just if it failed. -/
theorem accounts_documents (plan : RunPlan) (watcher : DocumentEvent → List Log.Entry) (duration : Binary64) (r : Run) :
    (∀ items : List (Path × Hazards),
      let met := plan.encounters r.disk items
      (met.map fun x => (x.path, x.hazards)) = items
        ∧ (∀ x ∈ met, ∀ document, x.document? plan = some document → x.Examined plan document)
        ∧ Accounts plan met r.events (documentsAmid plan watcher duration r items))
      ∧ ∀ paths, documents plan watcher duration r paths
          = documentsAmid plan watcher duration r (paths.map fun p => (p, plan.hazards)) := by
  refine ⟨fun items => ⟨plan.map_encounters r.disk items, ?_, ?_⟩, documents_eq_amid plan watcher duration r⟩
  · exact fun x _ document hdocument => Encounter.examined_of_document? hdocument
  · exact ((accounts_start plan r).foldl watcher items).finish duration

/-- A document that is met twice: first it cannot be written, after its tree was changed and scanned, then it can. -/
example :
    let d : Disk := { root := .directory true [("a.md", .file "<br>\n\n{x}\n".toUTF8.toList)] }
    let full : Hazards := fun stage _ => if stage = .write then some "full".toList else none
    let s := (documentsAmid { apply := true, base := {} } (fun _ => []) .zero { disk := d }
      [("a.md", full), ("a.md", Hazards.none)]).summary
    s.scanned = 2 ∧ s.errors = [⟨"a.md", "write", "full"⟩] ∧ s.changedFiles = ["a.md"] ∧ s.warnings.length = 1 := by
  decide +kernel

end Run
end MdxSafe
