-- SUMMARY: What one more document adds to a run: to its summary, its disk and its events.
import Mathlib.Algebra.Ring.Int.Defs
import MdxSafe.Proofs.Run.Process
import MdxSafe.Run.Run

/-!
# One more document

A step of a run adds what came of one document to the summary, leaves the disk that processing the document left, and
tells the watcher once. A run that knows what comes of each document has the sums and the lists of what they count for
(`Run.tally_eq`).
-/

namespace MdxSafe.Run

-- ---------------------------------------------------------------------------
-- One step
-- ---------------------------------------------------------------------------

/-- Going through what was told changes nothing but the state and what was told. -/
theorem follow_eq (r : Run) (trace : List (RunState ⊕ Log.Entry)) :
    (r.follow trace).disk = r.disk ∧ (r.follow trace).summary = r.summary ∧ (r.follow trace).events = r.events := by
  induction trace generalizing r with
  | nil => exact ⟨rfl, rfl, rfl⟩
  | cons told trace ih =>
    cases told with
    | inl s => exact ih (r.enter s)
    | inr e => exact ih { r with log := r.log ++ [e] }

theorem disk_step (plan : RunPlan) (watcher : DocumentEvent → List Log.Entry) (r : Run) (p : Path) :
    (step plan watcher r p).disk = (plan.process r.disk p).2 := by
  unfold step
  exact (follow_eq _ _).1

theorem events_step (plan : RunPlan) (watcher : DocumentEvent → List Log.Entry) (r : Run) (p : Path) :
    (step plan watcher r p).events = r.events ++ [(event plan p (plan.process r.disk p).1).1] := by
  unfold step
  dsimp only
  rw [(follow_eq _ _).2.2]

theorem summary_step (plan : RunPlan) (watcher : DocumentEvent → List Log.Entry) (r : Run) (p : Path) :
    (step plan watcher r p).summary = count plan r.summary p (event plan p (plan.process r.disk p).1).1 := by
  unfold step
  dsimp only
  rw [(follow_eq _ _).2.1]

/-- What is counted of a document that came to something. -/
def report (plan : RunPlan) (p : Path) (outcome : Except (Stage × StageError) (Option Document)) (s : Summary) :
    Summary :=
  match outcome with
  | .error (stage, e) => s.addFailed ⟨plan.source p, stage.name, e.account⟩
  | .ok (some document) => s.addProcessed (plan.source p) document
  | .ok none => { s with scanned := s.scanned + 1 }

theorem count_event (plan : RunPlan) (s : Summary) (p : Path) (x : Progressed) :
    count plan s p (event plan p x).1 = report plan p x.outcome s := by
  unfold count event report Progressed.outcome
  cases x.failure with
  | some f => rfl
  | none => cases x.document <;> rfl

/-- What came of a document is counted beside what was counted before. -/
theorem report_eq (plan : RunPlan) (p : Path) (outcome : Except (Stage × StageError) (Option Document)) (s : Summary) :
    report plan p outcome s = { s with
      scanned := s.scanned + 1
      changed := s.changed + (report plan p outcome {}).changed
      found := s.found + (report plan p outcome {}).found
      warnings := s.warnings ++ (report plan p outcome {}).warnings
      errors := s.errors ++ (report plan p outcome {}).errors
      changedFiles := s.changedFiles ++ (report plan p outcome {}).changedFiles } := by
  unfold report
  rcases outcome with f | _ | document
  · simp [Summary.addFailed]
  · simp
  · cases hchanged : document.changed <;> simp [Summary.addProcessed, hchanged]

-- ---------------------------------------------------------------------------
-- Many steps
-- ---------------------------------------------------------------------------

/-- The summary of a run over documents of which something came. -/
def tally (plan : RunPlan) (came : Path → Progressed) (s : Summary) (paths : List Path) : Summary :=
  paths.foldl (fun s p => report plan p (came p).outcome s) s

/-- What a document counts for. -/
def share (plan : RunPlan) (came : Path → Progressed) (p : Path) : Summary := report plan p (came p).outcome {}

theorem tally_eq (plan : RunPlan) (came : Path → Progressed) (s : Summary) (paths : List Path) :
    tally plan came s paths = { s with
      scanned := s.scanned + paths.length
      changed := s.changed + (paths.map fun p => (share plan came p).changed).sum
      found := s.found + (paths.map fun p => (share plan came p).found).sum
      warnings := s.warnings ++ paths.flatMap fun p => (share plan came p).warnings
      errors := s.errors ++ paths.flatMap fun p => (share plan came p).errors
      changedFiles := s.changedFiles ++ paths.flatMap fun p => (share plan came p).changedFiles } := by
  induction paths generalizing s with
  | nil => simp [tally]
  | cons p paths ih =>
    have hcons : tally plan came s (p :: paths) = tally plan came (report plan p (came p).outcome s) paths := rfl
    rw [hcons, ih, report_eq]
    simp only [List.map_cons, List.sum_cons, List.flatMap_cons, List.length_cons, List.append_assoc]
    congr 1
    · push_cast
      omega
    all_goals exact Int.add_assoc _ _ _

end MdxSafe.Run
