-- SUMMARY: A run that does not write finds and counts what the run that writes does.
import MdxSafe.Proofs.Run.Independent

/-!
# Dry runs

A run that is not to apply changes leaves the disk as it is (`RunPlan.process_of_not_apply`). A document comes to the
same in both kinds of run, unless it fails when it is written back (`RunPlan.outcome_process`). So over documents that
lie apart the two runs count the same.
-/

namespace MdxSafe

/-- The stages of writing a document back. -/
def Stage.committing : List Stage := [.serialize, .backup, .write]

namespace RunPlan

variable {α : Type} {plan : RunPlan} {d : Disk} {p : Path} {document : Document} {f : Stage × StageError}

-- ---------------------------------------------------------------------------
-- One document
-- ---------------------------------------------------------------------------

/-- A document that is not to be written is examined, and that is all. -/
theorem process_of_not_apply (h : plan.apply = false) (d : Disk) (p : Path) :
    (plan.process d p).1.outcome = (plan.examined d p).map some ∧ (plan.process d p).2 = d := by
  have hcourse := course plan d p
  have hidle : ∀ document : Document, ¬ (document.changed && plan.apply) = true := fun document => by simp [h]
  generalize (plan.process d p).1.outcome = outcome at hcourse ⊢
  generalize (plan.process d p).2 = left at hcourse ⊢
  cases hcourse with
  | unexamined hexamined =>
    rw [hexamined]
    exact ⟨rfl, rfl⟩
  | kept hexamined _ =>
    rw [hexamined]
    exact ⟨rfl, rfl⟩
  | unsaved _ hchanged _ => exact absurd hchanged (hidle _)
  | unwritten _ hchanged _ _ _ => exact absurd hchanged (hidle _)
  | written _ hchanged _ => exact absurd hchanged (hidle _)

theorem stage_of_under {stage : Stage} {x : Except StageError α} (h : plan.under stage p x = .error f) :
    f.1 = stage := by
  unfold under at h
  cases hguard : plan.hazards.guard stage p x with
  | error e =>
    rw [hguard] at h
    cases h
    rfl
  | ok a =>
    rw [hguard] at h
    cases h

/-- Writing a document back fails at one of its own stages. -/
theorem stage_of_committed (h : plan.committed d p document = .error f) : f.1 ∈ Stage.committing := by
  unfold committed at h
  cases hserialize : plan.under .serialize p ((document.render plan.settings).mapError .layout) with
  | error e =>
    rw [hserialize] at h
    cases h
    rw [stage_of_under hserialize]
    decide
  | ok text =>
    rw [hserialize, ok_bind] at h
    unfold saved at h
    cases hbackup : plan.backup with
    | false =>
      rw [hbackup, if_neg Bool.false_ne_true, ok_bind] at h
      rw [stage_of_under h]
      decide
    | true =>
      rw [hbackup, if_pos rfl] at h
      cases hsave : plan.under .backup p ((plan.writeBackup d p document.text).map Prod.fst) with
      | error e =>
        rw [hsave] at h
        cases h
        rw [stage_of_under hsave]
        decide
      | ok between =>
        rw [hsave, ok_bind] at h
        rw [stage_of_under h]
        decide

/-- A document comes to what examining it comes to, or fails when it is written back. -/
theorem outcome_process (plan : RunPlan) (d : Disk) (p : Path) :
    (plan.process d p).1.outcome = (plan.examined d p).map some
      ∨ ∃ f, (plan.process d p).1.outcome = .error f ∧ f.1 ∈ Stage.committing := by
  have hcourse := course plan d p
  generalize (plan.process d p).1.outcome = outcome at hcourse ⊢
  generalize (plan.process d p).2 = left at hcourse
  cases hcourse with
  | unexamined h =>
    rw [h]
    exact .inl rfl
  | kept h _ =>
    rw [h]
    exact .inl rfl
  | unsaved _ _ hcommitted => exact .inr ⟨_, rfl, stage_of_committed hcommitted⟩
  | unwritten _ _ hcommitted _ _ => exact .inr ⟨_, rfl, stage_of_committed hcommitted⟩
  | written h _ _ =>
    rw [h]
    exact .inl rfl

end RunPlan

namespace Run

variable {plan : RunPlan} {d : Disk} {p : Path} {paths : List Path}

-- ---------------------------------------------------------------------------
-- Runs
-- ---------------------------------------------------------------------------

/-- A run that is not to apply changes leaves the disk. -/
theorem disk_foldl_of_not_apply (h : plan.apply = false) (watcher : DocumentEvent → List Log.Entry) (r : Run)
    (paths : List Path) : (paths.foldl (step plan watcher) r).disk = r.disk := by
  induction paths generalizing r with
  | nil => rfl
  | cons p paths ih => rw [List.foldl_cons, ih, disk_step, (RunPlan.process_of_not_apply h r.disk p).2]

/-- A document that does not fail when it is written back counts for the same if it is not written. -/
theorem share_dry (plan : RunPlan) (d : Disk) (p : Path)
    (h : ∀ e ∈ (share plan (fun p => (plan.process d p).1) p).errors,
      ∀ stage ∈ Stage.committing, e.stage ≠ stage.name) :
    share { plan with apply := false } (fun p => ({ plan with apply := false }.process d p).1) p
      = share plan (fun p => (plan.process d p).1) p := by
  have hoff : ({ plan with apply := false } : RunPlan).apply = false := rfl
  have hdry := (RunPlan.process_of_not_apply hoff d p).1
  unfold share at h ⊢
  rw [hdry]
  rcases RunPlan.outcome_process plan d p with hsame | ⟨f, hfailed, hstage⟩
  · rw [hsame]
    rfl
  · rw [hfailed] at h
    exact absurd rfl (h ⟨plan.source p, f.1.name, f.2.account⟩ List.mem_cons_self f.1 hstage)

/-- A dry run over documents that lie apart leaves the disk and counts what the run that writes counts, if no document of
that fails when it is written back. -/
theorem dry_run_predicts (plan : RunPlan) (watcher : DocumentEvent → List Log.Entry) (duration : Binary64) {d : Disk}
    {paths : List Path} (hlinkless : d.root.isLinkless = true) (hnormal : ∀ p ∈ paths, p.isNormal = true)
    (hapart : paths.Pairwise (Path.Apart d.current plan.settings.backupSuffix))
    (hcommitted : ∀ e ∈ (documents { plan with apply := true } watcher duration { disk := d } paths).summary.errors,
      ∀ stage ∈ Stage.committing, e.stage ≠ stage.name) :
    let dry := documents { plan with apply := false } watcher duration { disk := d } paths
    let applied := documents { plan with apply := true } watcher duration { disk := d } paths
    dry.disk = d
      ∧ dry.summary.scanned = applied.summary.scanned ∧ dry.summary.changed = applied.summary.changed
      ∧ dry.summary.changedFiles = applied.summary.changedFiles ∧ dry.summary.found = applied.summary.found
      ∧ dry.summary.warnings = applied.summary.warnings ∧ dry.summary.errors = applied.summary.errors := by
  intro dry applied
  have hshow := Disk.linkless_of_isLinkless hlinkless
  have hdry : SumsUp { plan with apply := false } d paths dry := sumsUp watcher duration hshow hnormal hapart
  have happlied : SumsUp { plan with apply := true } d paths applied := sumsUp watcher duration hshow hnormal hapart
  have hshare : ∀ p ∈ paths,
      share { plan with apply := false } (fun p => ({ plan with apply := false }.process d p).1) p
        = share { plan with apply := true } (fun p => ({ plan with apply := true }.process d p).1) p := by
    intro p hp
    refine share_dry { plan with apply := true } d p fun e he => hcommitted e ?_
    rw [happlied.errors]
    exact List.mem_flatMap.2 ⟨p, hp, he⟩
  refine ⟨?_, ?_, ?_, ?_, ?_, ?_, ?_⟩
  · exact disk_foldl_of_not_apply rfl watcher _ paths
  · rw [hdry.scanned, happlied.scanned]
  · rw [hdry.changed, happlied.changed]
    exact congrArg List.sum (List.map_congr_left fun p hp => congrArg Summary.changed (hshare p hp))
  · rw [hdry.changedFiles, happlied.changedFiles]
    exact List.flatMap_congr fun p hp => congrArg Summary.changedFiles (hshare p hp)
  · rw [hdry.found, happlied.found]
    exact congrArg List.sum (List.map_congr_left fun p hp => congrArg Summary.found (hshare p hp))
  · rw [hdry.warnings, happlied.warnings]
    exact List.flatMap_congr fun p hp => congrArg Summary.warnings (hshare p hp)
  · rw [hdry.errors, happlied.errors]
    exact List.flatMap_congr fun p hp => congrArg Summary.errors (hshare p hp)

/-- A document that changes and has a warning, and one that cannot be decoded. -/
theorem dry_run_predicts_warning :
    let d : Disk := { root := .directory true [("a.md", .file "<br>\n\n{x}\n".toUTF8.toList), ("b.md", .file [255])] }
    let plan : RunPlan := { base := {} }
    let paths : List Path := ["a.md", "b.md"]
    let run := fun plan => documents plan (fun _ => []) .zero { disk := d } paths
    (d.root.isLinkless = true ∧ (∀ p ∈ paths, p.isNormal = true)
        ∧ paths.Pairwise (Path.Apart d.current plan.settings.backupSuffix)
        ∧ ∀ e ∈ (run { plan with apply := true }).summary.errors, ∀ stage ∈ Stage.committing, e.stage ≠ stage.name)
      ∧ (run { plan with apply := false }).disk = d
      ∧ (run { plan with apply := false }).summary.changedFiles = (run { plan with apply := true }).summary.changedFiles
      ∧ (run { plan with apply := false }).summary.errors = (run { plan with apply := true }).summary.errors
      ∧ (run { plan with apply := true }).summary.changedFiles = ["a.md"] := by
  intro d plan paths run
  have hlinkless : d.root.isLinkless = true := by decide +kernel
  have hnormal : ∀ p ∈ paths, p.isNormal = true := by decide +kernel
  have hapart : paths.Pairwise (Path.Apart d.current plan.settings.backupSuffix) := by decide +kernel
  have hcommitted : ∀ e ∈ (run { plan with apply := true }).summary.errors, ∀ stage ∈ Stage.committing,
      e.stage ≠ stage.name := by decide +kernel
  obtain ⟨hdisk, -, -, hfiles, -, -, herrors⟩ :=
    dry_run_predicts plan (fun _ => []) .zero hlinkless hnormal hapart hcommitted
  exact ⟨⟨hlinkless, hnormal, hapart, hcommitted⟩, hdisk, hfiles, herrors, by decide +kernel⟩

/-- Two documents at one place, under different paths, and a document that a path goes to through the backup of another:
the paths are different, none is that of a backup, and no document fails when it is written back. The dry run finds two
documents to change where the other run changes one, and tells of another error. -/
theorem dry_run_misleads :
    let d : Disk := { root := .directory true [("a.md", .file "<br>\n".toUTF8.toList), ("d", .directory true [])] }
    let run := fun apply => documents { apply, base := {} } (fun _ => []) .zero { disk := d }
    (["a.md", "d/../a.md"] : List Path).Nodup ∧ (["a.md", "a.md.bak/b.md"] : List Path).Nodup
      ∧ (∀ p ∈ (["a.md", "d/../a.md", "a.md.bak/b.md"] : List Path),
          p.backup ".bak" ∉ (["a.md", "d/../a.md", "a.md.bak/b.md"] : List Path).map .ok)
      ∧ (run true ["a.md", "d/../a.md"]).summary.errors = []
      ∧ (∀ e ∈ (run true ["a.md", "a.md.bak/b.md"]).summary.errors, e.stage = Stage.read.name)
      ∧ (run false ["a.md", "d/../a.md"]).summary.changedFiles ≠ (run true ["a.md", "d/../a.md"]).summary.changedFiles
      ∧ (run false ["a.md", "a.md.bak/b.md"]).summary.errors ≠ (run true ["a.md", "a.md.bak/b.md"]).summary.errors := by
  decide +kernel

end Run
end MdxSafe
