-- SUMMARY: Documents that lie apart do not affect each other: their order does not matter, nor that there are others.
import Mathlib.Algebra.BigOperators.Group.List.Basic
import Mathlib.Data.List.Pairwise
import Mathlib.Data.List.Perm.Basic
import MdxSafe.Proofs.Run.Apart

/-!
# Independent documents

In a run over documents that lie apart, each document ends up with the content and the backup that it has when it is the
only one (`Run.SumsUp.read_eq`), and adds to the summary what it adds then (`Run.SumsUp`). So the order of the documents
matters for nothing but the order in the lists of the summary. Documents that do not lie apart do affect each other,
even if their paths are different and none is that of a backup.
-/

namespace MdxSafe

namespace RunPlan

variable {plan : RunPlan} {d₀ d d' : Disk} {paths paths' : List Path} {p q : Path}

/-- What a run leaves does not depend on the order of the documents. -/
theorem Reached.view_unique (h : Reached plan d₀ paths d) (h' : Reached plan d₀ paths' d')
    (hsame : ∀ p, p ∈ paths' ↔ p ∈ paths) : d'.view = d.view := by
  funext t
  by_cases htouched : ∃ p ∈ paths, p.Touches d₀.current plan.settings.backupSuffix t
  · obtain ⟨p, hp, ht⟩ := htouched
    rw [h.own p hp t ht, h'.own p ((hsame p).2 hp) t ht]
  · have hnone : ∀ p ∈ paths, ¬ p.Touches d₀.current plan.settings.backupSuffix t :=
      fun p hp ht => htouched ⟨p, hp, ht⟩
    rw [h.kept t hnone, h'.kept t fun p hp => hnone p ((hsame p).1 hp)]

/-- A path on the route of a document or to its backup is read after a run as if the document had been the only one. -/
theorem Reached.read_eq (h : Reached plan d₀ paths d) (hlinkless : d₀.Linkless) (hp : p ∈ paths)
    (hapart : ∀ p' ∈ paths, p' ≠ p → p'.Apart d₀.current plan.settings.backupSuffix p)
    (hroute : ∀ t ∈ q.route d₀.current, t ∈ p.route d₀.current ∨ p.Touches d₀.current plan.settings.backupSuffix t)
    (hgoal : p.Touches d₀.current plan.settings.backupSuffix (q.goal d₀.current)) :
    d.read q = (plan.process d₀ p).2.read q := by
  have hedits := edits_process plan hlinkless p
  have htouched : ∀ t, p.Touches d₀.current plan.settings.backupSuffix t →
      d.shape t = (plan.process d₀ p).2.shape t := fun t ht =>
    congrArg (Option.map Occupant.blank) (h.own p hp t ht)
  apply Disk.read_congr (hedits.linkless hlinkless)
  · exact h.current.trans hedits.current_eq.symm
  · intro t ht
    rw [hedits.current_eq] at ht
    by_cases hown : p.Touches d₀.current plan.settings.backupSuffix t
    · exact htouched t hown
    · have hon := (hroute t ht).resolve_right hown
      rw [hedits.shape_eq fun heq => hown (.inr heq)]
      apply h.shape t
      intro p' hp' hbackup
      by_cases hsame : p' = p
      · exact hown (.inr (hsame ▸ hbackup))
      · exact (hapart p' hp' hsame).2.1 t hbackup hon
  · rw [hedits.current_eq]
    exact h.own p hp _ hgoal

end RunPlan

namespace Run

variable {plan : RunPlan} {watcher : DocumentEvent → List Log.Entry} {duration : Binary64} {d : Disk}
  {paths paths' : List Path} {p q : Path}

-- ---------------------------------------------------------------------------
-- What a run comes to
-- ---------------------------------------------------------------------------

/-- A run over documents that lie apart comes to what its documents come to at the start. -/
structure SumsUp (plan : RunPlan) (d : Disk) (paths : List Path) (run : Run) : Prop where
  reached : RunPlan.Reached plan d paths run.disk
  scanned : run.summary.scanned = paths.length
  changed : run.summary.changed = (paths.map fun p => (share plan (fun p => (plan.process d p).1) p).changed).sum
  found : run.summary.found = (paths.map fun p => (share plan (fun p => (plan.process d p).1) p).found).sum
  warnings : run.summary.warnings = paths.flatMap fun p => (share plan (fun p => (plan.process d p).1) p).warnings
  errors : run.summary.errors = paths.flatMap fun p => (share plan (fun p => (plan.process d p).1) p).errors
  changedFiles : run.summary.changedFiles
    = paths.flatMap fun p => (share plan (fun p => (plan.process d p).1) p).changedFiles
  events : run.events = paths.map fun p => (event plan p (plan.process d p).1).1

theorem sumsUp (watcher : DocumentEvent → List Log.Entry) (duration : Binary64) (hlinkless : d.Linkless)
    (hnormal : ∀ p ∈ paths, p.isNormal = true)
    (hapart : paths.Pairwise (Path.Apart d.current plan.settings.backupSuffix)) :
    SumsUp plan d paths (documents plan watcher duration { disk := d } paths) := by
  have hstart : RunPlan.Reached plan d [] (start plan { disk := d }).disk := RunPlan.reached_start plan hlinkless
  obtain ⟨hreached, hsummary, hevents⟩ := foldl_of_reached watcher hstart hlinkless hnormal hapart
  rw [tally_eq] at hsummary
  constructor
  case reached => exact hreached
  case events => exact hevents
  case scanned => exact (congrArg Summary.scanned hsummary).trans (Int.zero_add _)
  case changed => exact (congrArg Summary.changed hsummary).trans (Int.zero_add _)
  case found => exact (congrArg Summary.found hsummary).trans (Int.zero_add _)
  case warnings => exact congrArg Summary.warnings hsummary
  case errors => exact congrArg Summary.errors hsummary
  case changedFiles => exact congrArg Summary.changedFiles hsummary

theorem disk_documents_singleton (plan : RunPlan) (watcher : DocumentEvent → List Log.Entry) (duration : Binary64)
    (d : Disk) (p : Path) : (documents plan watcher duration { disk := d } [p]).disk = (plan.process d p).2 :=
  disk_step plan watcher _ p

theorem sumsUp_singleton (watcher : DocumentEvent → List Log.Entry) (duration : Binary64) (hlinkless : d.Linkless)
    (hp : p.isNormal = true) : SumsUp plan d [p] (documents plan watcher duration { disk := d } [p]) :=
  sumsUp watcher duration hlinkless (List.forall_mem_singleton.2 hp) (List.pairwise_singleton _ p)

/-- A document of a run, or its backup, is read after the run as if the document had been the only one. -/
theorem SumsUp.read_eq {run : Run} (h : SumsUp plan d paths run) (hlinkless : d.Linkless)
    (hnormal : ∀ p ∈ paths, p.isNormal = true)
    (hapart : paths.Pairwise (Path.Apart d.current plan.settings.backupSuffix)) (hp : p ∈ paths)
    (hq : q = p ∨ p.backup plan.settings.backupSuffix = .ok q) :
    run.disk.read q = (plan.process d p).2.read q := by
  have hothers : ∀ p' ∈ paths, p' ≠ p → p'.Apart d.current plan.settings.backupSuffix p := fun p' hp' hne =>
    hapart.forall hp' hp hne
  rcases hq with rfl | hq
  · exact h.reached.read_eq hlinkless hp hothers (fun _ => .inl) (.inl rfl)
  · have htouched : p.Touches d.current plan.settings.backupSuffix (q.goal d.current) :=
      .inr (Path.backupGoal?_of_backup hq)
    obtain ⟨-, -, -, hroute⟩ := Path.route_of_backup (hnormal p hp) hq d.current
    refine h.reached.read_eq hlinkless hp hothers (fun t ht => ?_) htouched
    rcases hroute t ht with hon | rfl
    · exact .inl hon
    · exact .inr htouched

-- ---------------------------------------------------------------------------
-- Independence
-- ---------------------------------------------------------------------------

/-- Documents that lie apart do not affect each other, whatever goes wrong at some of them. In any order they leave the
same files, give the same counts, and the same lists but for their order. Each document, and its backup, ends up as it
does when it is the only one; what is told and listed about the documents is what is told and listed about each alone. -/
theorem documents_independent (plan : RunPlan) (watcher : DocumentEvent → List Log.Entry) (duration : Binary64)
    {d : Disk} {paths paths' : List Path} (hlinkless : d.root.isLinkless = true)
    (hnormal : ∀ p ∈ paths, p.isNormal = true)
    (hapart : paths.Pairwise (Path.Apart d.current plan.settings.backupSuffix)) (hperm : paths'.Perm paths) :
    let run := documents plan watcher duration { disk := d } paths
    let run' := documents plan watcher duration { disk := d } paths'
    let alone := fun p => documents plan watcher duration { disk := d } [p]
    (run'.disk.view = run.disk.view ∧ run'.disk.current = run.disk.current)
      ∧ (run'.summary.scanned = run.summary.scanned ∧ run'.summary.changed = run.summary.changed
        ∧ run'.summary.found = run.summary.found)
      ∧ (run'.summary.warnings.Perm run.summary.warnings ∧ run'.summary.errors.Perm run.summary.errors
        ∧ run'.summary.changedFiles.Perm run.summary.changedFiles)
      ∧ (∀ p ∈ paths, ∀ q, q = p ∨ p.backup plan.settings.backupSuffix = .ok q →
          run.disk.read q = (alone p).disk.read q)
      ∧ run.events = (paths.flatMap fun p => (alone p).events)
      ∧ run.summary.warnings = (paths.flatMap fun p => (alone p).summary.warnings)
      ∧ run.summary.errors = (paths.flatMap fun p => (alone p).summary.errors)
      ∧ run.summary.changedFiles = paths.flatMap fun p => (alone p).summary.changedFiles := by
  intro run run' alone
  have hshow := Disk.linkless_of_isLinkless hlinkless
  have hnormal' : ∀ p ∈ paths', p.isNormal = true := fun p hp => hnormal p (hperm.mem_iff.1 hp)
  have hapart' := (hperm.pairwise_iff fun h => Path.Apart.symm h).2 hapart
  have hrun : SumsUp plan d paths run := sumsUp watcher duration hshow hnormal hapart
  have hrun' : SumsUp plan d paths' run' := sumsUp watcher duration hshow hnormal' hapart'
  have halone : ∀ p ∈ paths, SumsUp plan d [p] (alone p) := fun p hp =>
    sumsUp_singleton watcher duration hshow (hnormal p hp)
  refine ⟨⟨?_, ?_⟩, ⟨?_, ?_, ?_⟩, ⟨?_, ?_, ?_⟩, ?_, ?_, ?_, ?_, ?_⟩
  · exact hrun.reached.view_unique hrun'.reached fun p => hperm.mem_iff
  · exact hrun'.reached.current.trans hrun.reached.current.symm
  · rw [hrun'.scanned, hrun.scanned, hperm.length_eq]
  · rw [hrun'.changed, hrun.changed]
    exact (hperm.map _).sum_eq
  · rw [hrun'.found, hrun.found]
    exact (hperm.map _).sum_eq
  · rw [hrun'.warnings, hrun.warnings]
    exact hperm.flatMap_right _
  · rw [hrun'.errors, hrun.errors]
    exact hperm.flatMap_right _
  · rw [hrun'.changedFiles, hrun.changedFiles]
    exact hperm.flatMap_right _
  · intro p hp q hq
    rw [hrun.read_eq hshow hnormal hapart hp hq]
    rw [← disk_documents_singleton plan watcher duration d p]
  · rw [hrun.events, List.map_eq_flatMap]
    exact List.flatMap_congr fun p hp => (halone p hp).events.symm
  · rw [hrun.warnings]
    exact List.flatMap_congr fun p hp => by rw [(halone p hp).warnings, List.flatMap_singleton]
  · rw [hrun.errors]
    exact List.flatMap_congr fun p hp => by rw [(halone p hp).errors, List.flatMap_singleton]
  · rw [hrun.changedFiles]
    exact List.flatMap_congr fun p hp => by rw [(halone p hp).changedFiles, List.flatMap_singleton]

/-- Two documents that change, one of them in a directory, and one that is missing. -/
theorem documents_independent_three :
    let d : Disk := { root := .directory true [("a.md", .file "<br>\n".toUTF8.toList),
      ("d", .directory true [("b.md", .file "a < b\n".toUTF8.toList)])] }
    let plan : RunPlan := { apply := true, base := {} }
    let paths : List Path := ["a.md", "d/b.md", "c.md"]
    let run := documents plan (fun _ => []) .zero { disk := d }
    (d.root.isLinkless = true ∧ (∀ p ∈ paths, p.isNormal = true)
        ∧ paths.Pairwise (Path.Apart d.current plan.settings.backupSuffix))
      ∧ (run paths.reverse).disk.view = (run paths).disk.view
      ∧ (run paths.reverse).summary.changedFiles.Perm (run paths).summary.changedFiles
      ∧ (run paths).summary.changedFiles = ["a.md", "d/b.md"] := by
  intro d plan paths run
  have hlinkless : d.root.isLinkless = true := by decide +kernel
  have hnormal : ∀ p ∈ paths, p.isNormal = true := by decide +kernel
  have hapart : paths.Pairwise (Path.Apart d.current plan.settings.backupSuffix) := by decide +kernel
  obtain ⟨⟨hview, -⟩, -, ⟨-, -, hfiles⟩, -⟩ :=
    documents_independent plan (fun _ => []) .zero hlinkless hnormal hapart paths.reverse_perm
  exact ⟨⟨hlinkless, hnormal, hapart⟩, hview, hfiles, by decide +kernel⟩

/-- Two documents at one place, under different paths, and a document that a path goes to through the backup of another:
the paths are different, and none is that of a backup. In one order the first two change as `a.md`, in the other as
`d/../a.md`; the last is missing before the backup is made and is not below a directory after that. -/
theorem documents_dependent :
    let d : Disk := { root := .directory true [("a.md", .file "<br>\n".toUTF8.toList), ("d", .directory true [])] }
    let run := documents { apply := true, base := {} } (fun _ => []) .zero { disk := d }
    (["a.md", "d/../a.md"] : List Path).Nodup ∧ (["a.md", "a.md.bak/b.md"] : List Path).Nodup
      ∧ (∀ p ∈ (["a.md", "d/../a.md", "a.md.bak/b.md"] : List Path),
          p.backup ".bak" ∉ (["a.md", "d/../a.md", "a.md.bak/b.md"] : List Path).map .ok)
      ∧ ¬ (run ["d/../a.md", "a.md"]).summary.changedFiles.Perm (run ["a.md", "d/../a.md"]).summary.changedFiles
      ∧ ¬ (run ["a.md.bak/b.md", "a.md"]).summary.errors.Perm (run ["a.md", "a.md.bak/b.md"]).summary.errors := by
  decide +kernel

end Run
end MdxSafe
