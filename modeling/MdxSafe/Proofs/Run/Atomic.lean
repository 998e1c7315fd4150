-- SUMMARY: What can be relied on when a document fails, or a disk does: nothing is lost and nothing else is touched.
import MdxSafe.Proofs.Rewrite.Changed
import MdxSafe.Proofs.Run.Step

/-!
# Failing documents

Any operation on a document may fail. `Run.Atomic` lists what holds of a step in any case: a document that is not to be
written leaves the disk alone, no other file is touched, a document is replaced only over its backup, and a failure is
counted once, under the stage that failed, with the document as it was. Every step of a run is such a step
(`Run.atomic_step`), and the run goes on after it.
-/

namespace MdxSafe

namespace RunPlan

variable {plan : RunPlan} {d d' between : Disk} {p q : Path} {document : Document} {s t : Spot}
  {outcome : Except (Stage × StageError) (Option Document)}

/-- A document that no pass changed, or that is not to be written, leaves the disk. -/
theorem Course.disk_eq (h : Course plan d p outcome d')
    (hidle : ∀ document, plan.examined d p = .ok document → (document.changed && plan.apply) = false) : d' = d := by
  cases h with
  | unexamined _ => rfl
  | kept _ _ => rfl
  | unsaved _ _ _ => rfl
  | unwritten h hchanged _ _ _ =>
    rw [hidle _ h] at hchanged
    cases hchanged
  | written h hchanged _ =>
    rw [hidle _ h] at hchanged
    cases hchanged

/-- No spot is touched but that of the document and that of its backup. -/
theorem Course.view_eq (h : Course plan d p outcome d') (hp : d.spot p ≠ .ok s)
    (hq : ∀ q, p.backup plan.settings.backupSuffix = .ok q → d.spot q ≠ .ok s) : d'.view s = d.view s := by
  cases h with
  | unexamined _ => rfl
  | kept _ _ => rfl
  | unsaved _ _ _ => rfl
  | unwritten h _ _ _ hsaved =>
    obtain ⟨hbackup, t, ht, rfl⟩ := of_writeBackup hsaved
    exact Disk.view_putFile_of_ne (Disk.takes_of_spot ht) _ fun heq => hq _ hbackup (heq ▸ ht)
  | @written document d' h _ hcommitted =>
    obtain ⟨own, hown, -⟩ := file_of_examined h
    have hne : s ≠ own := fun heq => hp (heq ▸ hown)
    obtain ⟨text, -, ⟨-, q, t, hbackup, ht, rfl⟩ | ⟨-, rfl⟩⟩ := disk_of_committed hown hcommitted
    · have hkept := Disk.takes_of_spot (Disk.spot_putFile hown (Disk.takes_of_spot ht) (Utf8.encode document.text))
      rw [Disk.view_putFile_of_ne hkept _ hne]
      exact Disk.view_putFile_of_ne (Disk.takes_of_spot ht) _ fun heq => hq _ hbackup (heq ▸ ht)
    · exact Disk.view_putFile_of_ne (Disk.takes_of_spot hown) _ hne

/-- A document that could not be written is as it was. -/
theorem Course.read_eq {f : Stage × StageError} (h : Course plan d p (.error f) d') : d'.read p = d.read p := by
  cases h with
  | unexamined _ => rfl
  | unsaved _ _ _ => rfl
  | unwritten h _ _ _ hsaved =>
    obtain ⟨own, hown, hview⟩ := file_of_examined h
    obtain ⟨-, t, ht, rfl⟩ := of_writeBackup hsaved
    have htakes := Disk.takes_of_spot ht
    rw [Disk.read_eq_ok_iff.2 ⟨own, hown, hview⟩, Disk.read_eq_ok_iff]
    -- The backup may be kept in the very file of the document, which then gets the bytes that it has.
    exact ⟨own, Disk.spot_putFile hown htakes _, Disk.view_putFile_of_view htakes hview⟩

/-- A document is replaced only on a disk that holds a backup of it already. -/
def SavedFirst (plan : RunPlan) (p : Path) (d d' : Disk) : Prop :=
  ∃ (q : Path) (bytes : Bytes) (text : Text) (between : Disk),
    p.backup plan.settings.backupSuffix = .ok q ∧ d.read p = .ok bytes ∧ d.write q bytes = .ok between
      ∧ between.read q = .ok bytes ∧ between.read p = .ok bytes ∧ between.writeText p text = .ok d'
      ∧ (d.spot q ≠ d.spot p → d'.read q = .ok bytes)

theorem Course.savedFirst (h : Course plan d p outcome d') (hbackup : plan.backup = true)
    (hread : d'.read p ≠ d.read p) :
    plan.SavedFirst p d d' := by
  cases h with
  | unexamined _ => exact absurd rfl hread
  | kept _ _ => exact absurd rfl hread
  | unsaved _ _ _ => exact absurd rfl hread
  | unwritten h hchanged hcommitted hbackup hsaved =>
    exact absurd (Course.unwritten h hchanged hcommitted hbackup hsaved).read_eq hread
  | @written document d' h _ hcommitted =>
    obtain ⟨own, hown, hview⟩ := file_of_examined h
    obtain ⟨text, -, ⟨-, q, t, hq, ht, rfl⟩ | ⟨hnone, -⟩⟩ := disk_of_committed hown hcommitted
    · have htakes := Disk.takes_of_spot ht
      have hown' := Disk.spot_putFile hown htakes (Utf8.encode document.text)
      refine ⟨q, Utf8.encode document.text, text, d.putFile t (Utf8.encode document.text), hq, ?_, ?_, ?_, ?_, ?_, ?_⟩
      · exact Disk.read_eq_ok_iff.2 ⟨own, hown, hview⟩
      · rw [Disk.write_eq, ht]
        rfl
      · exact Disk.read_putFile_self ht _
      · exact Disk.read_eq_ok_iff.2 ⟨own, hown', Disk.view_putFile_of_view htakes hview⟩
      · unfold Disk.writeText
        rw [Disk.write_eq, hown']
        rfl
      · intro hne
        have hapart : t ≠ own := fun heq => hne (by rw [ht, hown, heq])
        exact Disk.read_putFile_of_ne (Disk.read_putFile_self ht _) (Disk.spot_putFile ht htakes _)
          (Disk.takes_of_spot hown') hapart _
    · rw [hbackup] at hnone
      cases hnone

end RunPlan

namespace Run

variable {plan : RunPlan} {watcher : DocumentEvent → List Log.Entry} {r : Run} {p : Path}

-- ---------------------------------------------------------------------------
-- A step
-- ---------------------------------------------------------------------------

/-- What holds of a run before and after one more document in any case. -/
structure Atomic (plan : RunPlan) (p : Path) (r r' : Run) : Prop where
  /-- A document that is not to be written, or that the passes leave as it is, leaves every file. -/
  idle : (plan.apply = false ∨ ∀ text tree, r.disk.readText p = .ok text → Node.parse text = .ok tree →
    (Rewrite.run plan.settings Pass.all tree).tree = tree) → r'.disk = r.disk
  /-- Nothing is touched but the document and its backup. -/
  elsewhere : ∀ s, r.disk.spot p ≠ .ok s →
    (∀ q, p.backup plan.settings.backupSuffix = .ok q → r.disk.spot q ≠ .ok s) → r'.disk.view s = r.disk.view s
  /-- A document is replaced over its backup. -/
  saved : plan.backup = true → r'.disk.read p ≠ r.disk.read p → plan.SavedFirst p r.disk r'.disk
  /-- If an operation fails, the document is as it was, and one error is all that is added. -/
  failed : ∀ stage e, plan.attempt r.disk p = .error (stage, e) →
    r'.disk.read p = r.disk.read p ∧ r'.summary = { r.summary with
      scanned := r.summary.scanned + 1
      errors := r.summary.errors ++ [⟨plan.source p, stage.name, e.account⟩] }
  /-- If none fails, what came of the document is counted, and no error is added. -/
  processed : ∀ document d, plan.attempt r.disk p = .ok (document, d) →
    r'.disk = d ∧ r'.summary = r.summary.addProcessed (plan.source p) document

theorem summary_step_of_outcome {outcome : Except (Stage × StageError) (Option Document)}
    (h : (plan.process r.disk p).1.outcome = outcome) :
    (step plan watcher r p).summary = report plan p outcome r.summary := by
  rw [summary_step, count_event, h]

theorem atomic_step (plan : RunPlan) (watcher : DocumentEvent → List Log.Entry) (r : Run) (p : Path) :
    Atomic plan p r (step plan watcher r p) := by
  have hcourse := RunPlan.course plan r.disk p
  have hattempt := RunPlan.attempt_eq plan r.disk p
  have hdisk := disk_step plan watcher r p
  constructor
  case idle =>
    intro hidle
    rw [hdisk]
    refine hcourse.disk_eq fun document hdocument => ?_
    rcases hidle with hoff | hsame
    · rw [hoff, Bool.and_false]
    · obtain ⟨tree, htext, htree, -, hchanged⟩ := RunPlan.of_examined hdocument
      have hunchanged : document.changed ≠ true := by
        rw [hchanged, ne_eq, Rewrite.results_changed_iff Rewrite.nodup_all, not_not]
        exact hsame _ tree htext htree
      rw [Bool.eq_false_iff.2 hunchanged, Bool.false_and]
  case elsewhere =>
    intro s hp hq
    rw [hdisk]
    exact hcourse.view_eq hp hq
  case saved =>
    rw [hdisk]
    exact hcourse.savedFirst
  case failed =>
    intro stage e hfailed
    rw [hfailed] at hattempt
    refine ⟨?_, summary_step_of_outcome hattempt⟩
    rw [hattempt] at hcourse
    rw [hdisk, hcourse.read_eq]
  case processed =>
    intro document d hdone
    rw [hdone] at hattempt
    exact ⟨hdisk.trans hattempt.2, summary_step_of_outcome hattempt.1⟩

-- ---------------------------------------------------------------------------
-- The documents that follow
-- ---------------------------------------------------------------------------

/-- The watcher of a run is told about every document in turn. -/
theorem paths_events_foldl (plan : RunPlan) (watcher : DocumentEvent → List Log.Entry) (r : Run) (paths : List Path) :
    (paths.foldl (step plan watcher) r).events.map DocumentEvent.path = r.events.map DocumentEvent.path ++ paths := by
  induction paths generalizing r with
  | nil => simp
  | cons p paths ih =>
    have hpath : ∀ x, (event plan p x).1.path = p := by
      intro x
      unfold event
      cases x.failure <;> rfl
    rw [List.foldl_cons, ih, events_step, List.map_append, List.map_singleton, hpath, List.append_assoc]
    rfl

/-- Every document of a run is counted. -/
theorem scanned_foldl (plan : RunPlan) (watcher : DocumentEvent → List Log.Entry) (r : Run) (paths : List Path) :
    (paths.foldl (step plan watcher) r).summary.scanned = r.summary.scanned + paths.length := by
  induction paths generalizing r with
  | nil => simp
  | cons p paths ih =>
    have hscanned : (step plan watcher r p).summary.scanned = r.summary.scanned + 1 := by
      rw [summary_step]
      unfold count
      split <;> rfl
    rw [List.foldl_cons, ih, hscanned, List.length_cons]
    omega

/-- Whatever fails at a document, its step is atomic, and so is that of every document that follows, each of which is
counted and told about. -/
theorem step_atomic (plan : RunPlan) (watcher : DocumentEvent → List Log.Entry) (r : Run) (p : Path)
    (later : List Path) :
    Atomic plan p r (step plan watcher r p)
      ∧ (∀ done q rest, later = done ++ q :: rest →
          ∃ reached, Atomic plan q (done.foldl (step plan watcher) (step plan watcher r p)) reached
            ∧ later.foldl (step plan watcher) (step plan watcher r p) = rest.foldl (step plan watcher) reached)
      ∧ ((p :: later).foldl (step plan watcher) r).events.map DocumentEvent.path
          = r.events.map DocumentEvent.path ++ p :: later
      ∧ ((p :: later).foldl (step plan watcher) r).summary.scanned = r.summary.scanned + (p :: later).length := by
  refine ⟨atomic_step plan watcher r p, ?_, paths_events_foldl plan watcher r _, scanned_foldl plan watcher r _⟩
  rintro done q rest rfl
  exact ⟨_, atomic_step plan watcher _ q, by rw [List.foldl_append, List.foldl_cons]⟩

end Run
end MdxSafe
