-- SUMMARY: Processing a document as a sequence of operations, each of which fails under the name of its stage.
import MdxSafe.Proofs.Disk.Access
import MdxSafe.Proofs.Outcome
import MdxSafe.Proofs.Text.Utf8
import MdxSafe.Run.Process

/-!
# The course of processing a document

`RunPlan.attempt` is what processing a document comes down to: the operations in their order, each failing under the
name of its stage, and the document and the disk if none does. `RunPlan.course` says once what processing can do to
a disk: nothing, a backup, or a backup and the document.
-/

namespace MdxSafe

/-- What came of a document in the end: the stage that failed and why, or the document. -/
def Progressed.outcome (x : Progressed) : Except (Stage × StageError) (Option Document) :=
  match x.failure with
  | some f => .error f
  | none => .ok x.document

theorem Progressed.outcome_eq_error_iff {x : Progressed} {f : Stage × StageError} :
    x.outcome = .error f ↔ x.failure = some f := by
  unfold outcome
  cases x.failure <;> simp

theorem Progressed.outcome_eq_ok_iff {x : Progressed} {o : Option Document} :
    x.outcome = .ok o ↔ x.failure = none ∧ x.document = o := by
  unfold outcome
  cases x.failure <;> simp

namespace RunPlan

variable {α : Type} {plan : RunPlan} {d d' between : Disk} {p q : Path} {document : Document} {stage : Stage}
  {f : Stage × StageError}

-- ---------------------------------------------------------------------------
-- Operations in order
-- ---------------------------------------------------------------------------

/-- The outcome of the operation of a stage, which fails under the name of the stage. -/
def under (plan : RunPlan) (stage : Stage) (p : Path) (x : Except StageError α) : Except (Stage × StageError) α :=
  (plan.hazards.guard stage p x).mapError fun e => (stage, e)

/-- The document that was read, parsed, rewritten and scanned. -/
def examined (plan : RunPlan) (d : Disk) (p : Path) : Except (Stage × StageError) Document := do
  let text ← plan.under .read p ((d.readText p).mapError .read)
  let document ← plan.under .parse p ((Document.read p text).mapError .parse)
  let document ← plan.under .rewrite p (.ok (document.runPasses plan.settings).1)
  plan.under .scan p (.ok (document.scan plan.settings (plan.source p)).1)

/-- The disk with a backup of a document, if one is wanted. -/
def saved (plan : RunPlan) (d : Disk) (p : Path) (text : Text) : Except (Stage × StageError) Disk :=
  if plan.backup then plan.under .backup p ((plan.writeBackup d p text).map Prod.fst) else .ok d

/-- The disk with a document written back, after a backup if one is wanted. -/
def committed (plan : RunPlan) (d : Disk) (p : Path) (document : Document) : Except (Stage × StageError) Disk := do
  let text ← plan.under .serialize p ((document.render plan.settings).mapError .layout)
  let d ← plan.saved d p document.text
  plan.under .write p ((d.writeText p text).mapError .disk)

/-- A document that was processed, and the disk after that. -/
def attempt (plan : RunPlan) (d : Disk) (p : Path) : Except (Stage × StageError) (Document × Disk) := do
  let document ← plan.examined d p
  if document.changed && plan.apply then
    return (document, ← plan.committed d p document)
  else
    return (document, d)

theorem under_error (plan : RunPlan) (stage : Stage) (p : Path) {x : Except StageError α} {e : StageError}
    (h : plan.hazards.guard stage p x = .error e) : plan.under stage p x = .error (stage, e) := by
  unfold under
  rw [h]
  rfl

theorem under_ok (plan : RunPlan) (stage : Stage) (p : Path) {x : Except StageError α} {a : α}
    (h : plan.hazards.guard stage p x = .ok a) : plan.under stage p x = .ok a := by
  unfold under
  rw [h]
  rfl

theorem guard_eq_ok_iff {x : Except StageError α} {a : α} :
    plan.hazards.guard stage p x = .ok a ↔ plan.hazards stage p = none ∧ x = .ok a := by
  unfold Hazards.guard
  cases plan.hazards stage p with
  | some m => exact ⟨nofun, fun h => nomatch h.1⟩
  | none => exact (iff_and_self.2 fun _ => rfl)

theorem under_eq_ok_iff {x : Except StageError α} {a : α} :
    plan.under stage p x = .ok a ↔ plan.hazards stage p = none ∧ x = .ok a := by
  rw [← guard_eq_ok_iff]
  refine ⟨fun h => ?_, under_ok plan stage p⟩
  cases hguard : plan.hazards.guard stage p x with
  | error e =>
    rw [under_error plan stage p hguard] at h
    cases h
  | ok b =>
    rw [under_ok plan stage p hguard] at h
    exact congrArg Except.ok (Except.ok.inj h)

theorem under_map {β : Type} (plan : RunPlan) (stage : Stage) (p : Path) (x : Except StageError α) (next : α → β) :
    plan.under stage p (x.map next) = (plan.under stage p x).map next := by
  unfold under Hazards.guard
  cases plan.hazards stage p with
  | some m => rfl
  | none => cases x <;> rfl

/-- Examining a document fails at the operation that fails first, and gives the document if none does. -/
theorem outcome_examine (plan : RunPlan) (d : Disk) (p : Path) :
    (plan.examine d p).outcome = (plan.examined d p).map some := by
  unfold examined examine
  dsimp only
  cases hread : plan.hazards.guard .read p ((d.readText p).mapError .read) with
  | error e =>
    rw [under_error plan .read p hread]
    rfl
  | ok text =>
    rw [under_ok plan .read p hread, ok_bind]
    dsimp only
    cases hparse : plan.hazards.guard .parse p ((Document.read p text).mapError .parse) with
    | error e =>
      rw [under_error plan .parse p hparse]
      rfl
    | ok document =>
      rw [under_ok plan .parse p hparse, ok_bind]
      unfold under Hazards.guard
      cases plan.hazards .rewrite p with
      | some m => rfl
      | none => cases plan.hazards .scan p <;> rfl

/-- What was examined is the text of the file, parsed and rewritten by all passes. -/
theorem of_examined (h : plan.examined d p = .ok document) :
    ∃ tree, d.readText p = .ok document.text ∧ Node.parse document.text = .ok tree
      ∧ document.tree = (Rewrite.run plan.settings Pass.all tree).tree
      ∧ document.changed = (Rewrite.run plan.settings Pass.all tree).results.changed := by
  unfold examined at h
  obtain ⟨text, hread, h⟩ := exists_of_bind_eq_ok h
  obtain ⟨parsed, hparse, h⟩ := exists_of_bind_eq_ok h
  obtain ⟨rewritten, hrewrite, h⟩ := exists_of_bind_eq_ok h
  have htext := eq_ok_of_mapError (under_eq_ok_iff.1 hread).2
  have hparsed := eq_ok_of_mapError (under_eq_ok_iff.1 hparse).2
  obtain rfl := Except.ok.inj (under_eq_ok_iff.1 hrewrite).2
  obtain rfl := Except.ok.inj (under_eq_ok_iff.1 h).2
  obtain ⟨tree, htree, hdocument⟩ := exists_of_bind_eq_ok hparsed
  cases hdocument
  exact ⟨tree, htext, htree, rfl, rfl⟩

/-- What was written is the text of the document, on the disk with the backup if one is wanted. -/
theorem of_committed (h : plan.committed d p document = .ok d') :
    ∃ text between, document.render plan.settings = .ok text ∧ between.writeText p text = .ok d'
      ∧ ((plan.backup = true ∧ ∃ q, plan.writeBackup d p document.text = .ok (between, q))
        ∨ (plan.backup = false ∧ between = d)) := by
  unfold committed at h
  obtain ⟨text, hrender, h⟩ := exists_of_bind_eq_ok h
  obtain ⟨between, hsaved, h⟩ := exists_of_bind_eq_ok h
  refine ⟨text, between, eq_ok_of_mapError (under_eq_ok_iff.1 hrender).2, eq_ok_of_mapError (under_eq_ok_iff.1 h).2, ?_⟩
  unfold saved at hsaved
  cases hbackup : plan.backup with
  | true =>
    rw [hbackup, if_pos rfl] at hsaved
    have hmap := (under_eq_ok_iff.1 hsaved).2
    cases hwrite : plan.writeBackup d p document.text with
    | error e =>
      rw [hwrite] at hmap
      cases hmap
    | ok r =>
      rw [hwrite] at hmap
      cases hmap
      exact .inl ⟨rfl, r.2, rfl⟩
  | false =>
    rw [hbackup, if_neg Bool.false_ne_true] at hsaved
    cases hsaved
    exact .inr ⟨rfl, rfl⟩

-- ---------------------------------------------------------------------------
-- What processing does to a disk
-- ---------------------------------------------------------------------------

/-- How processing a document can go: what it amounts to, and what disk it leaves. -/
inductive Course (plan : RunPlan) (d : Disk) (p : Path) : Except (Stage × StageError) (Option Document) → Disk → Prop
  /-- The document could not be examined. -/
  | unexamined {f : Stage × StageError} (h : plan.examined d p = .error f) : Course plan d p (.error f) d
  /-- The document is not to be written. -/
  | kept {document : Document} (h : plan.examined d p = .ok document)
      (hkept : (document.changed && plan.apply) = false) : Course plan d p (.ok (some document)) d
  /-- The document could not be written, and there is no backup. -/
  | unsaved {document : Document} {f : Stage × StageError} (h : plan.examined d p = .ok document)
      (hchanged : (document.changed && plan.apply) = true) (hcommitted : plan.committed d p document = .error f) :
      Course plan d p (.error f) d
  /-- The document could not be written after its backup. -/
  | unwritten {document : Document} {f : Stage × StageError} {between : Disk} {q : Path}
      (h : plan.examined d p = .ok document) (hchanged : (document.changed && plan.apply) = true)
      (hcommitted : plan.committed d p document = .error f) (hbackup : plan.backup = true)
      (hsaved : plan.writeBackup d p document.text = .ok (between, q)) : Course plan d p (.error f) between
  /-- The document was written. -/
  | written {document : Document} {d' : Disk} (h : plan.examined d p = .ok document)
      (hchanged : (document.changed && plan.apply) = true) (hcommitted : plan.committed d p document = .ok d') :
      Course plan d p (.ok (some document)) d'

/-- Writing a document either fails and leaves the disk, or leaves another disk. -/
theorem writeDocument_eq (plan : RunPlan) (x : Progressed) (d : Disk) (p : Path) (text : Text) :
    (∃ f, plan.under .write p ((d.writeText p text).mapError .disk) = .error f
        ∧ (plan.writeDocument x d p text).1.outcome = .error f ∧ (plan.writeDocument x d p text).2 = d)
      ∨ ∃ d', plan.under .write p ((d.writeText p text).mapError .disk) = .ok d'
        ∧ (plan.writeDocument x d p text).1.outcome = x.outcome ∧ (plan.writeDocument x d p text).2 = d' := by
  unfold writeDocument
  cases hwrite : plan.hazards.guard .write p ((d.writeText p text).mapError .disk) with
  | error e => exact .inl ⟨_, under_error plan .write p hwrite, rfl, rfl⟩
  | ok d' => exact .inr ⟨_, under_ok plan .write p hwrite, rfl, rfl⟩

/-- Writing a document back leaves the disk, the disk with a backup, or the disk with the document written. -/
theorem commit_eq (plan : RunPlan) (x : Progressed) (d : Disk) (p : Path) (document : Document) :
    (∃ f, plan.committed d p document = .error f ∧ (plan.commit x d p document).1.outcome = .error f
        ∧ ((plan.commit x d p document).2 = d ∨ plan.backup = true
          ∧ ∃ q, plan.writeBackup d p document.text = .ok ((plan.commit x d p document).2, q)))
      ∨ ∃ d', plan.committed d p document = .ok d' ∧ (plan.commit x d p document).1.outcome = x.outcome
        ∧ (plan.commit x d p document).2 = d' := by
  unfold commit committed saved
  dsimp only
  cases hrender : plan.hazards.guard .serialize p ((document.render plan.settings).mapError .layout) with
  | error e =>
    rw [under_error plan .serialize p hrender]
    exact .inl ⟨_, rfl, rfl, .inl rfl⟩
  | ok text =>
    rw [under_ok plan .serialize p hrender, ok_bind]
    dsimp only
    cases hbackup : plan.backup with
    | false =>
      rw [if_neg Bool.false_ne_true, if_neg Bool.false_ne_true, ok_bind]
      rcases writeDocument_eq plan ((x.enter .serializing).enter .writing) d p text with
        ⟨f, hwrite, houtcome, hdisk⟩ | ⟨d', hwrite, houtcome, hdisk⟩
      · exact .inl ⟨f, hwrite, houtcome, .inl hdisk⟩
      · exact .inr ⟨d', hwrite, houtcome, hdisk⟩
    | true =>
      rw [if_pos rfl, if_pos rfl]
      cases hsave : plan.hazards.guard .backup p (plan.writeBackup d p document.text) with
      | error e =>
        rw [under_map, under_error plan .backup p hsave]
        exact .inl ⟨_, rfl, rfl, .inl rfl⟩
      | ok r =>
        rw [under_map, under_ok plan .backup p hsave]
        have hwrote := (guard_eq_ok_iff.1 hsave).2
        rcases writeDocument_eq plan (((x.enter .serializing).enter .writing).tell [backedUp r.2]) r.1 p text with
          ⟨f, hwrite, houtcome, hdisk⟩ | ⟨d', hwrite, houtcome, hdisk⟩
        · exact .inl ⟨f, hwrite, houtcome, .inr ⟨rfl, r.2, by rw [hwrote, hdisk]⟩⟩
        · exact .inr ⟨d', hwrite, houtcome, hdisk⟩

/-- Processing a document takes one of its courses. -/
theorem course (plan : RunPlan) (d : Disk) (p : Path) :
    Course plan d p (plan.process d p).1.outcome (plan.process d p).2 := by
  have hexamine := outcome_examine plan d p
  unfold process
  dsimp only
  cases hexamined : plan.examined d p with
  | error f =>
    rw [hexamined] at hexamine
    have hfailure := Progressed.outcome_eq_error_iff.1 hexamine
    rw [hfailure]
    dsimp only
    rw [hexamine]
    exact .unexamined hexamined
  | ok document =>
    rw [hexamined] at hexamine
    obtain ⟨hfailure, hdocument⟩ := Progressed.outcome_eq_ok_iff.1 hexamine
    rw [hfailure, hdocument]
    dsimp only
    cases hchanged : document.changed && plan.apply with
    | false =>
      rw [if_neg Bool.false_ne_true, hexamine]
      exact .kept hexamined hchanged
    | true =>
      rw [if_pos rfl]
      rcases commit_eq plan (plan.examine d p) d p document with
        ⟨f, hcommitted, houtcome, hdisk | ⟨hbackup, q, hsaved⟩⟩ | ⟨d', hcommitted, houtcome, hdisk⟩
      · rw [houtcome, hdisk]
        exact .unsaved hexamined hchanged hcommitted
      · rw [houtcome]
        exact .unwritten hexamined hchanged hcommitted hbackup hsaved
      · rw [houtcome, hdisk, hexamine]
        exact .written hexamined hchanged hcommitted

/-- Processing comes to what its operations come to. -/
theorem attempt_eq (plan : RunPlan) (d : Disk) (p : Path) :
    match plan.attempt d p with
    | .error f => (plan.process d p).1.outcome = .error f
    | .ok (document, d') => (plan.process d p).1.outcome = .ok (some document) ∧ (plan.process d p).2 = d' := by
  have hcourse := course plan d p
  unfold attempt
  generalize (plan.process d p).1.outcome = outcome at hcourse ⊢
  generalize (plan.process d p).2 = left at hcourse ⊢
  cases hcourse with
  | unexamined h => rw [h, error_bind]
  | kept h hkept =>
    rw [h, ok_bind, hkept]
    exact ⟨rfl, rfl⟩
  | unsaved h hchanged hcommitted | unwritten h hchanged hcommitted =>
    rw [h, ok_bind, hchanged, if_pos rfl, hcommitted]
    rfl
  | written h hchanged hcommitted =>
    rw [h, ok_bind, hchanged, if_pos rfl, hcommitted]
    exact ⟨rfl, rfl⟩

-- ---------------------------------------------------------------------------
-- The files concerned
-- ---------------------------------------------------------------------------

variable {text : Text} {s t : Spot}

theorem exists_of_readText (h : d.readText p = .ok text) :
    ∃ bytes, d.read p = .ok bytes ∧ Utf8.decode bytes = .ok text := by
  unfold Disk.readText at h
  cases hread : d.read p with
  | error e =>
    rw [hread] at h
    cases h
  | ok bytes =>
    rw [hread] at h
    exact ⟨bytes, rfl, eq_ok_of_mapError h⟩

/-- The bytes of the file of a document are those that its text is written as. -/
theorem file_of_examined (h : plan.examined d p = .ok document) :
    ∃ s, d.spot p = .ok s ∧ d.view s = some (.file (Utf8.encode document.text)) := by
  obtain ⟨-, htext, -⟩ := of_examined h
  obtain ⟨bytes, hread, hdecode⟩ := exists_of_readText htext
  rw [Utf8.encode_of_decode hdecode]
  exact Disk.read_eq_ok_iff.1 hread

/-- A backup is a file put at the spot of the backup's path. -/
theorem of_writeBackup (h : plan.writeBackup d p text = .ok (between, q)) :
    p.backup plan.settings.backupSuffix = .ok q
      ∧ ∃ t, d.spot q = .ok t ∧ between = d.putFile t (Utf8.encode text) := by
  unfold writeBackup at h
  cases hbackup : p.backup plan.settings.backupSuffix with
  | error e =>
    rw [hbackup] at h
    cases h
  | ok path =>
    rw [hbackup] at h
    dsimp only at h
    unfold Disk.writeText at h
    rw [Disk.write_eq] at h
    cases hspot : d.spot path with
    | error e =>
      rw [hspot] at h
      cases h
    | ok t =>
      rw [hspot] at h
      cases h
      exact ⟨rfl, t, hspot, rfl⟩

/-- A document is written at its spot, over the disk with the backup if one is wanted. -/
theorem disk_of_committed (hspot : d.spot p = .ok s) (h : plan.committed d p document = .ok d') :
    ∃ text, document.render plan.settings = .ok text
      ∧ ((plan.backup = true ∧ ∃ q t, p.backup plan.settings.backupSuffix = .ok q ∧ d.spot q = .ok t
            ∧ d' = (d.putFile t (Utf8.encode document.text)).putFile s (Utf8.encode text))
        ∨ (plan.backup = false ∧ d' = d.putFile s (Utf8.encode text))) := by
  obtain ⟨text, between, hrender, hwrite, hbetween⟩ := of_committed h
  refine ⟨text, hrender, ?_⟩
  unfold Disk.writeText at hwrite
  rw [Disk.write_eq] at hwrite
  rcases hbetween with ⟨hbackup, q, hsaved⟩ | ⟨hbackup, rfl⟩
  · obtain ⟨hq, t, ht, rfl⟩ := of_writeBackup hsaved
    rw [Disk.spot_putFile hspot (Disk.takes_of_spot ht)] at hwrite
    exact .inl ⟨hbackup, q, t, hq, ht, (Except.ok.inj hwrite).symm⟩
  · rw [hspot] at hwrite
    exact .inr ⟨hbackup, (Except.ok.inj hwrite).symm⟩

end RunPlan
end MdxSafe
