-- SUMMARY: What processing a document touches on a disk without links, and what it depends on.
import Mathlib.Logic.Relation
import MdxSafe.Proofs.Disk.Beside
import MdxSafe.Proofs.Run.Process

/-!
# The footprint of a document

On a disk without links a document is processed within its footprint: its goal and the goal of its backup
(`Path.Touches`). Nothing else is changed, and even the backup changes the shape of the disk at its goal only
(`RunPlan.edits_process`). What comes of the document depends on nothing but what its path and that of its backup
lead to (`RunPlan.process_congr`).
-/

namespace MdxSafe

-- ---------------------------------------------------------------------------
-- Footprints
-- ---------------------------------------------------------------------------

namespace Path

variable {here : Spot} {suffix : Text} {p q : Path} {s : Spot}

/-- The goal of the backup of a file, if it can have one. -/
def backupGoal? (here : Spot) (suffix : Text) (p : Path) : Option Spot :=
  match p.backup suffix with
  | .ok q => some (q.goal here)
  | .error _ => none

/-- The spots that processing a document may change. -/
def Touches (here : Spot) (suffix : Text) (p : Path) (s : Spot) : Prop :=
  s = p.goal here ∨ p.backupGoal? here suffix = some s

theorem backupGoal?_eq_some_iff :
    p.backupGoal? here suffix = some s ↔ ∃ q, p.backup suffix = .ok q ∧ q.goal here = s := by
  unfold backupGoal?
  cases p.backup suffix with
  | error e => simp
  | ok q => simp

theorem backupGoal?_of_backup (h : p.backup suffix = .ok q) : p.backupGoal? here suffix = some (q.goal here) :=
  backupGoal?_eq_some_iff.2 ⟨q, h, rfl⟩

end Path

-- ---------------------------------------------------------------------------
-- Edits
-- ---------------------------------------------------------------------------

namespace Disk

variable {own t : Spot} {backup : Option Spot} {d d' : Disk}

/-- A file put at the spot of a backup, or over the file at the spot of its own. -/
inductive Edit (own : Spot) (backup : Option Spot) (d : Disk) : Disk → Prop
  | save {t : Spot} (h : d.Takes t) (hbackup : backup = some t) (bytes : Bytes) : Edit own backup d (d.putFile t bytes)
  | replace {b : Bytes} (h : d.view own = some (.file b)) (bytes : Bytes) :
    Edit own backup d (d.putFile own bytes)

/-- Edits one after the other. -/
abbrev Edits (own : Spot) (backup : Option Spot) : Disk → Disk → Prop := Relation.ReflTransGen (Edit own backup)

theorem Edits.current_eq (h : Edits own backup d d') : d'.current = d.current := by
  induction h with
  | refl => rfl
  | tail _ hedit ih => cases hedit <;> exact ih

theorem Edits.linkless (h : Edits own backup d d') (hlinkless : d.Linkless) : d'.Linkless := by
  induction h with
  | refl => exact hlinkless
  | tail _ hedit ih =>
    cases hedit with
    | save htakes _ bytes => exact ih.putFile htakes bytes
    | replace hfile bytes => exact ih.putFile (.inl ⟨_, hfile⟩) bytes

theorem Edits.view_eq (h : Edits own backup d d') (hown : t ≠ own) (hbackup : backup ≠ some t) :
    d'.view t = d.view t := by
  induction h with
  | refl => rfl
  | tail _ hedit ih =>
    cases hedit with
    | save htakes hspot bytes =>
      have hne : t ≠ _ := fun heq => hbackup (hspot.trans (congrArg some heq.symm))
      rw [view_putFile_of_ne htakes bytes hne, ih]
    | replace hfile bytes => rw [view_putFile_of_ne (.inl ⟨_, hfile⟩) bytes hown, ih]

theorem Edits.shape_eq (h : Edits own backup d d') (hbackup : backup ≠ some t) : d'.shape t = d.shape t := by
  induction h with
  | refl => rfl
  | tail _ hedit ih =>
    cases hedit with
    | save htakes hspot bytes =>
      have hne : t ≠ _ := fun heq => hbackup (hspot.trans (congrArg some heq.symm))
      rw [shape_putFile_of_ne htakes bytes hne, ih]
    | replace hfile bytes => rw [shape_putFile_of_file hfile bytes, ih]

end Disk

-- ---------------------------------------------------------------------------
-- What is touched
-- ---------------------------------------------------------------------------

namespace RunPlan

variable {plan : RunPlan} {d d' : Disk} {p q : Path} {document : Document} {s t : Spot}
  {outcome : Except (Stage × StageError) (Option Document)}

theorem Course.edits (h : Course plan d p outcome d') (hlinkless : d.Linkless) :
    Disk.Edits (p.goal d.current) (p.backupGoal? d.current plan.settings.backupSuffix) d d' := by
  have hsave : ∀ {q t} (bytes : Bytes), p.backup plan.settings.backupSuffix = .ok q → d.spot q = .ok t →
      Disk.Edit (p.goal d.current) (p.backupGoal? d.current plan.settings.backupSuffix) d (d.putFile t bytes) := by
    intro q t bytes hq ht
    refine .save (Disk.takes_of_spot ht) ?_ bytes
    rw [hlinkless.spot_eq ht]
    exact Path.backupGoal?_of_backup hq
  cases h with
  | unexamined _ => exact .refl
  | kept _ _ => exact .refl
  | unsaved _ _ _ => exact .refl
  | unwritten h _ _ _ hsaved =>
    obtain ⟨hq, t, ht, rfl⟩ := of_writeBackup hsaved
    exact .single (hsave _ hq ht)
  | @written document d' h _ hcommitted =>
    obtain ⟨own, hown, hview⟩ := file_of_examined h
    obtain rfl := hlinkless.spot_eq hown
    obtain ⟨text, -, ⟨-, q, t, hq, ht, rfl⟩ | ⟨-, rfl⟩⟩ := disk_of_committed hown hcommitted
    · exact .tail (.single (hsave _ hq ht)) (.replace (Disk.view_putFile_of_view (Disk.takes_of_spot ht) hview) _)
    · exact .single (.replace hview _)

/-- Processing a document edits its backup and itself, and nothing else. -/
theorem edits_process (plan : RunPlan) (hlinkless : d.Linkless) (p : Path) :
    Disk.Edits (p.goal d.current) (p.backupGoal? d.current plan.settings.backupSuffix) d (plan.process d p).2 :=
  (course plan d p).edits hlinkless

-- ---------------------------------------------------------------------------
-- What it depends on
-- ---------------------------------------------------------------------------

theorem examine_congr (hread : d'.read p = d.read p) : plan.examine d' p = plan.examine d p := by
  have htext : d'.readText p = d.readText p := by
    unfold Disk.readText
    rw [hread]
  unfold examine
  rw [htext]

theorem writeDocument_congr (plan : RunPlan) (x : Progressed) (text : Text) (h' : d'.spot p = .ok s)
    (h : d.spot p = .ok s) :
    (plan.writeDocument x d' p text).1 = (plan.writeDocument x d p text).1
      ∧ ∀ t, d'.view t = d.view t →
        (plan.writeDocument x d' p text).2.view t = (plan.writeDocument x d p text).2.view t := by
  unfold writeDocument Disk.writeText Hazards.guard
  rw [Disk.write_eq, Disk.write_eq, h', h]
  cases plan.hazards .write p with
  | some m => exact ⟨rfl, fun t ht => ht⟩
  | none =>
    exact ⟨rfl, fun t ht => Disk.view_putFile_congr (Disk.takes_of_spot h') (Disk.takes_of_spot h) _ ht⟩

theorem commit_congr (x : Progressed) (document : Document) (h' : d'.spot p = .ok s) (h : d.spot p = .ok s)
    (hbackup : ∀ q, p.backup plan.settings.backupSuffix = .ok q → d'.spot q = d.spot q) :
    (plan.commit x d' p document).1 = (plan.commit x d p document).1
      ∧ ∀ t, d'.view t = d.view t →
        (plan.commit x d' p document).2.view t = (plan.commit x d p document).2.view t := by
  unfold commit
  dsimp only
  cases plan.hazards.guard .serialize p ((document.render plan.settings).mapError .layout) with
  | error e => exact ⟨rfl, fun t ht => ht⟩
  | ok text =>
    dsimp only
    by_cases hwanted : plan.backup = true
    · rw [if_pos hwanted, if_pos hwanted]
      unfold Hazards.guard writeBackup Disk.writeText
      cases plan.hazards .backup p with
      | some m => exact ⟨rfl, fun t ht => ht⟩
      | none =>
        cases hq : p.backup plan.settings.backupSuffix with
        | error e => exact ⟨rfl, fun t ht => ht⟩
        | ok q =>
          dsimp only
          rw [Disk.write_eq, Disk.write_eq, hbackup q hq]
          cases ht : d.spot q with
          | error e => exact ⟨rfl, fun t ht => ht⟩
          | ok t =>
            have ht' := (hbackup q hq).trans ht
            have htakes := Disk.takes_of_spot ht
            have htakes' := Disk.takes_of_spot ht'
            obtain ⟨hsame, hview⟩ := writeDocument_congr plan
              (((x.enter .serializing).enter .writing).tell [backedUp q]) text
              (Disk.spot_putFile h' htakes' (Utf8.encode document.text))
              (Disk.spot_putFile h htakes (Utf8.encode document.text))
            exact ⟨hsame, fun u hu => hview u (Disk.view_putFile_congr htakes' htakes _ hu)⟩
    · rw [if_neg hwanted, if_neg hwanted]
      exact writeDocument_congr plan _ text h' h

/-- What comes of a document depends on what its path and that of its backup lead to, and so does what is left where
two disks were the same. -/
theorem process_congr (hread : d'.read p = d.read p) (hspot : d'.spot p = d.spot p)
    (hbackup : ∀ q, p.backup plan.settings.backupSuffix = .ok q → d'.spot q = d.spot q) :
    (plan.process d' p).1 = (plan.process d p).1
      ∧ ∀ t, d'.view t = d.view t → (plan.process d' p).2.view t = (plan.process d p).2.view t := by
  have houtcome := outcome_examine plan d p
  unfold process
  rw [examine_congr hread]
  dsimp only
  cases hfailure : (plan.examine d p).failure with
  | some f => exact ⟨rfl, fun t ht => ht⟩
  | none =>
    cases hdocument : (plan.examine d p).document with
    | none => exact ⟨rfl, fun t ht => ht⟩
    | some document =>
      dsimp only
      by_cases hchanged : (document.changed && plan.apply) = true
      · rw [if_pos hchanged, if_pos hchanged]
        rw [Progressed.outcome_eq_ok_iff.2 ⟨hfailure, hdocument⟩] at houtcome
        cases hexamined : plan.examined d p with
        | error f =>
          rw [hexamined] at houtcome
          cases houtcome
        | ok examined =>
          obtain ⟨s, hs, -⟩ := file_of_examined hexamined
          exact commit_congr _ document (hspot.trans hs) hs hbackup
      · rw [if_neg hchanged, if_neg hchanged]
        exact ⟨rfl, fun t ht => ht⟩

end RunPlan
end MdxSafe
