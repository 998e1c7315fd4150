-- SUMMARY: What the backup of a document holds after a run over what was found, however often it was found.
import Mathlib.Tactic.SplitIfs
import MdxSafe.Proofs.Disk.Discovery
import MdxSafe.Proofs.Run.Footprint
import MdxSafe.Proofs.Run.Step
import MdxSafe.Proofs.Text.Search

/-!
# Backups

A run goes over a document as often as it was found, and each time that the document changes, its backup is replaced. So
in the end the backup holds what the last round replaced (`Run.view_foldl`). That is the original if the document was
found once, or if a second round over it finds nothing to change; but rewriting a document may leave something to
rewrite.
-/

namespace MdxSafe

-- ---------------------------------------------------------------------------
-- Rounds
-- ---------------------------------------------------------------------------

namespace Settings

variable {s : Settings} {bytes revised : Bytes}

/-- What the content of a document is replaced by, if the passes change the document. -/
def revise? (s : Settings) (bytes : Bytes) : Option Bytes := do
  let text ← (Utf8.decode bytes).toOption
  let tree ← (Node.parse text).toOption
  let rewritten := Rewrite.run s Pass.all tree
  if rewritten.results.changed then (Layout.render s.layout rewritten.tree).toOption.map Utf8.encode else none

/-- The content after rounds of revision. -/
def reviseTimes (s : Settings) : Nat → Bytes → Bytes
  | 0, bytes => bytes
  | n + 1, bytes => match s.revise? bytes with
    | some revised => reviseTimes s n revised
    | none => bytes

/-- The content that rounds of revision replaced last, if they replaced any. -/
def lastReplaced? (s : Settings) : Nat → Bytes → Option Bytes
  | 0, _ => none
  | n + 1, bytes => (s.revise? bytes).map fun revised => (lastReplaced? s n revised).getD bytes

theorem reviseTimes_of_none (h : s.revise? bytes = none) (n : Nat) : s.reviseTimes n bytes = bytes := by
  cases n with
  | zero => rfl
  | succ n => rw [reviseTimes, h]

theorem lastReplaced?_of_none (h : s.revise? bytes = none) (n : Nat) : s.lastReplaced? n bytes = none := by
  cases n with
  | zero => rfl
  | succ n => rw [lastReplaced?, h, Option.map_none]

/-- Rounds that change a content replace one. -/
theorem exists_lastReplaced (n : Nat) (h : s.reviseTimes n bytes ≠ bytes) :
    ∃ last, s.lastReplaced? n bytes = some last := by
  cases n with
  | zero => exact absurd rfl h
  | succ n =>
    cases hrevise : s.revise? bytes with
    | none => exact absurd (reviseTimes_of_none hrevise _) h
    | some revised => exact ⟨_, by rw [lastReplaced?, hrevise, Option.map_some]⟩

/-- A content that is not revised again, or only once, is what was replaced. -/
theorem lastReplaced?_eq (n : Nat)
    (h : n = 1 ∨ ∀ revised, s.revise? bytes = some revised → s.revise? revised = none)
    (hchanged : s.reviseTimes n bytes ≠ bytes) : s.lastReplaced? n bytes = some bytes := by
  cases n with
  | zero => exact absurd rfl hchanged
  | succ n =>
    cases hrevise : s.revise? bytes with
    | none => exact absurd (reviseTimes_of_none hrevise _) hchanged
    | some revised =>
      have hnone : s.lastReplaced? n revised = none := by
        rcases h with hone | hsettled
        · rw [Nat.succ.inj hone]
          rfl
        · exact lastReplaced?_of_none (hsettled revised hrevise) n
      rw [lastReplaced?, hrevise, Option.map_some, hnone, Option.getD_none]

theorem revise?_eq {text : Text} {tree : Node} (htext : Utf8.decode bytes = .ok text)
    (htree : Node.parse text = .ok tree) :
    s.revise? bytes = if (Rewrite.run s Pass.all tree).results.changed then
      (Layout.render s.layout (Rewrite.run s Pass.all tree).tree).toOption.map Utf8.encode else none := by
  have htext : (Utf8.decode bytes).toOption = some text := by rw [htext]; rfl
  have htree : (Node.parse text).toOption = some tree := by rw [htree]; rfl
  unfold revise?
  rw [htext, Option.bind_eq_bind, Option.bind_some, htree, Option.bind_eq_bind, Option.bind_some]

end Settings

-- ---------------------------------------------------------------------------
-- One round
-- ---------------------------------------------------------------------------

namespace RunPlan

variable {plan : RunPlan} {d : Disk} {p : Path}

/-- A document that does not fail keeps its content if the passes change nothing. Else its backup gets its content, and
it gets the revised one. -/
theorem view_process (happly : plan.apply = true) (hbackup : plan.backup = true) (hlinkless : d.Linkless)
    {o : Option Document} (h : (plan.process d p).1.outcome = .ok o) :
    ∃ bytes, d.view (p.goal d.current) = some (.file bytes)
      ∧ match plan.settings.revise? bytes with
        | none => (plan.process d p).2 = d
        | some revised => ∃ t, p.backupGoal? d.current plan.settings.backupSuffix = some t
            ∧ (plan.process d p).2.view = Function.update (Function.update d.view t (some (.file bytes)))
                (p.goal d.current) (some (.file revised)) := by
  have hcourse := course plan d p
  rw [h] at hcourse
  generalize (plan.process d p).2 = left at hcourse ⊢
  cases hcourse with
  | @kept document hexamined hkept =>
    obtain ⟨tree, htext, htree, -, hchanged⟩ := of_examined hexamined
    obtain ⟨bytes, hread, hdecode⟩ := exists_of_readText htext
    refine ⟨bytes, hlinkless.view_of_read hread, ?_⟩
    have hunchanged : (Rewrite.run plan.settings Pass.all tree).results.changed = false := by
      rw [← hchanged, ← hkept, happly, Bool.and_true]
    rw [Settings.revise?_eq hdecode htree, hunchanged]
    rfl
  | @written document _ hexamined hkept hcommitted =>
    obtain ⟨tree, htext, htree, hrewritten, hchanged⟩ := of_examined hexamined
    obtain ⟨bytes, hread, hdecode⟩ := exists_of_readText htext
    refine ⟨bytes, hlinkless.view_of_read hread, ?_⟩
    obtain ⟨own, hown, -⟩ := file_of_examined hexamined
    obtain rfl := hlinkless.spot_eq hown
    rw [happly, Bool.and_true, hchanged] at hkept
    obtain ⟨text, hrender, ⟨-, q, t, hq, ht, rfl⟩ | ⟨hoff, -⟩⟩ := disk_of_committed hown hcommitted
    · unfold Document.render at hrender
      rw [hrewritten] at hrender
      rw [Settings.revise?_eq hdecode htree, if_pos hkept, hrender]
      have htakes := Disk.takes_of_spot ht
      refine ⟨t, ?_, ?_⟩
      · rw [hlinkless.spot_eq ht]
        exact Path.backupGoal?_of_backup hq
      · rw [Disk.view_putFile (Disk.takes_of_spot (Disk.spot_putFile hown htakes _)), Disk.view_putFile htakes,
          Utf8.encode_of_decode hdecode]
    · rw [hbackup] at hoff
      cases hoff

end RunPlan

-- ---------------------------------------------------------------------------
-- All rounds
-- ---------------------------------------------------------------------------

/-- A document of a run in which only documents at `own` have the backup at `backup`: it is not there itself, and its
own backup is there just if it is at `own`. -/
def Path.Respects (here : Spot) (suffix : Text) (own backup : Spot) (p : Path) : Prop :=
  p.goal here ≠ backup ∧ ∀ t ∈ p.backupGoal? here suffix, t ≠ own ∧ (t = backup ↔ p.goal here = own)

/-- How many documents of a run are at a spot. -/
def Path.countAt (here : Spot) (docs : List Path) (own : Spot) : Nat := docs.countP fun p => p.goal here = own

namespace Run

variable {plan : RunPlan} {watcher : DocumentEvent → List Log.Entry} {r : Run} {p : Path} {docs : List Path}
  {own backup : Spot} {bytes : Bytes}

/-- Errors that were told stay told. -/
theorem errors_of_foldl (h : (docs.foldl (step plan watcher) r).summary.errors = []) : r.summary.errors = [] := by
  induction docs generalizing r with
  | nil => exact h
  | cons p docs ih =>
    have hstep := ih h
    rw [summary_step, count_event, report_eq] at hstep
    exact (List.append_eq_nil_iff.1 hstep).1

/-- A document without an error came to something. -/
theorem outcome_of_errors (h : (step plan watcher r p).summary.errors = []) :
    ∃ o, (plan.process r.disk p).1.outcome = .ok o := by
  rw [summary_step, count_event] at h
  cases houtcome : (plan.process r.disk p).1.outcome with
  | error f =>
    rw [houtcome] at h
    exact absurd h (List.append_ne_nil_of_right_ne_nil _ (List.cons_ne_nil _ _))
  | ok o => exact ⟨o, rfl⟩

/-- The document at `own` goes through a round, and its backup holds what was there if anything is revised. -/
theorem view_step_of_goal (happly : plan.apply = true) (hbackup : plan.backup = true) (hlinkless : r.disk.Linkless)
    (hown : r.disk.view own = some (.file bytes)) (hne : own ≠ backup)
    (hp : p.Respects r.disk.current plan.settings.backupSuffix own backup) (hgoal : p.goal r.disk.current = own)
    (hclean : (step plan watcher r p).summary.errors = []) :
    match plan.settings.revise? bytes with
    | none => (step plan watcher r p).disk = r.disk
    | some revised => (step plan watcher r p).disk.view own = some (.file revised)
        ∧ (step plan watcher r p).disk.view backup = some (.file bytes) := by
  obtain ⟨o, houtcome⟩ := outcome_of_errors hclean
  obtain ⟨b, hb, hround⟩ := RunPlan.view_process happly hbackup hlinkless houtcome
  rw [hgoal] at hb hround
  obtain rfl : bytes = b := Occupant.file.inj (Option.some.inj (hown.symm.trans hb))
  rw [← disk_step plan watcher] at hround
  cases hrevise : plan.settings.revise? bytes with
  | none =>
    rw [hrevise] at hround
    exact hround
  | some revised =>
    rw [hrevise] at hround
    obtain ⟨t, ht, hview⟩ := hround
    obtain rfl := (hp.2 t ht).2.2 hgoal
    refine ⟨?_, ?_⟩
    · rw [hview, Function.update_self]
    · rw [hview, Function.update_of_ne (Ne.symm hne), Function.update_self]

/-- Another document leaves the one at `own` and its backup alone. -/
theorem view_step_of_ne (hlinkless : r.disk.Linkless)
    (hp : p.Respects r.disk.current plan.settings.backupSuffix own backup) (hgoal : p.goal r.disk.current ≠ own) :
    (step plan watcher r p).disk.view own = r.disk.view own
      ∧ (step plan watcher r p).disk.view backup = r.disk.view backup := by
  have hedits := RunPlan.edits_process plan hlinkless p
  rw [← disk_step plan watcher] at hedits
  exact ⟨hedits.view_eq (Ne.symm hgoal) fun ht => (hp.2 own ht).1 rfl,
    hedits.view_eq (Ne.symm hp.1) fun ht => hgoal ((hp.2 backup ht).2.1 rfl)⟩

/-- After a run without errors a document has gone through as many rounds as it was found, and its backup, if any was
made, holds what the last of them replaced. -/
theorem view_foldl (happly : plan.apply = true) (hbackup : plan.backup = true) (hlinkless : r.disk.Linkless)
    (hown : r.disk.view own = some (.file bytes)) (hne : own ≠ backup)
    (hdocs : ∀ p ∈ docs, p.Respects r.disk.current plan.settings.backupSuffix own backup)
    (hclean : (docs.foldl (step plan watcher) r).summary.errors = []) :
    (docs.foldl (step plan watcher) r).disk.view own
        = some (.file (plan.settings.reviseTimes (Path.countAt r.disk.current docs own) bytes))
      ∧ (docs.foldl (step plan watcher) r).disk.view backup
          = match plan.settings.lastReplaced? (Path.countAt r.disk.current docs own) bytes with
            | some last => some (.file last)
            | none => r.disk.view backup := by
  induction docs generalizing r bytes with
  | nil => exact ⟨hown, rfl⟩
  | cons p docs ih =>
    rw [List.foldl_cons] at hclean ⊢
    obtain ⟨hp, hrest⟩ := List.forall_mem_cons.1 hdocs
    have hedits := RunPlan.edits_process plan hlinkless p
    rw [← disk_step plan watcher] at hedits
    have hcurrent := hedits.current_eq
    have hlinkless' := hedits.linkless hlinkless
    rw [← hcurrent] at hrest
    by_cases hgoal : p.goal r.disk.current = own
    · have hround := view_step_of_goal happly hbackup hlinkless hown hne hp hgoal (errors_of_foldl hclean)
      have hcount : Path.countAt r.disk.current (p :: docs) own = Path.countAt r.disk.current docs own + 1 :=
        List.countP_cons_of_pos (by simpa using hgoal)
      rw [hcount]
      cases hrevise : plan.settings.revise? bytes with
      | none =>
        rw [hrevise] at hround
        dsimp only at hround
        have hfinal := ih hlinkless' (by rw [hround, hown]) hrest hclean
        rw [hcurrent, hround, Settings.reviseTimes_of_none hrevise, Settings.lastReplaced?_of_none hrevise] at hfinal
        rw [Settings.reviseTimes_of_none hrevise, Settings.lastReplaced?_of_none hrevise]
        exact hfinal
      | some revised =>
        rw [hrevise] at hround
        obtain ⟨hown', hsaved⟩ := hround
        have hfinal := ih hlinkless' hown' hrest hclean
        rw [hcurrent, hsaved] at hfinal
        rw [Settings.reviseTimes, Settings.lastReplaced?, hrevise, Option.map_some]
        refine ⟨hfinal.1, hfinal.2.trans ?_⟩
        cases plan.settings.lastReplaced? (Path.countAt r.disk.current docs own) revised <;> rfl
    · obtain ⟨hown', hother⟩ : (step plan watcher r p).disk.view own = r.disk.view own ∧ _ :=
        view_step_of_ne hlinkless hp hgoal
      have hcount : Path.countAt r.disk.current (p :: docs) own = Path.countAt r.disk.current docs own :=
        List.countP_cons_of_neg (by simpa using hgoal)
      rw [hcount, ← hcurrent, ← hother]
      exact ih hlinkless' (hown'.trans hown) hrest hclean

/-- What is a file for a document without an error was one before the run, if no backup is there. -/
theorem exists_file_of_mem (happly : plan.apply = true) (hbackup : plan.backup = true) (hlinkless : r.disk.Linkless)
    (hp : p ∈ docs)
    (hnone : ∀ q ∈ docs, q.backupGoal? r.disk.current plan.settings.backupSuffix ≠ some (p.goal r.disk.current))
    (hclean : (docs.foldl (step plan watcher) r).summary.errors = []) :
    ∃ bytes, r.disk.view (p.goal r.disk.current) = some (.file bytes) := by
  induction docs generalizing r with
  | nil => cases hp
  | cons q docs ih =>
    obtain ⟨hq, hrest⟩ := List.forall_mem_cons.1 hnone
    obtain ⟨o, houtcome⟩ := outcome_of_errors (errors_of_foldl hclean)
    rcases List.mem_cons.1 hp with rfl | hp
    · obtain ⟨bytes, hbytes, -⟩ := RunPlan.view_process happly hbackup hlinkless houtcome
      exact ⟨bytes, hbytes⟩
    · have hedits := RunPlan.edits_process plan hlinkless q
      rw [← disk_step plan watcher] at hedits
      rw [← hedits.current_eq] at hrest
      obtain ⟨bytes, hbytes⟩ := ih (hedits.linkless hlinkless) hp hrest hclean
      rw [hedits.current_eq] at hbytes
      rcases Entry.view_of_shape (hedits.shape_eq hq) with hsame | ⟨hfile, -⟩
      · exact ⟨bytes, hsame.symm.trans hbytes⟩
      · exact hfile

end Run

-- ---------------------------------------------------------------------------
-- What was found
-- ---------------------------------------------------------------------------

/-- The name of a document is not that of a backup. -/
theorem Path.append_md_ne_append_bak (x y : Text) : x ++ ".md".toList ≠ y ++ ".bak".toList := by
  intro h
  have hlast := congrArg List.getLast? h
  simp at hlast

/-- A document has its backup beside it, and respects every other document and its backup. -/
theorem Path.exists_backup_of_md {p : Path} (hp : p.isNormal = true) (hname : p.name.endsWith ".md" = true)
    (here : Spot) :
    ∃ q dir, p.backup ".bak" = .ok q ∧ p.goal here = dir ++ [p.name]
      ∧ q.goal here = dir ++ [p.name ++ ".bak".toList] := by
  obtain ⟨front, hfront⟩ := Text.exists_of_endsWith hname
  have hlong : 3 ≤ p.name.length := by
    rw [hfront, List.length_append]
    exact Nat.le_add_left 3 front.length
  refine Path.exists_backup hp ?_ ?_ (by decide) (by decide) here
  · intro hnil
    rw [hnil] at hlong
    exact absurd hlong (by decide)
  · intro hup
    rw [hup] at hlong
    exact absurd hlong (by decide)

theorem Path.respects_of_md {p p' q : Path} {here dir : Spot} (hname : p.name.endsWith ".md" = true)
    (hp : p.goal here = dir ++ [p.name]) (hq : q.goal here = dir ++ [p.name ++ ".bak".toList])
    (hp' : p'.isNormal = true) (hname' : p'.name.endsWith ".md" = true) :
    p'.Respects here ".bak" (p.goal here) (q.goal here) := by
  obtain ⟨q', dir', hbackup', hgoal', hqgoal'⟩ := Path.exists_backup_of_md hp' hname' here
  obtain ⟨front, hfront⟩ := Text.exists_of_endsWith hname
  obtain ⟨front', hfront'⟩ := Text.exists_of_endsWith hname'
  unfold Respects
  rw [backupGoal?_of_backup hbackup', hp, hq, hgoal', hqgoal']
  refine ⟨fun h => ?_, fun t ht => ?_⟩
  · have hsame := (List.cons.inj (List.append_inj' h rfl).2).1
    rw [hfront'] at hsame
    exact append_md_ne_append_bak _ _ hsame
  · obtain rfl := Option.some.inj ht
    refine ⟨fun h => ?_, fun h => ?_, fun h => ?_⟩
    · have hsame := (List.cons.inj (List.append_inj' h rfl).2).1
      rw [hfront] at hsame
      exact append_md_ne_append_bak _ _ hsame.symm
    · obtain ⟨rfl, hsame⟩ := List.append_inj' h rfl
      rw [List.append_cancel_right (List.cons.inj hsame).1]
    · obtain ⟨rfl, hsame⟩ := List.append_inj' h rfl
      rw [(List.cons.inj hsame).1]

namespace Run

/-- After a run without errors over the documents that were found below roots, however often each was found, a document
whose content is another one has a backup, which holds the content that the last round over the document replaced. The
backup holds the original just if that content is the original, and so it is if the document was found once or a second
round over it finds nothing to change. -/
theorem backup_original_iff (plan : RunPlan) (watcher : DocumentEvent → List Log.Entry) (duration : Binary64)
    (happly : plan.apply = true) (hbackup : plan.backup = true) (hsuffix : plan.settings.backupSuffix = ".bak") {d : Disk}
    (hlinkless : d.root.isLinkless = true) (hnamed : d.root.isWellNamed = true) {roots docs : List Path} {r : Run}
    (hroots : ∀ root ∈ roots, root.isNormal = true) (hfound : discover ".md" roots { disk := d } = .ok (docs, r))
    (hclean : (documents plan watcher duration r docs).summary.errors = []) {p : Path} (hp : p ∈ docs) :
    let run := documents plan watcher duration r docs
    let times := Path.countAt d.current docs (p.goal d.current)
    ∃ bytes q, p.backup ".bak" = .ok q ∧ d.view (p.goal d.current) = some (.file bytes)
      ∧ run.disk.view (p.goal d.current) = some (.file (plan.settings.reviseTimes times bytes))
      ∧ (plan.settings.reviseTimes times bytes ≠ bytes →
        (∃ last, plan.settings.lastReplaced? times bytes = some last
            ∧ run.disk.view (q.goal d.current) = some (.file last))
          ∧ (run.disk.view (q.goal d.current) = some (.file bytes)
            ↔ plan.settings.lastReplaced? times bytes = some bytes)
          ∧ ((times = 1 ∨ ∀ revised, plan.settings.revise? bytes = some revised → plan.settings.revise? revised = none) →
            run.disk.view (q.goal d.current) = some (.file bytes))) := by
  intro run times
  obtain ⟨hdisk, hsound⟩ := sound_discover hnamed hroots hfound
  obtain ⟨hnormal, hname⟩ := hsound p hp
  obtain ⟨q, dir, hq, hgoal, hqgoal⟩ := Path.exists_backup_of_md hnormal hname d.current
  have hstart : (start plan r).disk = d := hdisk
  have hshow : (start plan r).disk.Linkless := hstart ▸ Disk.linkless_of_isLinkless hlinkless
  have hrespects : ∀ p' ∈ docs, p'.Respects (start plan r).disk.current plan.settings.backupSuffix
      (p.goal d.current) (q.goal d.current) := by
    intro p' hp'
    rw [hstart, hsuffix]
    exact Path.respects_of_md hname hgoal hqgoal (hsound p' hp').1 (hsound p' hp').2
  have hne : p.goal d.current ≠ q.goal d.current := fun heq => (hrespects p hp).1 (by rw [hstart, heq])
  obtain ⟨bytes, hbytes⟩ := exists_file_of_mem happly hbackup hshow hp
    (fun p' hp' ht => ((hrespects p' hp').2 _ ht).1 (by rw [hstart])) hclean
  rw [hstart] at hbytes
  obtain ⟨hown, hsaved⟩ := view_foldl happly hbackup hshow (by rw [hstart]; exact hbytes) hne hrespects hclean
  rw [hstart] at hown hsaved
  refine ⟨bytes, q, hq, hbytes, hown, fun hchanged => ?_⟩
  obtain ⟨last, hlast⟩ := Settings.exists_lastReplaced times hchanged
  rw [show plan.settings.lastReplaced? (Path.countAt d.current docs (p.goal d.current)) bytes = some last from hlast]
    at hsaved
  have hholds : run.disk.view (q.goal d.current) = some (.file last) := hsaved
  refine ⟨⟨last, hlast, hholds⟩, ?_, fun hsettled => ?_⟩
  · rw [hholds, hlast, Option.some_inj, Option.some_inj]
    exact ⟨fun h => Occupant.file.inj h, fun h => congrArg Occupant.file h⟩
  · rw [Settings.lastReplaced?_eq times hsettled hchanged] at hlast
    rw [hholds, Option.some.inj hlast]

/-- A document that is found twice, where the second round has nothing to do. -/
theorem backup_original_break :
    let d : Disk := { root := .directory true [("docs", .directory true [("a.md", .file "<br>\n".toUTF8.toList)])] }
    let plan : RunPlan := { apply := true, base := {} }
    let roots : List Path := ["docs", "docs"]
    (d.root.isLinkless = true ∧ d.root.isWellNamed = true ∧ ∀ root ∈ roots, root.isNormal = true)
      ∧ ∃ docs r, discover ".md" roots { disk := d } = .ok (docs, r) ∧ docs = (["docs/a.md", "docs/a.md"] : List Path)
        ∧ (documents plan (fun _ => []) .zero r docs).summary.errors = []
        ∧ (documents plan (fun _ => []) .zero r docs).disk.view ["docs", "a.md"] = some (.file "<br />\n".toUTF8.toList)
        ∧ (documents plan (fun _ => []) .zero r docs).disk.view ["docs", "a.md.bak"]
            = some (.file "<br>\n".toUTF8.toList) := by
  intro d plan roots
  have hlinkless : d.root.isLinkless = true := by decide +kernel
  have hnamed : d.root.isWellNamed = true := by decide +kernel
  have hroots : ∀ root ∈ roots, root.isNormal = true := by decide +kernel
  have hrun : ((discover ".md" roots { disk := d }).toOption.any fun found =>
      decide (found.1 = (["docs/a.md", "docs/a.md"] : List Path)
        ∧ (documents plan (fun _ => []) .zero found.2 found.1).summary.errors = [])) = true := by decide +kernel
  obtain ⟨⟨docs, r⟩, hfound, hcond⟩ := (Option.any_eq_true _ _).1 hrun
  obtain ⟨rfl, hclean⟩ := of_decide_eq_true hcond
  replace hfound := eq_ok_of_toOption hfound
  have hp : ("docs/a.md" : Path) ∈ (["docs/a.md", "docs/a.md"] : List Path) := by decide
  obtain ⟨bytes, q, hq, hbytes, hown, hbackup⟩ :=
    backup_original_iff plan (fun _ => []) .zero rfl rfl rfl hlinkless hnamed hroots hfound hclean hp
  obtain rfl : ("docs/a.md.bak" : Path) = q := Except.ok.inj hq
  obtain rfl : "<br>\n".toUTF8.toList = bytes := Occupant.file.inj (Option.some.inj hbytes)
  have hgoal : Path.goal d.current "docs/a.md" = ["docs".toList, "a.md".toList] := by decide +kernel
  have hqgoal : Path.goal d.current "docs/a.md.bak" = ["docs".toList, "a.md.bak".toList] := by decide +kernel
  have hrevised : plan.settings.reviseTimes (Path.countAt d.current ["docs/a.md", "docs/a.md"]
      (Path.goal d.current "docs/a.md")) "<br>\n".toUTF8.toList = "<br />\n".toUTF8.toList := by decide +kernel
  rw [hrevised, hgoal] at hown
  rw [hrevised, hqgoal] at hbackup
  refine ⟨⟨hlinkless, hnamed, hroots⟩, _, r, hfound, rfl, hclean, hown, (hbackup (by decide +kernel)).2.2 (.inr ?_)⟩
  have hfirst : plan.settings.revise? "<br>\n".toUTF8.toList = some "<br />\n".toUTF8.toList := by decide +kernel
  have hsecond : plan.settings.revise? "<br />\n".toUTF8.toList = none := by decide +kernel
  intro revised hrevise
  rw [hfirst] at hrevise
  rw [← Option.some.inj hrevise, hsecond]

/-- A comment that is found twice: the second round finds a character to escape in what the first one left, and saves
that over the original. -/
theorem backup_overwritten :
    let d : Disk := { root := .directory true [("docs", .directory true
      [("a.md", .file "<!-- a < b -->\n".toUTF8.toList)])] }
    ∃ docs r, discover ".md" (["docs", "docs"] : List Path) { disk := d } = .ok (docs, r)
      ∧ d.read "docs/a.md" = .ok "<!-- a < b -->\n".toUTF8.toList
      ∧ let run := documents { apply := true, base := {} } (fun _ => []) .zero r docs
        run.summary.errors = [] ∧ run.disk.read "docs/a.md" = .ok "\x7b/* a &lt; b */\x7d\n".toUTF8.toList
          ∧ run.disk.read "docs/a.md.bak" = .ok "\x7b/* a < b */\x7d\n".toUTF8.toList := by
  intro d
  have hrun : ((discover ".md" (["docs", "docs"] : List Path) { disk := d }).toOption.any fun found =>
      let run := documents { apply := true, base := {} } (fun _ => []) .zero found.2 found.1
      decide (run.summary.errors = [] ∧ run.disk.read "docs/a.md" = .ok "\x7b/* a &lt; b */\x7d\n".toUTF8.toList
        ∧ run.disk.read "docs/a.md.bak" = .ok "\x7b/* a < b */\x7d\n".toUTF8.toList)) = true := by decide +kernel
  obtain ⟨⟨docs, r⟩, hfound, hcond⟩ := (Option.any_eq_true _ _).1 hrun
  exact ⟨docs, r, eq_ok_of_toOption hfound, by decide +kernel, of_decide_eq_true hcond⟩

end Run
end MdxSafe
