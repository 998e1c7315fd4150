-- SUMMARY: Documents that lie apart, and how a run over them relates to the disk it started from.
import MdxSafe.Proofs.Run.Footprint
import MdxSafe.Proofs.Run.Step

/-!
# Documents apart

Documents lie apart if they have different goals and the backup of none is at another one or on the way to it
(`Path.Apart`). While a run goes over such documents, its disk differs from the one it started with in their footprints
alone, and there it is what each document alone would have left (`RunPlan.Reached`). So each document comes to what it
would have come to on the disk at the start (`Run.foldl_of_reached`).
-/

namespace MdxSafe

namespace Path

variable {here : Spot} {suffix : Text} {p q : Path} {s t : Spot}

-- ---------------------------------------------------------------------------
-- Apart
-- ---------------------------------------------------------------------------

/-- Two paths with different goals, such that the backup of neither is at the goal of the other or on the way to it. -/
def Apart (here : Spot) (suffix : Text) (p q : Path) : Prop :=
  p.goal here ≠ q.goal here ∧ (∀ t ∈ p.backupGoal? here suffix, t ∉ q.route here)
    ∧ ∀ t ∈ q.backupGoal? here suffix, t ∉ p.route here

instance : DecidableRel (Apart here suffix) := fun p q =>
  inferInstanceAs (Decidable (p.goal here ≠ q.goal here ∧ _ ∧ _))

theorem Apart.symm (h : Apart here suffix p q) : Apart here suffix q p := ⟨Ne.symm h.1, h.2.2, h.2.1⟩

instance : Std.Symm (Apart here suffix) := ⟨fun _ _ => Apart.symm⟩

theorem goal_mem_route (here : Spot) (p : Path) : p.goal here ∈ p.route here :=
  List.mem_of_getLast? List.getLast?_scanl

/-- The footprints of documents that lie apart have nothing in common. -/
theorem Apart.not_touches (h : Apart here suffix p q) (hp : p.isNormal = true) (hq : q.isNormal = true)
    (hs : p.Touches here suffix s) : ¬ q.Touches here suffix s := by
  intro hs'
  rcases hs with rfl | hbackup
  · rcases hs' with heq | hbackup'
    · exact h.1 heq
    · exact h.2.2 _ hbackup' (goal_mem_route here p)
  · rcases hs' with rfl | hbackup'
    · exact h.2.1 _ hbackup (goal_mem_route here q)
    · obtain ⟨b, hb, rfl⟩ := backupGoal?_eq_some_iff.1 hbackup
      obtain ⟨b', hb', hsame⟩ := backupGoal?_eq_some_iff.1 hbackup'
      exact h.1 (goal_eq_of_backup hp hq hb hb' hsame.symm)

end Path

namespace RunPlan

variable {plan : RunPlan} {d₀ d : Disk} {done : List Path} {p q : Path} {t : Spot}

-- ---------------------------------------------------------------------------
-- How far a run got
-- ---------------------------------------------------------------------------

/-- The disk of a run over documents, in terms of the disk at the start. -/
structure Reached (plan : RunPlan) (d₀ : Disk) (done : List Path) (d : Disk) : Prop where
  current : d.current = d₀.current
  linkless : d.Linkless
  /-- What no document touches is as it was. -/
  kept : ∀ t, (∀ p ∈ done, ¬ p.Touches d₀.current plan.settings.backupSuffix t) → d.view t = d₀.view t
  /-- The shape is as it was but at the backups. -/
  shape : ∀ t, (∀ p ∈ done, p.backupGoal? d₀.current plan.settings.backupSuffix ≠ some t) → d.shape t = d₀.shape t
  /-- In its footprint, every document left what it leaves if it is processed at the start. -/
  own : ∀ p ∈ done, ∀ t, p.Touches d₀.current plan.settings.backupSuffix t →
    d.view t = (plan.process d₀ p).2.view t

theorem reached_start (plan : RunPlan) (h : d₀.Linkless) : Reached plan d₀ [] d₀ where
  current := rfl
  linkless := h
  kept := fun _ _ => rfl
  shape := fun _ _ => rfl
  own := fun _ hp => nomatch hp

/-- On the way to a document that lies apart from others, and to its backup, all is as it was. -/
theorem Reached.alike (h : Reached plan d₀ done d) (hlinkless : d₀.Linkless) (hp : p.isNormal = true)
    (hdone : ∀ q ∈ done, q.isNormal = true)
    (hapart : ∀ q ∈ done, q.Apart d₀.current plan.settings.backupSuffix p) :
    d.read p = d₀.read p ∧ d.spot p = d₀.spot p
      ∧ (∀ q, p.backup plan.settings.backupSuffix = .ok q → d.spot q = d₀.spot q)
      ∧ ∀ t, p.Touches d₀.current plan.settings.backupSuffix t → d.view t = d₀.view t := by
  have hview : ∀ t, p.Touches d₀.current plan.settings.backupSuffix t → d.view t = d₀.view t := fun t ht =>
    h.kept t fun q hq => (hapart q hq).symm.not_touches hp (hdone q hq) ht
  have hroute : ∀ t ∈ p.route d₀.current, d.shape t = d₀.shape t := fun t ht =>
    h.shape t fun q hq hbackup => (hapart q hq).2.1 t hbackup ht
  have hgoal := hview _ (.inl rfl)
  refine ⟨Disk.read_congr hlinkless h.current hroute hgoal, Disk.spot_congr hlinkless h.current hroute hgoal, ?_, hview⟩
  intro q hq
  have hbackup := hview _ (.inr (Path.backupGoal?_of_backup hq))
  obtain ⟨-, -, -, hon⟩ := Path.route_of_backup hp hq d₀.current
  refine Disk.spot_congr hlinkless h.current (fun t ht => ?_) hbackup
  rcases hon t ht with ht | rfl
  · exact hroute t ht
  · exact congrArg (Option.map Occupant.blank) hbackup

/-- A document that lies apart from those before it comes to what it comes to at the start, and the run gets further. -/
theorem Reached.process (h : Reached plan d₀ done d) (hlinkless : d₀.Linkless) (hp : p.isNormal = true)
    (hdone : ∀ q ∈ done, q.isNormal = true)
    (hapart : ∀ q ∈ done, q.Apart d₀.current plan.settings.backupSuffix p) :
    (plan.process d p).1 = (plan.process d₀ p).1 ∧ Reached plan d₀ (done ++ [p]) (plan.process d p).2 := by
  obtain ⟨hread, hspot, hbackup, hview⟩ := h.alike hlinkless hp hdone hapart
  obtain ⟨hcame, hleft⟩ := process_congr hread hspot hbackup
  have hedits := edits_process plan h.linkless p
  rw [h.current] at hedits
  have houtside : ∀ t, ¬ p.Touches d₀.current plan.settings.backupSuffix t →
      (plan.process d p).2.view t = d.view t := fun t ht =>
    hedits.view_eq (fun heq => ht (.inl heq)) fun heq => ht (.inr heq)
  refine ⟨hcame, ?_⟩
  constructor
  case current => exact hedits.current_eq.trans h.current
  case linkless => exact hedits.linkless h.linkless
  case kept =>
    intro t ht
    rw [houtside t (ht p (List.mem_append_right done List.mem_cons_self))]
    exact h.kept t fun q hq => ht q (List.mem_append_left _ hq)
  case shape =>
    intro t ht
    rw [hedits.shape_eq (ht p (List.mem_append_right done List.mem_cons_self))]
    exact h.shape t fun q hq => ht q (List.mem_append_left _ hq)
  case own =>
    intro q hq t ht
    rcases List.mem_append.1 hq with hq | hq
    · rw [houtside t ((hapart q hq).not_touches (hdone q hq) hp ht)]
      exact h.own q hq t ht
    · obtain rfl := List.mem_singleton.1 hq
      exact hleft t (hview t ht)

end RunPlan

-- ---------------------------------------------------------------------------
-- Runs
-- ---------------------------------------------------------------------------

namespace Run

variable {plan : RunPlan} {r : Run} {d₀ : Disk} {done paths : List Path}

/-- A run over documents that lie apart counts and tells what each of them comes to at the start. -/
theorem foldl_of_reached (watcher : DocumentEvent → List Log.Entry) (h : RunPlan.Reached plan d₀ done r.disk)
    (hlinkless : d₀.Linkless) (hnormal : ∀ p ∈ done ++ paths, p.isNormal = true)
    (hapart : (done ++ paths).Pairwise (Path.Apart d₀.current plan.settings.backupSuffix)) :
    RunPlan.Reached plan d₀ (done ++ paths) (paths.foldl (step plan watcher) r).disk
      ∧ (paths.foldl (step plan watcher) r).summary = tally plan (fun p => (plan.process d₀ p).1) r.summary paths
      ∧ (paths.foldl (step plan watcher) r).events
          = r.events ++ paths.map fun p => (event plan p (plan.process d₀ p).1).1 := by
  induction paths generalizing done r with
  | nil => exact ⟨by rwa [List.append_nil], rfl, (List.append_nil _).symm⟩
  | cons p paths ih =>
    have hsplit : done ++ p :: paths = (done ++ [p]) ++ paths := by simp
    have hp := hnormal p (List.mem_append_right done List.mem_cons_self)
    have hdone : ∀ q ∈ done, q.isNormal = true := fun q hq => hnormal q (List.mem_append_left _ hq)
    have hbefore : ∀ q ∈ done, q.Apart d₀.current plan.settings.backupSuffix p := fun q hq =>
      (List.pairwise_append.1 hapart).2.2 q hq p List.mem_cons_self
    obtain ⟨hcame, hreached⟩ := h.process hlinkless hp hdone hbefore
    rw [← disk_step plan watcher r p] at hreached
    rw [hsplit] at hnormal hapart ⊢
    obtain ⟨hdisk, hsummary, hevents⟩ := ih hreached hnormal hapart
    rw [summary_step, count_event, hcame] at hsummary
    rw [events_step, hcame, List.append_assoc] at hevents
    exact ⟨hdisk, hsummary, hevents⟩

end Run
end MdxSafe
