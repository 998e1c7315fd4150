-- SUMMARY: Entering a repository as a run of steps on a disk.
import MdxSafe.Proofs.Site.Step

/-!
# Runs of steps

As long as no write fails, what a step comes to is decided by the settings and the disk (`SiteSettings.outcome`), so that
entering a repository is a run of its steps on the disk (`Site.shown_onboard`).
-/

namespace MdxSafe

/-- The path of a file of a site on a disk. -/
def Disk.sitePath (d : Disk) (relative : Text) : Path := d.currentPath.join (.ofText relative)

/-- The path of the folder of the documents of a repository. -/
def SiteSettings.docsPath (s : SiteSettings) (d : Disk) (repo : Text) : Path := (d.sitePath s.docsDir).join (.ofText repo)

/-- What a step comes to on a disk as long as no write fails. -/
def SiteSettings.outcome (s : SiteSettings) (repo : Text) (d : Disk) (step : OnboardingStep) :
    Except SiteError (StepStatus × Disk) :=
  Site.came (Site.guarded { disk := d, settings := s } repo step)

/-- The steps of what came of entering a repository with their status, and the disk that is left. -/
def Onboarded.shown (x : Onboarded) : Except OnboardingError (List (OnboardingStep × StepStatus)) × Disk :=
  (x.results.map (List.map fun r => (r.step, r.status)), x.site.disk)

/-- Run steps on a disk one after the other. If the workflow fails nothing else is attempted. -/
def runAll (f : Disk → OnboardingStep → Except SiteError (StepStatus × Disk)) :
    List OnboardingStep → Disk → Except SiteError (List (OnboardingStep × StepStatus)) × Disk
  | [], d => (.ok [], d)
  | step :: steps, d =>
    match f d step with
    | .error e => (.error e, d)
    | .ok (status, d) =>
      let rest := if step = .workflow ∧ status = .failed then (.ok [], d) else runAll f steps d
      (rest.1.map ((step, status) :: ·), rest.2)

variable {s : SiteSettings} {site : Site} {repo value : Text} {step : OnboardingStep} {steps : List OnboardingStep}
  {d d' : Disk} {e : FileEdit} {next : StepResult → Site → Onboarded} {status : StepStatus}
  {f : Disk → OnboardingStep → Except SiteError (StepStatus × Disk)}

theorem runAll_cons_of_error {e : SiteError} (h : f d step = .error e) : runAll f (step :: steps) d = (.error e, d) := by
  unfold runAll
  rw [h]

theorem runAll_cons_of_failed (h : f d .workflow = .ok (.failed, d')) :
    runAll f (.workflow :: steps) d = (.ok [(.workflow, .failed)], d') := by
  unfold runAll
  rw [h]
  rfl

theorem runAll_cons_of_ok (h : f d step = .ok (status, d')) (hgate : ¬ (step = .workflow ∧ status = .failed)) :
    runAll f (step :: steps) d = ((runAll f steps d').1.map ((step, status) :: ·), (runAll f steps d').2) := by
  rw [runAll, h]
  dsimp only
  rw [if_neg hgate]

namespace SiteSettings

theorem edited_outcome (d : Disk) (he : step.fileEdit? s repo = some e) :
    Site.Edited d none (d.sitePath e.file) e.edit (s.outcome repo d step) :=
  Site.edited_guarded (s := { disk := d, settings := s }) he

theorem foldered_outcome (s : SiteSettings) (repo : Text) (d : Disk) :
    Site.Foldered d (s.docsPath d repo) (s.outcome repo d .docsFolder) :=
  Site.foldered_guarded { disk := d, settings := s } repo

end SiteSettings

namespace Site

theorem came_guarded_eq_outcome (h : site.failing = none) (repo : Text) (step : OnboardingStep) :
    came (site.guarded repo step) = site.settings.outcome repo site.disk step := by
  cases he : step.fileEdit? site.settings repo with
  | some e =>
    have hedited := edited_guarded he
    rw [h] at hedited
    exact hedited.eq (SiteSettings.edited_outcome site.disk he)
  | none =>
    cases step with
    | docsFolder => exact (foldered_guarded site repo).eq (SiteSettings.foldered_outcome _ _ _)
    | workflow => cases he
    | sidebars => cases he
    | navbar => cases he

/-- What a step comes to, and then what comes next. -/
theorem shown_doing (h : site.failing = none)
    (after : StepStatus → Disk → Except SiteError (List (OnboardingStep × StepStatus)) × Disk)
    (hnext : ∀ r site', site'.failing = none → site'.settings = site.settings →
      (next r site').shown = Prod.map (Except.mapError .site) id (after r.status site'.disk)) :
    (site.doing repo step next).shown
      = Prod.map (Except.mapError .site) id
          (match site.settings.outcome repo site.disk step with
            | .error e => (.error e, site.disk)
            | .ok (status, d) => ((after status d).1.map ((step, status) :: ·), (after status d).2)) := by
  rw [← came_guarded_eq_outcome h]
  unfold doing
  cases hguarded : site.guarded repo step with
  | error e => rfl
  | ok y =>
    obtain ⟨r, site'⟩ := y
    obtain ⟨rfl, hsettings, hfailing⟩ := guarded_eq_ok hguarded
    have hrest := hnext r site' (hfailing h) hsettings
    show ((((next r site').results.map (r :: ·)).map _ : Except _ _), (next r site').site.disk) = _
    rw [Prod.ext_iff] at hrest ⊢
    refine ⟨?_, hrest.2⟩
    have hresults : (next r site').results.map (List.map fun r => (r.step, r.status))
        = (after r.status site'.disk).1.mapError .site := hrest.1
    show _ = ((after r.status site'.disk).1.map ((r.step, r.status) :: ·)).mapError OnboardingError.site
    generalize (after r.status site'.disk).1 = y at hresults
    generalize (next r site').results = x at hresults
    cases x with
    | error e =>
      cases y with
      | error e' => exact hresults
      | ok rs => cases hresults
    | ok rs =>
      cases y with
      | error e' => cases hresults
      | ok rs' => exact congrArg (fun rs => Except.ok ((r.step, r.status) :: rs)) (Except.ok.inj hresults)

theorem shown_performAll (h : site.failing = none) (hsteps : OnboardingStep.workflow ∉ steps) :
    (performAll repo steps site).shown
      = Prod.map (Except.mapError .site) id (runAll (site.settings.outcome repo) steps site.disk) := by
  induction steps generalizing site with
  | nil => rfl
  | cons step steps ih =>
    obtain ⟨hstep, hsteps⟩ := not_or.1 (List.mem_cons.not.1 hsteps)
    unfold performAll runAll
    refine (shown_doing h (fun _ d => runAll (site.settings.outcome repo) steps d) ?_).trans ?_
    · intro r site' hfailing hsettings
      rw [ih hfailing hsteps, hsettings]
    · have hgate : ∀ status, ¬ (step = .workflow ∧ status = StepStatus.failed) := fun _ hgate => hstep hgate.1.symm
      simp only [hgate, if_false]

/-- What follows a step that leaves the settings, and brings no failing writes, does so as well. -/
theorem doing_frame (h : site.failing = none)
    (hnext : ∀ r site', site'.failing = none →
      (next r site').site.settings = site'.settings ∧ (next r site').site.failing = none) :
    (site.doing repo step next).site.settings = site.settings ∧ (site.doing repo step next).site.failing = none := by
  unfold doing
  cases hguarded : site.guarded repo step with
  | error e => exact ⟨rfl, h⟩
  | ok y =>
    obtain ⟨r, site'⟩ := y
    obtain ⟨-, hsettings, hfailing⟩ := guarded_eq_ok hguarded
    exact (hnext r site' (hfailing h)).imp_left (·.trans hsettings)

theorem performAll_frame (h : site.failing = none) (repo : Text) (steps : List OnboardingStep) :
    (performAll repo steps site).site.settings = site.settings ∧ (performAll repo steps site).site.failing = none := by
  induction steps generalizing site with
  | nil => exact ⟨rfl, h⟩
  | cons step steps ih => exact doing_frame h fun _ _ hsite => ih hsite

/-- Entering a repository leaves the settings, and brings no failing writes. -/
theorem onboard_frame (h : site.failing = none) (value : Text) :
    (site.onboard value).site.settings = site.settings ∧ (site.onboard value).site.failing = none := by
  unfold onboard
  split
  · exact ⟨rfl, h⟩
  · exact doing_frame h fun _ _ hsite => performAll_frame hsite _ _

/-- A repository is entered by a run of all steps. -/
theorem shown_onboard (h : site.failing = none) (hname : RepoName.ofText value ≠ []) :
    (site.onboard value).shown
      = Prod.map (Except.mapError .site) id
          (runAll (site.settings.outcome (RepoName.ofText value)) [.workflow, .docsFolder, .sidebars, .navbar]
            site.disk) := by
  unfold onboard
  split
  · next hnil => exact absurd hnil hname
  · generalize RepoName.ofText value = repo
    unfold runAll
    refine (shown_doing h (fun status d => if OnboardingStep.workflow = .workflow ∧ status = .failed then (.ok [], d)
      else runAll (site.settings.outcome repo) [.docsFolder, .sidebars, .navbar] d) ?_).trans rfl
    intro r site' hfailing hsettings
    by_cases hfailed : r.status = .failed
    · have hok : r.ok = false := by
        unfold StepResult.ok
        rw [hfailed]
        rfl
      rw [hok, hfailed]
      rfl
    · have hok : r.ok = true := decide_eq_true hfailed
      have hgate : ¬ (OnboardingStep.workflow = .workflow ∧ r.status = .failed) := fun hgate => hfailed hgate.2
      rw [hok, if_neg hgate, if_pos rfl, shown_performAll hfailing (by decide), hsettings]

end Site
end MdxSafe
