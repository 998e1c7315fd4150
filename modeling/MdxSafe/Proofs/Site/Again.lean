-- SUMMARY: Entering a repository a second time: each step is settled, and nothing changes.
import MdxSafe.Proofs.Site.RepoName
import MdxSafe.Proofs.Site.Run
import MdxSafe.Proofs.Text.Utf8

/-!
# Entering a repository again

A step that was run is settled: run again at once it leaves the disk as it is, and is skipped unless it failed
(`SiteSettings.outcome_again`). The steps that follow leave it settled (`SiteSettings.outcome_kept`), so that a second
run of all steps changes nothing (`Site.onboard_again`).
-/

namespace MdxSafe

/-- What comes of a step that is run again. -/
def StepStatus.again : StepStatus → StepStatus
  | applied | skipped => skipped
  | failed => failed

/-- A status that a second run can have. -/
theorem StepStatus.again_ne_applied (status : StepStatus) : status.again ≠ .applied := by
  cases status <;> decide

-- ---------------------------------------------------------------------------
-- Runs
-- ---------------------------------------------------------------------------

variable {f : Disk → OnboardingStep → Except SiteError (StepStatus × Disk)} {inv : Disk → Prop}

/-- A step that changes nothing, run before a step, still changes nothing after it. -/
def Keeps (f : Disk → OnboardingStep → Except SiteError (StepStatus × Disk)) (inv : Disk → Prop)
    (settled step : OnboardingStep) : Prop :=
  ∀ d status status' d', inv d → status ≠ .applied → ¬ (settled = .workflow ∧ status = .failed) →
    f d settled = .ok (status, d) → f d step = .ok (status', d') → f d' settled = .ok (status, d')

theorem runAll_keeps {steps : List OnboardingStep} {settled : OnboardingStep} {status : StepStatus} {d : Disk}
    (hinv : ∀ d step status d', inv d → f d step = .ok (status, d') → inv d')
    (hkeep : ∀ step ∈ steps, Keeps f inv settled step) (hd : inv d) (hstatus : status ≠ .applied)
    (hgate : ¬ (settled = .workflow ∧ status = .failed)) (h : f d settled = .ok (status, d)) :
    f (runAll f steps d).2 settled = .ok (status, (runAll f steps d).2) := by
  induction steps generalizing d with
  | nil => exact h
  | cons step steps ih =>
    obtain ⟨hstep, hsteps⟩ := List.forall_mem_cons.1 hkeep
    unfold runAll
    cases hf : f d step with
    | error e => exact h
    | ok y =>
      obtain ⟨status', d'⟩ := y
      have hd' := hstep d status status' d' hd hstatus hgate h hf
      dsimp only
      split
      · exact hd'
      · exact ih hsteps (hinv d step status' d' hd hf) hd'

/-- Steps that are settled once they were run, and are kept settled by those that follow, change nothing when they are
run again. -/
theorem runAll_again {steps : List OnboardingStep} {d : Disk}
    (hinv : ∀ d step status d', inv d → f d step = .ok (status, d') → inv d')
    (hagain : ∀ d step status d', inv d → f d step = .ok (status, d') → f d' step = .ok (status.again, d'))
    (hkeep : steps.Pairwise (Keeps f inv)) (hd : inv d) :
    runAll f steps (runAll f steps d).2
      = ((runAll f steps d).1.map (List.map (Prod.map id StepStatus.again)), (runAll f steps d).2) := by
  induction steps generalizing d with
  | nil => rfl
  | cons step steps ih =>
    obtain ⟨hstep, hsteps⟩ := List.pairwise_cons.1 hkeep
    cases hf : f d step with
    | error e =>
      rw [runAll_cons_of_error hf]
      exact runAll_cons_of_error hf
    | ok y =>
      obtain ⟨status, d'⟩ := y
      have hd' := hinv d step status d' hd hf
      have hsettled := hagain d step status d' hd hf
      by_cases hgate : step = .workflow ∧ status = .failed
      · obtain ⟨rfl, rfl⟩ := hgate
        rw [runAll_cons_of_failed hf]
        exact runAll_cons_of_failed hsettled
      · have hgate' : ¬ (step = .workflow ∧ status.again = .failed) := by
          cases status with
          | applied => exact fun h => nomatch h.2
          | skipped => exact fun h => nomatch h.2
          | failed => exact hgate
        have hkept := runAll_keeps hinv hstep hd' status.again_ne_applied hgate' hsettled
        rw [runAll_cons_of_ok hf hgate]
        dsimp only
        rw [runAll_cons_of_ok hkept hgate', ih hsteps hd']
        cases (runAll f steps d').1 <;> rfl

-- ---------------------------------------------------------------------------
-- Settled steps
-- ---------------------------------------------------------------------------

namespace Site

variable {d d' : Disk} {p : Path} {edit : Text → Edit} {status : StepStatus} {bytes : Bytes} {spot : Spot}

/-- An edit that changes nothing is decided by what is read. -/
theorem Edited.of_readText (h : Edited d none p edit (.ok (status, d))) (hstatus : status ≠ .applied)
    (hread : d'.readText p = d.readText p) : Edited d' none p edit (.ok (status, d')) := by
  generalize hx : Except.ok (status, d) = x at h
  cases h with
  | noPath _ => cases hx
  | unread hpath h =>
    cases hx
    exact .unread hpath (hread.trans h)
  | skipped h hedit =>
    cases hx
    exact .skipped (hread.trans h) hedit
  | failed h hedit =>
    cases hx
    exact .failed (hread.trans h) hedit
  | unwritten _ _ hfailing => cases hfailing
  | applied _ _ _ _ => exact absurd (congrArg Prod.fst (Except.ok.inj hx)) hstatus

theorem Edited.exists_readText (h : Edited d none p edit (.ok (status, d'))) (hstatus : status ≠ .failed) :
    ∃ t, d.readText p = .ok t := by
  cases h with
  | unread _ _ => exact absurd rfl hstatus
  | skipped hread _ => exact ⟨_, hread⟩
  | failed _ _ => exact absurd rfl hstatus
  | unwritten _ _ hfailing => cases hfailing
  | applied hread _ _ _ => exact ⟨_, hread⟩

/-- A text that was written is read. -/
theorem readText_putFile_self (h : d.spot p = .ok spot) (t : Text) :
    (d.putFile spot (Utf8.encode t)).readText p = .ok t := by
  unfold Disk.readText
  rw [Disk.read_putFile_self h]
  show Except.mapError _ (Utf8.decode (Utf8.encode t)) = _
  rw [Utf8.decode_encode]
  rfl

/-- What an edit leaves: the disk as it was, or a file where there was one, at the spot of the path. -/
theorem Edited.disk_eq (h : Edited d none p edit (.ok (status, d'))) :
    d' = d ∨ ∃ spot old new, d.spot p = .ok spot ∧ d.view spot = some (.file old) ∧ d' = d.putFile spot new := by
  cases h with
  | unread _ _ => exact .inl rfl
  | skipped _ _ => exact .inl rfl
  | failed _ _ => exact .inl rfl
  | unwritten _ _ _ => exact .inl rfl
  | applied hread _ hspot _ =>
    obtain ⟨spot, old, hspot', hview, -⟩ := exists_spot_of_readText hread
    cases hspot.symm.trans hspot'
    exact .inr ⟨_, old, _, hspot, hview, rfl⟩

theorem Edited.shape_eq (h : Edited d none p edit (.ok (status, d'))) : d'.shape = d.shape ∧ d'.current = d.current := by
  rcases h.disk_eq with rfl | ⟨spot, old, new, -, hview, rfl⟩
  · exact ⟨rfl, rfl⟩
  · exact ⟨Disk.shape_putFile_of_file hview new, rfl⟩

/-- On a stuck disk the folder is found to be impossible again. -/
theorem foldered_of_stuck (h : d.Linkless) (hstuck : Disk.Stuck d p.anchor p.parts) (hnull : p.hasNull = false) :
    Foldered d p (.ok (.failed, d)) := by
  obtain ⟨e, he⟩ := hstuck.ensureDirectoriesUpTo_eq h p.parts.length
  have hmade : d.ensureDirectories p = (d, some e) := he
  obtain ⟨e', he'⟩ := hstuck.exists_error
  cases hdir : d.isDirectory p with
  | error e => exact .refused hdir
  | ok there =>
    cases there with
    | true => exact nomatch he'.symm.trans (h.ensureDirectory_of_isDirectory hdir)
    | false =>
      refine .unmade hdir hmade ?_
      have hattempt := h.attempted_ensureDirectories p
      rw [hmade] at hattempt
      rw [(hattempt.failed e rfl).2]
      exact congrArg (! ·) hnull

/-- A folder that was made or could not be made is settled. -/
theorem Foldered.again (h : Foldered d p (.ok (status, d'))) (hlinkless : d.Linkless) :
    Foldered d' p (.ok (status.again, d')) := by
  have hattempt := hlinkless.attempted_ensureDirectories p
  cases h with
  | refused hdir => exact .refused hdir
  | there hdir => exact .there hdir
  | made hdir hmade =>
    rw [hmade] at hattempt
    exact .there (hattempt.done rfl)
  | @unmade _ e hdir hmade he =>
    rw [hmade] at hattempt
    obtain ⟨hstuck, hrefusal⟩ := hattempt.failed e rfl
    refine foldered_of_stuck (hattempt.made.linkless hlinkless) hstuck ?_
    rw [he] at hrefusal
    simpa using hrefusal.symm

/-- Whether a folder is there, or could be made, is decided by the shape of the disk. -/
theorem Foldered.of_shape (h : Foldered d p (.ok (status, d))) (hstatus : status ≠ .applied) (hlinkless : d.Linkless)
    (hlinkless' : d'.Linkless) (hcurrent : d'.current = d.current) (hshape : d'.shape = d.shape) :
    Foldered d' p (.ok (status, d')) := by
  have hdirectory := Disk.isDirectory_congr hlinkless hcurrent hshape p
  generalize hx : Except.ok (status, d) = x at h
  cases h with
  | refused hdir =>
    cases hx
    exact .refused (hdirectory.trans hdir)
  | there hdir =>
    cases hx
    exact .there (hdirectory.trans hdir)
  | made _ _ =>
    cases hx
    exact absurd rfl hstatus
  | @unmade _ e hdir hmade he =>
    cases hx
    have hattempt := hlinkless.attempted_ensureDirectories p
    rw [hmade] at hattempt
    obtain ⟨hstuck, hrefusal⟩ := hattempt.failed e rfl
    refine foldered_of_stuck hlinkless' (hstuck.congr hlinkless hlinkless' hcurrent hshape) ?_
    rw [he] at hrefusal
    simpa using hrefusal.symm
  | noPath _ _ _ => cases hx

theorem Foldered.made_of_ok (h : Foldered d p (.ok (status, d'))) (hlinkless : d.Linkless) :
    Disk.Made (· ∈ p.route d.current) d d' := by
  have hattempt := (hlinkless.attempted_ensureDirectories p).made
  cases h with
  | refused _ => exact .refl _ d
  | there _ => exact .refl _ d
  | made _ hmade =>
    rw [hmade] at hattempt
    exact hattempt
  | unmade _ hmade _ =>
    rw [hmade] at hattempt
    exact hattempt

end Site

namespace SiteSettings

variable {s : SiteSettings} {repo : Text} {d d' : Disk} {step : OnboardingStep} {status : StepStatus} {here : Spot}

/-- A disk without links, with the current directory at a place. -/
def Stands (here : Spot) (d : Disk) : Prop := d.Linkless ∧ d.current = here

theorem stands_outcome (h : Stands here d) (hok : s.outcome repo d step = .ok (status, d')) : Stands here d' := by
  cases he : step.fileEdit? s repo with
  | some e =>
    have hedited := edited_outcome d he
    rw [hok] at hedited
    rcases hedited.disk_eq with rfl | ⟨spot, old, new, -, hview, rfl⟩
    · exact h
    · exact ⟨h.1.putFile (.inl ⟨old, hview⟩) new, h.2⟩
  | none =>
    cases step with
    | docsFolder =>
      have hfoldered := foldered_outcome s repo d
      rw [hok] at hfoldered
      have hmade := hfoldered.made_of_ok h.1
      exact ⟨hmade.linkless h.1, hmade.current.trans h.2⟩
    | workflow => cases he
    | sidebars => cases he
    | navbar => cases he

/-- A step that was run is settled: run again it changes nothing. -/
theorem outcome_again (hrepo : '\n' ∉ repo) (h : Stands here d) (hok : s.outcome repo d step = .ok (status, d')) :
    s.outcome repo d' step = .ok (status.again, d') := by
  cases he : step.fileEdit? s repo with
  | some e =>
    have hedited := edited_outcome d he
    rw [hok] at hedited
    have hpath : d'.sitePath e.file = d.sitePath e.file := by
      unfold Disk.sitePath Disk.currentPath
      rw [hedited.shape_eq.2]
    refine ((edited_outcome d' he).eq ?_)
    rw [hpath]
    cases hedited with
    | unread hnull hread => exact .unread hnull hread
    | skipped hread hedit => exact .skipped hread hedit
    | failed hread hedit => exact .failed hread hedit
    | unwritten _ _ hfailing => cases hfailing
    | @applied t t' m spot hread hedit hspot _ =>
      obtain ⟨m', hskipped⟩ := FileEdit.skipped_of_applied hrepo he hedit
      exact .skipped (Site.readText_putFile_self hspot t') hskipped
  | none =>
    cases step with
    | docsFolder =>
      have hfoldered := foldered_outcome s repo d
      rw [hok] at hfoldered
      have hpath : s.docsPath d' repo = s.docsPath d repo := by
        unfold docsPath Disk.sitePath Disk.currentPath
        rw [(hfoldered.made_of_ok h.1).current]
      refine (foldered_outcome s repo d').eq ?_
      rw [hpath]
      exact hfoldered.again h.1
    | workflow => cases he
    | sidebars => cases he
    | navbar => cases he

theorem sitePath_of_stands (h : Stands here d) (h' : Stands here d') (relative : Text) :
    d'.sitePath relative = d.sitePath relative := by
  unfold Disk.sitePath Disk.currentPath
  rw [h.2, h'.2]

/-- An edit leaves what is read of a file elsewhere. -/
theorem readText_of_goal_ne {p q : Path} {edit : Text → Edit} (h : d.Linkless)
    (hedited : Site.Edited d none q edit (.ok (status, d'))) (hgoal : p.goal d.current ≠ q.goal d.current) :
    d'.readText p = d.readText p := by
  obtain ⟨hshape, hcurrent⟩ := hedited.shape_eq
  unfold Disk.readText
  rw [Disk.read_congr h hcurrent (fun t _ => congrFun hshape t)]
  rcases hedited.disk_eq with rfl | ⟨spot, old, new, hspot, hview, rfl⟩
  · rfl
  · rw [h.spot_eq hspot] at hview ⊢
    exact Disk.view_putFile_of_ne (.inl ⟨old, hview⟩) new hgoal

/-- A settled edit stays settled when another file is edited. -/
theorem keeps_edit {settled step : OnboardingStep} {a b : FileEdit} (ha : settled.fileEdit? s repo = some a)
    (hb : step.fileEdit? s repo = some b)
    (hgoal : ∀ d, Stands here d → (d.sitePath a.file).goal here ≠ (d.sitePath b.file).goal here) :
    Keeps (s.outcome repo) (Stands here) settled step := by
  intro d status status' d' h hstatus _ hsettled hstep
  have hne := hgoal d h
  rw [← h.2] at hne
  have hedited := edited_outcome d ha
  have hother := edited_outcome d hb
  rw [hsettled] at hedited
  rw [hstep] at hother
  have hread := readText_of_goal_ne h.1 hother hne
  refine (edited_outcome d' ha).eq ?_
  rw [sitePath_of_stands h (stands_outcome h hstep)]
  exact hedited.of_readText hstatus hread

/-- A settled folder stays settled when a file is edited. -/
theorem keeps_docsFolder {step : OnboardingStep} {e : FileEdit} (he : step.fileEdit? s repo = some e) :
    Keeps (s.outcome repo) (Stands here) .docsFolder step := by
  intro d status status' d' h hstatus _ hsettled hstep
  have hother := edited_outcome d he
  have hfoldered := foldered_outcome s repo d
  rw [hsettled] at hfoldered
  rw [hstep] at hother
  obtain ⟨hshape, hcurrent⟩ := hother.shape_eq
  have h' := stands_outcome h hstep
  refine (foldered_outcome s repo d').eq ?_
  unfold docsPath
  rw [sitePath_of_stands h h']
  exact hfoldered.of_shape hstatus h.1 h'.1 hcurrent hshape

/-- A workflow that was read is read again when a folder was made. -/
theorem keeps_workflow_docsFolder : Keeps (s.outcome repo) (Stands here) .workflow .docsFolder := by
  intro d status status' d' h hstatus hgate hsettled hstep
  have he : OnboardingStep.workflow.fileEdit? s repo = some ⟨s.workflowPath, Edit.workflow s repo, _⟩ := rfl
  have hedited := edited_outcome d he
  have hfoldered := foldered_outcome s repo d
  rw [hsettled] at hedited
  rw [hstep] at hfoldered
  have hmade := hfoldered.made_of_ok h.1
  refine (edited_outcome d' he).eq ?_
  rw [sitePath_of_stands h (stands_outcome h hstep)]
  obtain ⟨t, hread⟩ := hedited.exists_readText fun hfailed => hgate ⟨rfl, hfailed⟩
  exact hedited.of_readText hstatus ((hmade.readText_of_ok hread).trans hread.symm)

/-- Each step stays settled when those after it are run, if the three files are different ones. -/
theorem keeps_all (hgoals : ([s.workflowPath, s.sidebarsPath, s.configPath].map fun relative =>
      (Path.join ⟨.root, here⟩ (.ofText relative)).goal here).Nodup) :
    [OnboardingStep.workflow, .docsFolder, .sidebars, .navbar].Pairwise (Keeps (s.outcome repo) (Stands here)) := by
  have hpath : ∀ {d}, Stands here d → ∀ relative, d.sitePath relative = Path.join ⟨.root, here⟩ (.ofText relative) := by
    intro d h relative
    unfold Disk.sitePath Disk.currentPath
    rw [h.2]
  simp only [List.map_cons, List.map_nil, List.nodup_cons, List.mem_cons, List.not_mem_nil, or_false, not_or] at hgoals
  obtain ⟨⟨hsidebars, hconfig⟩, hboth, -⟩ := hgoals
  simp only [List.pairwise_cons, List.mem_cons, List.not_mem_nil, or_false, forall_eq_or_imp, forall_eq]
  refine ⟨⟨keeps_workflow_docsFolder, keeps_edit rfl rfl ?_, keeps_edit rfl rfl ?_⟩,
    ⟨keeps_docsFolder rfl, keeps_docsFolder rfl⟩, keeps_edit rfl rfl ?_, nofun, .nil⟩
  · intro d h
    rwa [hpath h, hpath h]
  · intro d h
    rwa [hpath h, hpath h]
  · intro d h
    rwa [hpath h, hpath h]

/-- All steps, run a second time, change nothing. -/
theorem runAll_outcome_again (hrepo : '\n' ∉ repo) (h : Stands here d)
    (hgoals : ([s.workflowPath, s.sidebarsPath, s.configPath].map fun relative =>
      (Path.join ⟨.root, here⟩ (.ofText relative)).goal here).Nodup) :
    runAll (s.outcome repo) [.workflow, .docsFolder, .sidebars, .navbar]
        (runAll (s.outcome repo) [.workflow, .docsFolder, .sidebars, .navbar] d).2
      = ((runAll (s.outcome repo) [.workflow, .docsFolder, .sidebars, .navbar] d).1.map
          (List.map (Prod.map id StepStatus.again)),
        (runAll (s.outcome repo) [.workflow, .docsFolder, .sidebars, .navbar] d).2) := by
  have hstands : ∀ d step status d', Stands here d → s.outcome repo d step = .ok (status, d') → Stands here d' :=
    fun d step status d' hd hok => stands_outcome hd hok
  exact runAll_again hstands (fun d step status d' hd hok => outcome_again hrepo hd hok) (keeps_all hgoals) h

end SiteSettings

namespace Site

open SiteSettings

/-- Where no write fails, and workflow, sidebars and configuration are different files, entering a repository again
changes nothing on a disk without links: each step is skipped, unless it failed and fails again. -/
theorem onboard_again (s : Site) (value : Text) (hlinkless : s.disk.root.isLinkless = true) (hfailing : s.failing = none)
    (hline : '\n' ∉ value)
    (hgoals : ([s.settings.workflowPath, s.settings.sidebarsPath, s.settings.configPath].map fun relative =>
      (s.path relative).goal s.disk.current).Nodup) :
    let first := s.onboard value
    let second := first.site.onboard value
    second.site.disk = first.site.disk
      ∧ second.results.map (List.map fun r => (r.step, r.status))
        = first.results.map (List.map fun r => (r.step, r.status.again)) := by
  intro first second
  by_cases hname : RepoName.ofText value = []
  · have hempty : ∀ s : Site, s.onboard value = ⟨.error .emptyName, s⟩ := by
      intro s
      unfold onboard
      rw [hname]
    have hfirst : first = ⟨.error .emptyName, s⟩ := hempty s
    have hsecond : second = ⟨.error .emptyName, first.site⟩ := hempty first.site
    rw [hsecond, hfirst]
    exact ⟨rfl, rfl⟩
  · have hrepo : '\n' ∉ RepoName.ofText value := fun hmem => hline (RepoName.mem_of_mem_ofText hmem)
    obtain ⟨hsettings, hfailing'⟩ : first.site.settings = s.settings ∧ first.site.failing = none :=
      onboard_frame hfailing value
    have hfirst : first.shown = _ := shown_onboard hfailing hname
    have hsecond : second.shown = _ := shown_onboard hfailing' hname
    rw [hsettings] at hsecond
    have hstands : Stands s.disk.current s.disk := ⟨Disk.linkless_of_isLinkless hlinkless, rfl⟩
    have hagain := runAll_outcome_again hrepo hstands hgoals
    generalize runAll _ _ s.disk = run at hfirst hagain
    have hdisk : first.site.disk = run.2 := congrArg Prod.snd hfirst
    rw [hdisk, hagain] at hsecond
    refine ⟨(congrArg Prod.snd hsecond).trans hdisk.symm, (congrArg Prod.fst hsecond).trans ?_⟩
    have hresults : first.results.map (List.map fun r => (r.step, r.status)) = run.1.mapError .site :=
      congrArg Prod.fst hfirst
    show (run.1.map (List.map (Prod.map id StepStatus.again))).mapError OnboardingError.site = _
    generalize first.results = results at hresults
    generalize run.1 = shown at hresults
    cases results with
    | error e =>
      cases shown with
      | error e' => exact hresults.symm
      | ok rs => cases hresults
    | ok rs =>
      cases shown with
      | error e' => cases hresults
      | ok rs' =>
        rw [← Except.ok.inj hresults]
        show Except.ok (List.map _ (List.map _ rs)) = Except.ok (List.map _ rs)
        rw [List.map_map]
        rfl

theorem onboard_again_sample :
    let workflow : Text :=
      "      - name: Checkout t\n      - name: Copy\n          # Sync t docs\n          fi\n\n          rm -rf _source_t\n"
    let sidebars : Text := "s = \x7b\n\x7d;\nexport default sidebars;\n"
    let config : Text := "  \x7bhref: 'https://github.com\x7d\n"
    let files : List (Text × Entry) :=
      [("sync.yml", .file (Utf8.encode workflow)), ("sidebars.ts", .file (Utf8.encode sidebars)),
        ("docusaurus.config.ts", .file (Utf8.encode config))]
    let s : Site :=
      { disk := { root := .directory true files }, settings := { workflowPath := "sync.yml", templateRepo := "t" } }
    (s.disk.root.isLinkless = true ∧ s.failing = none ∧ '\n' ∉ "app".toList
      ∧ ([s.settings.workflowPath, s.settings.sidebarsPath, s.settings.configPath].map fun relative =>
          (s.path relative).goal s.disk.current).Nodup)
      ∧ (s.onboard "app").results.map (List.map StepResult.status) = .ok [.applied, .applied, .applied, .applied]
      ∧ ((s.onboard "app").site.onboard "app").site.disk = (s.onboard "app").site.disk
      ∧ ((s.onboard "app").site.onboard "app").results.map (List.map fun r => (r.step, r.status))
          = (s.onboard "app").results.map (List.map fun r => (r.step, r.status.again)) := by
  intro workflow sidebars config files s
  have hlinkless : s.disk.root.isLinkless = true := by decide +kernel
  have hgoals : ([s.settings.workflowPath, s.settings.sidebarsPath, s.settings.configPath].map fun relative =>
      (s.path relative).goal s.disk.current).Nodup := by decide +kernel
  exact ⟨⟨hlinkless, rfl, by decide +kernel, hgoals⟩, by decide +kernel,
    onboard_again s "app" hlinkless rfl (by decide +kernel) hgoals⟩

end Site
end MdxSafe
