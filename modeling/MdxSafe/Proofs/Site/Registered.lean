-- SUMMARY: Entering repositories one after the other: each is entered once, unless the name of its sidebar is in an earlier one.
import MdxSafe.Proofs.Disk.Folder
import MdxSafe.Proofs.Site.Again
import MdxSafe.Proofs.Site.Entry
import MdxSafe.Proofs.Site.Workflow

/-!
# Entering repositories

A site with all anchors that mentions none of some repositories (`Site.Welcomes`) takes them one after the other. What
is left after each of them is such a site again for those that follow (`Ready.onboard`). So every step is applied for
every repository, except that the sidebars are skipped where the name of the sidebar is found in an earlier one
(`Site.repositories_registered`).
-/

namespace MdxSafe

open Edit
open RepoName (IsName)
open Text (lines)

variable {s : SiteSettings} {repo other : Text} {d d' : Disk} {step : OnboardingStep} {e : FileEdit} {t t' m : Text}
  {todo before : List Text}

/-- A name is the name of a folder. -/
theorem RepoName.IsName.isPlain (h : IsName repo) : Path.IsPlain repo where
  not_stay := by
    rintro (rfl | rfl)
    · exact h.ne_nil rfl
    · exact absurd (h.chars '.' List.mem_cons_self) (by decide)
  not_up := by
    rintro rfl
    exact absurd (h.chars '.' List.mem_cons_self) (by decide)
  noSlash := h.notMem (by decide)

-- ---------------------------------------------------------------------------
-- The texts of a site
-- ---------------------------------------------------------------------------

/-- The texts of the files of a site that are edited. -/
structure SiteTexts where
  workflow : Text
  sidebars : Text
  config : Text

namespace SiteTexts

variable {x y z : SiteTexts} {status : StepStatus}

/-- Texts have the anchors next to which entries are made. -/
structure HasAnchors (s : SiteSettings) (x : SiteTexts) : Prop where
  workflow : Anchored s (lines x.workflow)
  sidebars : IsClosed x.sidebars
  config : repositoryItem? true x.config ≠ none

/-- A repository is entered into workflow and navigation bar, and into the sidebars unless they are skipped. -/
structure Enters (s : SiteSettings) (repo : Text) (x : SiteTexts) (status : StepStatus) (y : SiteTexts) : Prop where
  workflow : ∃ m, Edit.workflow s repo x.workflow = .applied y.workflow m
  sidebars : (status = .skipped ∧ y.sidebars = x.sidebars ∧ ∃ m, Edit.sidebars s repo x.sidebars = .skipped m)
    ∨ (status = .applied ∧ ∃ m, Edit.sidebars s repo x.sidebars = .applied y.sidebars m)
  config : ∃ m, Edit.navbar s repo x.config = .applied y.config m

/-- A repository that workflow and navigation bar do not tell of is entered, and the anchors stay. -/
theorem HasAnchors.exists_enters (h : x.HasAnchors s) (htemplate : '\n' ∉ s.templateRepo) (hrepo : IsName repo)
    (htitle : titleCount repo x.workflow = 0) (hid : idCount repo x.config = 0) :
    ∃ status y, x.Enters s repo status y ∧ y.HasAnchors s := by
  obtain ⟨workflow, hsplice, hanchored⟩ := exists_spliceWorkflow htemplate h.workflow repo
  have hworkflow : ∃ m, Edit.workflow s repo x.workflow = .applied workflow m := by
    have hnone : ¬ hasLineEndingWith (checkoutTitle repo) x.workflow = true := fun hends => by
      rw [hasLineEndingWith_title_iff hrepo, htitle] at hends
      exact absurd hends (Nat.lt_irrefl 0)
    unfold Edit.workflow
    rw [if_neg hnone, hsplice]
    exact ⟨_, rfl⟩
  have habsent : mentionsId repo x.config = false := by
    rw [Bool.eq_false_iff, ne_eq, mentionsId_iff_idCount hrepo, hid]
    exact Nat.lt_irrefl 0
  obtain ⟨config, m, hconfig⟩ := exists_navbar (s := s) h.config habsent
  have hitem := repositoryItem?_navbar hconfig
  by_cases hin : Snippet.sidebarName repo <:+: x.sidebars
  · exact ⟨.skipped, ⟨workflow, x.sidebars, config⟩,
      ⟨hworkflow, .inl ⟨rfl, rfl, _, if_pos (Text.contains_of_infix hin)⟩, m, hconfig⟩, hanchored, h.sidebars, hitem⟩
  · obtain ⟨sidebars, m', hsidebars⟩ := exists_sidebars (s := s) h.sidebars hin
    exact ⟨.applied, ⟨workflow, sidebars, config⟩, ⟨hworkflow, .inr ⟨rfl, m', hsidebars⟩, m, hconfig⟩, hanchored,
      isClosed_sidebars hrepo hsidebars, hitem⟩

namespace Enters

variable (h : x.Enters s other status y)
include h

theorem titleCount_eq (howner : '\n' ∉ s.owner) (hrepo : IsName repo) (hother : IsName other) :
    titleCount repo y.workflow = titleCount repo x.workflow + if other = repo then 1 else 0 := by
  obtain ⟨m, hok⟩ := h.workflow
  exact titleCount_spliceWorkflow howner hrepo hother (workflow_eq_applied hok).2

theorem idCount_eq (hrepo : IsName repo) (hother : IsName other) :
    idCount repo y.config = idCount repo x.config + if other = repo then 1 else 0 := by
  obtain ⟨m, hok⟩ := h.config
  exact idCount_navbar hrepo hother hok

theorem keyCount_eq (hrepo : IsName repo) (hother : IsName other) :
    keyCount repo y.sidebars = keyCount repo x.sidebars + if other = repo ∧ status = .applied then 1 else 0 := by
  rcases h.sidebars with ⟨rfl, hsame, -⟩ | ⟨rfl, m, hok⟩
  · simp [hsame]
  · rw [keyCount_sidebars hrepo hother hok]
    simp

/-- The sidebars are skipped just if the name of the sidebar occurs in them. -/
theorem status_eq : status = if x.sidebars.contains (Snippet.sidebarName other) then .skipped else .applied := by
  rcases h.sidebars with ⟨rfl, -, m, hok⟩ | ⟨rfl, m, hok⟩
  · unfold Edit.sidebars at hok
    dsimp only at hok
    split at hok
    · next hin => rw [if_pos hin]
    · split at hok
      · cases hok
      · split at hok <;> cases hok
  · rw [(sidebars_eq_applied hok).1]
    rfl

/-- The name of a sidebar occurs afterwards where it did before, or in the name of the sidebar that was entered. -/
theorem sidebarName_infix_iff (hrepo : IsName repo) :
    Snippet.sidebarName repo <:+: y.sidebars
      ↔ Snippet.sidebarName repo <:+: x.sidebars ∨ Snippet.sidebarName repo <:+: Snippet.sidebarName other := by
  have hstatus := h.status_eq
  rcases h.sidebars with ⟨rfl, hsame, -⟩ | ⟨rfl, m, hok⟩
  · rw [hsame]
    refine ⟨.inl, fun hin => hin.elim id fun hname => hname.trans ?_⟩
    by_contra hnone
    rw [if_neg fun hin => hnone (Text.contains_iff.1 hin)] at hstatus
    cases hstatus
  · exact sidebarName_infix_sidebars_iff hrepo hok

end Enters

/-- What is kept of texts, and what occurs in them, when repositories are entered one after the other. -/
structure Entered (repos : List Text) (x y : SiteTexts) : Prop where
  title : ∀ r, IsName r → r ∉ repos → titleCount r y.workflow = titleCount r x.workflow
  key : ∀ r, IsName r → r ∉ repos → keyCount r y.sidebars = keyCount r x.sidebars
  id : ∀ r, IsName r → r ∉ repos → idCount r y.config = idCount r x.config
  sidebar : ∀ r, IsName r → (Snippet.sidebarName r <:+: y.sidebars
    ↔ Snippet.sidebarName r <:+: x.sidebars ∨ ∃ r' ∈ repos, Snippet.sidebarName r <:+: Snippet.sidebarName r')

theorem Entered.nil (x : SiteTexts) : Entered [] x x :=
  ⟨fun _ _ _ => rfl, fun _ _ _ => rfl, fun _ _ _ => rfl, fun _ _ => by simp⟩

theorem Entered.cons (howner : '\n' ∉ s.owner) (hrepo : IsName repo) (h : x.Enters s repo status y)
    (hrest : Entered todo y z) : Entered (repo :: todo) x z where
  title r hr hnone := by
    obtain ⟨hne, hnone⟩ := not_or.1 (List.mem_cons.not.1 hnone)
    rw [hrest.title r hr hnone, h.titleCount_eq howner hr hrepo, if_neg (Ne.symm hne), Nat.add_zero]
  key r hr hnone := by
    obtain ⟨hne, hnone⟩ := not_or.1 (List.mem_cons.not.1 hnone)
    rw [hrest.key r hr hnone, h.keyCount_eq hr hrepo, if_neg fun heq => hne heq.1.symm, Nat.add_zero]
  id r hr hnone := by
    obtain ⟨hne, hnone⟩ := not_or.1 (List.mem_cons.not.1 hnone)
    rw [hrest.id r hr hnone, h.idCount_eq hr hrepo, if_neg (Ne.symm hne), Nat.add_zero]
  sidebar r hr := by
    rw [hrest.sidebar r hr, h.sidebarName_infix_iff hr, List.exists_mem_cons_iff, or_assoc]

/-- The texts are those of the files of a site. -/
structure AreAt (x : SiteTexts) (s : SiteSettings) (d : Disk) : Prop where
  workflow : d.readText (d.sitePath s.workflowPath) = .ok x.workflow
  sidebars : d.readText (d.sitePath s.sidebarsPath) = .ok x.sidebars
  config : d.readText (d.sitePath s.configPath) = .ok x.config

end SiteTexts

-- ---------------------------------------------------------------------------
-- Steps
-- ---------------------------------------------------------------------------

theorem Disk.sitePath_congr (h : d'.current = d.current) (relative : Text) : d'.sitePath relative = d.sitePath relative := by
  unfold Disk.sitePath Disk.currentPath
  rw [h]

/-- The names of the files that are edited, as paths of different files. -/
def SiteSettings.AreApart (s : SiteSettings) (d : Disk) : Prop :=
  ([s.workflowPath, s.sidebarsPath, s.configPath].map fun relative => (d.sitePath relative).goal d.current).Nodup

namespace SiteSettings

variable {x y : SiteTexts} {status : StepStatus}

/-- An edit that is applied leaves a disk that differs in the bytes of its file only. -/
theorem outcome_of_applied (step : OnboardingStep) (repo : Text) (hlinkless : d.Linkless) (he : step.fileEdit? s repo = some e)
    (hread : d.readText (d.sitePath e.file) = .ok t) (hedit : e.edit t = .applied t' m) :
    ∃ d', s.outcome repo d step = .ok (.applied, d') ∧ d.Alike d' ∧ d'.readText (d.sitePath e.file) = .ok t'
      ∧ ∀ q : Path, q.goal d.current ≠ (d.sitePath e.file).goal d.current → d'.readText q = d.readText q := by
  obtain ⟨spot, bytes, hspot, hview, -⟩ := Site.exists_spot_of_readText hread
  have hedited : Site.Edited d none (d.sitePath e.file) e.edit (.ok (.applied, d.putFile spot (Utf8.encode t'))) :=
    .applied hread hedit hspot nofun
  refine ⟨_, (edited_outcome d he).eq hedited, ⟨hlinkless, hlinkless.putFile (.inl ⟨bytes, hview⟩) _, rfl, ?_⟩, ?_, ?_⟩
  · exact Disk.shape_putFile_of_file hview _
  · exact Site.readText_putFile_self hspot t'
  · exact fun q hq => readText_of_goal_ne hlinkless hedited hq

/-- An edit that is skipped leaves the disk. -/
theorem outcome_of_skipped (he : step.fileEdit? s repo = some e) (hread : d.readText (d.sitePath e.file) = .ok t)
    (hedit : e.edit t = .skipped m) : s.outcome repo d step = .ok (.skipped, d) :=
  (edited_outcome d he).eq (.skipped hread hedit)

theorem docsPath_eq (h : IsName repo) (d : Disk) : s.docsPath d repo = (d.sitePath s.docsDir).child repo :=
  h.isPlain.join_eq _

theorem docsPath_congr (h : d'.current = d.current) (repo : Text) : s.docsPath d' repo = s.docsPath d repo := by
  unfold docsPath
  rw [Disk.sitePath_congr h]

/-- A free folder is made; files stay, and other folders stay free. -/
theorem outcome_of_vacant (hlinkless : d.Linkless) (hrepo : IsName repo) (h : d.Vacant (s.docsPath d repo)) :
    ∃ d', s.outcome repo d .docsFolder = .ok (.applied, d') ∧ d'.Linkless ∧ d'.current = d.current
      ∧ (∀ q t, d.readText q = .ok t → d'.readText q = .ok t)
      ∧ ∀ r, IsName r → r ≠ repo → (s.docsPath d r).goal d.current ∉ (d.sitePath s.docsDir).route d.current →
          d.Vacant (s.docsPath d r) → d'.Vacant (s.docsPath d r) := by
  have hmade : d.ensureDirectories (s.docsPath d repo) = ((d.ensureDirectories (s.docsPath d repo)).1, none) :=
    Prod.ext rfl h.possible
  have hattempt := hlinkless.attempted_ensureDirectories (s.docsPath d repo)
  refine ⟨_, (foldered_outcome s repo d).eq (.made (h.isDirectory hlinkless) hmade), hattempt.made.linkless hlinkless,
    hattempt.made.current, fun q t => hattempt.made.readText_of_ok, fun r hr hne hoff hvacant => ?_⟩
  rw [docsPath_eq hr] at hoff hvacant ⊢
  rw [docsPath_eq hrepo] at hmade ⊢
  exact hvacant.beside hlinkless hr.isPlain hrepo.isPlain hne hoff hmade

/-- The sidebars are edited, or left as they are. -/
theorem outcome_sidebars (hlinkless : d.Linkless) (hread : d.readText (d.sitePath s.sidebarsPath) = .ok x.sidebars)
    (h : x.Enters s repo status y) :
    ∃ d', s.outcome repo d .sidebars = .ok (status, d') ∧ d.Alike d'
      ∧ d'.readText (d.sitePath s.sidebarsPath) = .ok y.sidebars
      ∧ ∀ q : Path, q.goal d.current ≠ (d.sitePath s.sidebarsPath).goal d.current → d'.readText q = d.readText q := by
  rcases h.sidebars with ⟨rfl, hsame, m, hedit⟩ | ⟨rfl, m, hedit⟩
  · refine ⟨d, outcome_of_skipped rfl hread hedit, hlinkless.alike_refl, ?_, fun _ _ => rfl⟩
    rw [hread, hsame]
  · obtain ⟨d', hok, halike, hself, hother⟩ :=
      outcome_of_applied .sidebars repo hlinkless rfl hread hedit
    exact ⟨d', hok, halike, hself, hother⟩

end SiteSettings

-- ---------------------------------------------------------------------------
-- One repository after the other
-- ---------------------------------------------------------------------------

/-- A disk with a site, and its texts, that takes repositories: the texts have the anchors and tell of none of the
repositories, and the folders of their documents are free. -/
structure Ready (s : SiteSettings) (todo : List Text) (d : Disk) (x : SiteTexts) : Prop where
  linkless : d.Linkless
  apart : s.AreApart d
  owner : '\n' ∉ s.owner
  template : '\n' ∉ s.templateRepo
  names : ∀ r ∈ todo, IsName r
  nodup : todo.Nodup
  texts : x.AreAt s d
  anchors : x.HasAnchors s
  title : ∀ r ∈ todo, titleCount r x.workflow = 0
  id : ∀ r ∈ todo, idCount r x.config = 0
  folder : ∀ r ∈ todo, d.Vacant (s.docsPath d r)
  offRoute : ∀ r ∈ todo, (s.docsPath d r).goal d.current ∉ (d.sitePath s.docsDir).route d.current

namespace Ready

variable {x y : SiteTexts} {status : StepStatus}

/-- The steps for a repository that a site takes: the files hold the texts that enter it, and the folders of other
repositories stay free. -/
theorem exists_runAll (h : Ready s (repo :: todo) d x) (henters : x.Enters s repo status y) :
    ∃ d', runAll (s.outcome repo) [.workflow, .docsFolder, .sidebars, .navbar] d
        = (.ok [(.workflow, .applied), (.docsFolder, .applied), (.sidebars, status), (.navbar, .applied)], d')
      ∧ d'.Linkless ∧ d'.current = d.current ∧ y.AreAt s d'
      ∧ ∀ r, IsName r → r ≠ repo → (s.docsPath d r).goal d.current ∉ (d.sitePath s.docsDir).route d.current →
          d.Vacant (s.docsPath d r) → d'.Vacant (s.docsPath d' r) := by
  have hrepo := h.names repo List.mem_cons_self
  have hapart := h.apart
  simp only [SiteSettings.AreApart, List.map_cons, List.map_nil, List.nodup_cons, List.mem_cons, List.not_mem_nil, or_false,
    not_or] at hapart
  obtain ⟨⟨hws, hwc⟩, hsc, -⟩ := hapart
  -- The workflow is edited.
  obtain ⟨m, hworkflow⟩ := henters.workflow
  obtain ⟨d₁, hok₁, halike₁, hread₁, hother₁⟩ :=
    SiteSettings.outcome_of_applied .workflow repo h.linkless rfl h.texts.workflow hworkflow
  have hdocs₁ : ∀ r, s.docsPath d₁ r = s.docsPath d r := SiteSettings.docsPath_congr halike₁.current
  -- The folder is made.
  have hfolder := (h.folder repo List.mem_cons_self).congr halike₁
  rw [← hdocs₁] at hfolder
  obtain ⟨d₂, hok₂, hlinkless₂, hcurrent₂, hkept₂, hvacant₂⟩ :=
    SiteSettings.outcome_of_vacant halike₁.linkless' hrepo hfolder
  replace hcurrent₂ : d₂.current = d.current := hcurrent₂.trans halike₁.current
  -- The sidebars are edited.
  have hsidebars₂ : d₂.readText (d₂.sitePath s.sidebarsPath) = .ok x.sidebars := by
    rw [Disk.sitePath_congr hcurrent₂]
    exact hkept₂ _ _ ((hother₁ _ (Ne.symm hws)).trans h.texts.sidebars)
  obtain ⟨d₃, hok₃, halike₃, hread₃, hother₃⟩ := SiteSettings.outcome_sidebars hlinkless₂ hsidebars₂ henters
  rw [Disk.sitePath_congr hcurrent₂] at hread₃ hother₃
  rw [hcurrent₂] at hother₃
  have hcurrent₃ : d₃.current = d.current := halike₃.current.trans hcurrent₂
  -- The navigation bar is edited.
  have hconfig₃ : d₃.readText (d₃.sitePath s.configPath) = .ok x.config := by
    rw [Disk.sitePath_congr hcurrent₃, hother₃ _ (Ne.symm hsc)]
    exact hkept₂ _ _ ((hother₁ _ (Ne.symm hwc)).trans h.texts.config)
  obtain ⟨m', hconfig⟩ := henters.config
  obtain ⟨d₄, hok₄, halike₄, hread₄, hother₄⟩ :=
    SiteSettings.outcome_of_applied .navbar repo halike₃.linkless' rfl hconfig₃ hconfig
  rw [Disk.sitePath_congr hcurrent₃] at hread₄ hother₄
  rw [hcurrent₃] at hother₄
  have hcurrent₄ : d₄.current = d.current := halike₄.current.trans hcurrent₃
  have hpath₄ := Disk.sitePath_congr hcurrent₄
  refine ⟨d₄, ?_, halike₄.linkless', hcurrent₄, ⟨?_, ?_, ?_⟩, ?_⟩
  · rw [runAll_cons_of_ok hok₁ nofun, runAll_cons_of_ok hok₂ nofun, runAll_cons_of_ok hok₃ (fun h => nomatch h.1),
      runAll_cons_of_ok hok₄ nofun]
    rfl
  · rw [hpath₄, hother₄ _ hwc, hother₃ _ hws]
    exact hkept₂ _ _ hread₁
  · rw [hpath₄, hother₄ _ hsc]
    exact hread₃
  · rw [hpath₄]
    exact hread₄
  · intro r hr hne hoff hfree
    rw [← halike₁.current, ← Disk.sitePath_congr halike₁.current, ← hdocs₁] at hoff
    rw [← hdocs₁] at hfree
    rw [SiteSettings.docsPath_congr hcurrent₄, ← hdocs₁]
    exact ((hvacant₂ r hr hne hoff (hfree.congr halike₁)).congr halike₃).congr halike₄

/-- A site that takes a repository, and others, takes the others once it has taken the first one. -/
theorem run (h : Ready s (repo :: todo) d x) :
    ∃ status y d', runAll (s.outcome repo) [.workflow, .docsFolder, .sidebars, .navbar] d
        = (.ok [(.workflow, .applied), (.docsFolder, .applied), (.sidebars, status), (.navbar, .applied)], d')
      ∧ x.Enters s repo status y ∧ Ready s todo d' y := by
  obtain ⟨hrepo, hnames⟩ := List.forall_mem_cons.1 h.names
  obtain ⟨hnew, hnodup⟩ := List.nodup_cons.1 h.nodup
  obtain ⟨htitle, htitles⟩ := List.forall_mem_cons.1 h.title
  obtain ⟨hid, hids⟩ := List.forall_mem_cons.1 h.id
  have hne : ∀ r ∈ todo, repo ≠ r := fun r hr heq => hnew (heq ▸ hr)
  have hoff : ∀ r ∈ todo, _ := fun r hr => h.offRoute r (List.mem_cons_of_mem _ hr)
  obtain ⟨status, y, henters, hanchors⟩ := h.anchors.exists_enters h.template hrepo htitle hid
  obtain ⟨d', hrun, hlinkless, hcurrent, htexts, hvacant⟩ := h.exists_runAll henters
  refine ⟨status, y, d', hrun, henters, ?_⟩
  refine ⟨hlinkless, ?apart, h.owner, h.template, hnames, hnodup, htexts, hanchors, ?title, ?id, ?folder, ?offRoute⟩
  case apart =>
    unfold SiteSettings.AreApart
    simp only [Disk.sitePath_congr hcurrent, hcurrent]
    exact h.apart
  case title =>
    intro r hr
    rw [henters.titleCount_eq h.owner (hnames r hr) hrepo, htitles r hr, if_neg (hne r hr)]
  case id =>
    intro r hr
    rw [henters.idCount_eq (hnames r hr) hrepo, hids r hr, if_neg (hne r hr)]
  case folder =>
    intro r hr
    exact hvacant r (hnames r hr) (Ne.symm (hne r hr)) (hoff r hr) (h.folder r (List.mem_cons_of_mem _ hr))
  case offRoute =>
    intro r hr
    rw [SiteSettings.docsPath_congr hcurrent, hcurrent, Disk.sitePath_congr hcurrent]
    exact hoff r hr

end Ready

namespace Site

variable {site : Site} {x : SiteTexts}

/-- Enter repositories into a site one after the other. -/
def onboardAll (s : Site) (values : List Text) : Site := values.foldl (fun s value => (s.onboard value).site) s

/-- A repository that a site takes is entered into it. -/
theorem onboard_of_ready (hfailing : site.failing = none) (h : Ready site.settings (repo :: todo) site.disk x) :
    ∃ status y, (site.onboard repo).results.map (List.map fun r => (r.step, r.status))
        = .ok [(.workflow, .applied), (.docsFolder, .applied), (.sidebars, status), (.navbar, .applied)]
      ∧ x.Enters site.settings repo status y ∧ Ready site.settings todo (site.onboard repo).site.disk y := by
  have hrepo : IsName repo := h.names repo List.mem_cons_self
  have hname : RepoName.ofText repo = repo := hrepo.ofText_eq
  obtain ⟨status, y, d', hrun, henters, hready⟩ := h.run
  have hshown : (site.onboard repo).shown = _ := shown_onboard hfailing (by rw [hname]; exact hrepo.ne_nil)
  rw [hname, hrun] at hshown
  have hdisk : (site.onboard repo).site.disk = d' := congrArg Prod.snd hshown
  rw [hdisk]
  exact ⟨status, y, congrArg Prod.fst hshown, henters, hready⟩

/-- Repositories that a site takes are entered into it one after the other. -/
theorem onboardAll_of_ready (hfailing : site.failing = none) (h : Ready site.settings (before ++ todo) site.disk x) :
    ∃ y, x.Entered before y ∧ Ready site.settings todo (site.onboardAll before).disk y
      ∧ (site.onboardAll before).settings = site.settings ∧ (site.onboardAll before).failing = none := by
  induction before generalizing site x with
  | nil => exact ⟨x, .nil x, h, rfl, hfailing⟩
  | cons repo before ih =>
    obtain ⟨status, y, -, henters, hready⟩ := onboard_of_ready hfailing h
    obtain ⟨hsettings, hfailing'⟩ := onboard_frame hfailing repo
    rw [← hsettings] at hready
    obtain ⟨z, hentered, hready', hsettings', hfailing''⟩ := ih hfailing' hready
    rw [hsettings] at hready' hsettings'
    exact ⟨z, .cons h.owner (h.names repo List.mem_cons_self) henters hentered, hready', hsettings', hfailing''⟩

/-- A site with all anchors that mentions none of some repositories: its files are different ones and are read, and the
folder of the documents of each repository can be made where nothing stands. -/
structure Welcomes (s : Site) (repos : List Text) (x : SiteTexts) : Prop where
  linkless : s.disk.Linkless
  failing : s.failing = none
  apart : s.settings.AreApart s.disk
  owner : '\n' ∉ s.settings.owner
  template : '\n' ∉ s.settings.templateRepo
  names : ∀ r ∈ repos, IsName r
  nodup : repos.Nodup
  texts : x.AreAt s.settings s.disk
  anchors : Edit.hasAnchors s.settings x.workflow = true
  closing : Edit.hasClosing x.sidebars = true
  item : (Edit.repositoryItem? true x.config).isSome = true
  title : ∀ r ∈ repos, Edit.hasLineEndingWith (Edit.checkoutTitle r) x.workflow = false
  sidebar : ∀ r ∈ repos, x.sidebars.contains (Snippet.sidebarName r) = false
  id : ∀ r ∈ repos, Edit.mentionsId r x.config = false
  folder : ∀ r ∈ repos, s.disk.Vacant (s.docsPath r)
  offRoute : ∀ r ∈ repos, (s.docsPath r).goal s.disk.current ∉ (s.path s.settings.docsDir).route s.disk.current

theorem Welcomes.ready {s : Site} {repos : List Text} (h : s.Welcomes repos x) : Ready s.settings repos s.disk x where
  linkless := h.linkless
  apart := h.apart
  owner := h.owner
  template := h.template
  names := h.names
  nodup := h.nodup
  texts := h.texts
  anchors := ⟨anchored_of_hasAnchors h.template h.anchors, isClosed_of_hasClosing h.closing,
    Option.isSome_iff_ne_none.1 h.item⟩
  title r hr := by
    have hnone := h.title r hr
    rwa [Bool.eq_false_iff, ne_eq, hasLineEndingWith_title_iff (h.names r hr), Nat.pos_iff_ne_zero, not_not] at hnone
  id r hr := by
    have hnone := h.id r hr
    rwa [Bool.eq_false_iff, ne_eq, mentionsId_iff_idCount (h.names r hr), Nat.pos_iff_ne_zero, not_not] at hnone
  folder := h.folder
  offRoute := h.offRoute

/-- Whatever was entered before, a repository is entered into workflow, documents and navigation bar, once for each of
its marks; into the sidebars it is entered unless the name of its sidebar occurs in that of an earlier one. -/
theorem repositories_registered (s : Site) (before after : List Text) (repo : Text) (x : SiteTexts)
    (h : s.Welcomes (before ++ repo :: after) x) :
    let shadowed := before.any fun r => (Snippet.sidebarName r).contains (Snippet.sidebarName repo)
    ((s.onboardAll before).onboard repo).results.map (List.map fun r => (r.step, r.status))
        = .ok [(.workflow, .applied), (.docsFolder, .applied), (.sidebars, if shadowed then .skipped else .applied),
            (.navbar, .applied)]
      ∧ ∃ y : SiteTexts, y.AreAt s.settings (s.onboardAll (before ++ repo :: after)).disk
          ∧ titleCount repo y.workflow = 1 ∧ keyCount repo y.sidebars = (if shadowed then 0 else 1)
          ∧ idCount repo y.config = 1 := by
  intro shadowed
  have hready := h.ready
  have hrepo : IsName repo := h.names repo (by simp)
  obtain ⟨hbefore, hafter⟩ : repo ∉ before ∧ repo ∉ after := by
    obtain ⟨-, hrest, hdisjoint⟩ := List.nodup_append.1 h.nodup
    exact ⟨fun hmem => hdisjoint repo hmem repo List.mem_cons_self rfl, (List.nodup_cons.1 hrest).1⟩
  have hsidebar : ¬ Snippet.sidebarName repo <:+: x.sidebars := fun hin => by
    have hnone := h.sidebar repo (by simp)
    rw [Text.contains_of_infix hin] at hnone
    cases hnone
  obtain ⟨y, hentered, hready₁, hsettings, hfailing⟩ := onboardAll_of_ready h.failing hready
  rw [← hsettings] at hready₁
  obtain ⟨status, z, hresults, henters, hready₂⟩ := onboard_of_ready hfailing hready₁
  have hstatus : status = if shadowed then .skipped else .applied := by
    have hshadowed : y.sidebars.contains (Snippet.sidebarName repo) = shadowed := by
      rw [Bool.eq_iff_iff, Text.contains_iff, hentered.sidebar repo hrepo, List.any_eq_true, or_iff_right hsidebar]
      simp only [Text.contains_iff]
    rw [henters.status_eq, hshadowed]
  rw [hstatus] at hresults
  obtain ⟨hsettings', hfailing'⟩ := onboard_frame hfailing repo
  rw [← hsettings', ← List.append_nil after] at hready₂
  obtain ⟨w, hentered', hready₃, hsettings'', -⟩ := onboardAll_of_ready hfailing' hready₂
  refine ⟨hresults, w, ?_, ?_, ?_, ?_⟩
  · have htexts := hready₃.texts
    rw [hsettings', hsettings] at htexts
    unfold onboardAll
    rw [List.foldl_append]
    exact htexts
  · rw [hentered'.title repo hrepo hafter, henters.titleCount_eq hready₁.owner hrepo hrepo, hentered.title repo hrepo hbefore,
      hready.title repo (by simp), if_pos rfl]
  · rw [hentered'.key repo hrepo hafter, henters.keyCount_eq hrepo hrepo, hentered.key repo hrepo hbefore,
      keyCount_eq_zero hsidebar, hstatus]
    cases shadowed <;> simp
  · rw [hentered'.id repo hrepo hafter, henters.idCount_eq hrepo hrepo, hentered.id repo hrepo hbefore,
      hready.id repo (by simp), if_pos rfl]

/-- The texts of a small site with all anchors. -/
def smallTexts : SiteTexts where
  workflow := "      - name: Checkout t\n      - name: Copy\n          # Sync t docs\n          fi\n\n          rm -rf _source_t\n"
  sidebars := "s = \x7b\n\x7d;\nexport default sidebars;\n"
  config := "  \x7bhref: 'https://github.com\x7d\n"

/-- A small site with all anchors. -/
def smallSite : Site where
  disk.root := .directory true
    [("sync.yml", .file (Utf8.encode smallTexts.workflow)), ("sidebars.ts", .file (Utf8.encode smallTexts.sidebars)),
      ("docusaurus.config.ts", .file (Utf8.encode smallTexts.config))]
  settings := { workflowPath := "sync.yml", templateRepo := "t" }

theorem smallSite_welcomes : smallSite.Welcomes ["next-app", "app"] smallTexts where
  linkless := Disk.linkless_of_isLinkless (by decide +kernel)
  failing := rfl
  apart := by unfold SiteSettings.AreApart; decide +kernel
  owner := by decide +kernel
  template := by decide +kernel
  names := by
    simp only [List.forall_mem_cons]
    exact ⟨⟨by decide +kernel, List.all_eq_true.1 (by decide +kernel)⟩,
      ⟨by decide +kernel, List.all_eq_true.1 (by decide +kernel)⟩, nofun⟩
  nodup := by decide +kernel
  texts := ⟨by decide +kernel, by decide +kernel, by decide +kernel⟩
  anchors := by decide +kernel
  closing := by decide +kernel
  item := by decide +kernel
  title := by decide +kernel
  sidebar := by decide +kernel
  id := by decide +kernel
  folder := by
    simp only [List.forall_mem_cons]
    exact ⟨⟨by decide +kernel, by decide +kernel⟩, ⟨by decide +kernel, by decide +kernel⟩, nofun⟩
  offRoute := by decide +kernel

theorem repositories_registered_small :
    let before : List Text := ["next-app"]
    let repo : Text := "app"
    let shadowed := before.any fun r => (Snippet.sidebarName r).contains (Snippet.sidebarName repo)
    smallSite.Welcomes (before ++ repo :: []) smallTexts
      ∧ ((smallSite.onboardAll before).onboard repo).results.map (List.map fun r => (r.step, r.status))
          = .ok [(.workflow, .applied), (.docsFolder, .applied), (.sidebars, if shadowed then .skipped else .applied),
              (.navbar, .applied)]
      ∧ ∃ y : SiteTexts, y.AreAt smallSite.settings (smallSite.onboardAll (before ++ repo :: [])).disk
          ∧ titleCount repo y.workflow = 1 ∧ keyCount repo y.sidebars = (if shadowed then 0 else 1)
          ∧ idCount repo y.config = 1 :=
  ⟨smallSite_welcomes, repositories_registered smallSite ["next-app"] [] "app" smallTexts smallSite_welcomes⟩

/-- A repository that the site does not mention is not entered into the sidebars when another one was entered before. -/
theorem repositories_shadowed :
    smallSite.Welcomes ["next-app", "app"] smallTexts
      ∧ ((smallSite.onboardAll ["next-app"]).onboard "app").results.map (List.map fun r => (r.step, r.status))
          = .ok [(.workflow, .applied), (.docsFolder, .applied), (.sidebars, .skipped), (.navbar, .applied)] :=
  ⟨smallSite_welcomes, by decide +kernel⟩

end Site

end MdxSafe
