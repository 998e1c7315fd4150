-- SUMMARY: Entering a repository into a site on a disk.
import MdxSafe.Disk.Access
import MdxSafe.Log
import MdxSafe.Site.Edit

/-!
# Onboarding

A repository is entered into a site in four steps: the workflow, the folder of its documents, the sidebars
and the navigation bar. If the workflow fails nothing else is attempted; any other step may fail by itself.
A step that does not succeed leaves every file as it was. What the disk refuses makes a step fail; a path
that is none makes everything break off, and what earlier steps did stays done.
-/

namespace MdxSafe

/-- A step of entering a repository. -/
inductive OnboardingStep where
  | workflow | docsFolder | sidebars | navbar
  deriving DecidableEq, Repr

/-- The name of a step. -/
def OnboardingStep.name : OnboardingStep → String
  | workflow => "workflow"
  | docsFolder => "docs_folder"
  | sidebars => "sidebars"
  | navbar => "navbar"

/-- What came of a step. -/
inductive StepStatus where
  | applied | skipped | failed
  deriving DecidableEq, Repr

/-- The name of a status. -/
def StepStatus.name : StepStatus → String
  | applied => "applied"
  | skipped => "skipped"
  | failed => "failed"

/-- What came of a step, and what to tell about it. -/
structure StepResult where
  step : OnboardingStep
  status : StepStatus
  message : Text
  deriving DecidableEq, Repr

/-- Whether a step did not fail. -/
def StepResult.ok (r : StepResult) : Bool := r.status ≠ .failed

/-- A site whose files are being edited. -/
structure Site where
  disk : Disk
  settings : SiteSettings := {}
  /-- After how many more writes every write fails, and with which message. -/
  failing : Option (Nat × Text) := none
  log : List Log.Entry := []

/-- Why a file of a site cannot be written or looked for. -/
inductive SiteError where
  | disk (e : DiskError)
  /-- Something outside this program went wrong. -/
  | outside (message : Text)
  deriving DecidableEq, Repr

/-- Whether the file was refused, and not its path was none. -/
def SiteError.isRefusal : SiteError → Bool
  | disk e => e.isRefusal
  | outside _ => true

/-- What to tell about a file that cannot be written. -/
def SiteError.message : SiteError → Text
  | disk e => e.message
  | outside m => m

/-- Why entering a repository breaks off. -/
inductive OnboardingError where
  | emptyName
  | site (e : SiteError)
  deriving DecidableEq, Repr

/-- What to tell about a repository that is not entered. -/
def OnboardingError.message : OnboardingError → Text
  | emptyName => "Repository name is empty."
  | site e => e.message

/-- What came of entering a repository, and the site that it leaves. -/
structure Onboarded where
  results : Except OnboardingError (List StepResult)
  site : Site

namespace Site

/-- The path of a file of the site. -/
def path (s : Site) (relative : Text) : Path := s.disk.currentPath.join (.ofText relative)

/-- The site with something told. -/
def tell (s : Site) (level : Log.Level) (source : String) (message : Text) : Site :=
  { s with log := s.log ++ [⟨level, source.toList, message⟩] }

/-- Write a file of the site. -/
def write (s : Site) (p : Path) (t : Text) : Except SiteError Site :=
  let written (failing : Option (Nat × Text)) : Except SiteError Site :=
    match s.disk.writeText p t with
    | .error e => .error (.disk e)
    | .ok disk =>
      .ok ({ s with disk, failing }.tell .debug "loader.services.document_io_service" ("Wrote ".toList ++ p.toText))
  match s.failing with
  | some (0, message) => .error (.outside message)
  | some (n + 1, message) => written (some (n, message))
  | none => written none

/-- Edit a file of the site. -/
def edit (s : Site) (step : OnboardingStep) (relative : Text) (edit : Text → Edit)
    (wrote : Site → Site) : Except SiteError (StepResult × Site) :=
  let p := s.path relative
  match s.disk.readText p with
  | .error (.disk ⟨.nullCharacter, p⟩) => .error (.disk ⟨.nullCharacter, p⟩)
  | .error e =>
    .ok (⟨step, .failed, "Could not read ".toList ++ p.toText⟩,
      s.tell .error "onboarding.services.splice_service"
        ("Cannot read ".toList ++ p.toText ++ ": ".toList ++ e.message))
  | .ok t =>
    match edit t with
    | .skipped m => .ok (⟨step, .skipped, m⟩, s)
    | .failed m => .ok (⟨step, .failed, m⟩, s)
    | .applied t m => (s.write p t).map fun s => (⟨step, .applied, m⟩, wrote s)

/-- Enter a repository into the workflow. -/
def addToWorkflow (s : Site) (repo : Text) : Except SiteError (StepResult × Site) :=
  s.edit .workflow s.settings.workflowPath (Edit.workflow s.settings repo) fun site =>
    site.tell .info "onboarding.services.splice_service"
      ("Workflow ".toList ++ (s.path s.settings.workflowPath).toText ++ " updated for ".toList ++ repo)

/-- Enter a repository into the sidebars. -/
def addToSidebars (s : Site) (repo : Text) : Except SiteError (StepResult × Site) :=
  s.edit .sidebars s.settings.sidebarsPath (Edit.sidebars s.settings repo) id

/-- Enter a repository into the navigation bar. -/
def addToNavbar (s : Site) (repo : Text) : Except SiteError (StepResult × Site) :=
  s.edit .navbar s.settings.configPath (Edit.navbar s.settings repo) id

/-- Make the folder of the documents of a repository. -/
def createDocsFolder (s : Site) (repo : Text) : Except SiteError (StepResult × Site) :=
  let p := (s.path s.settings.docsDir).join (.ofText repo)
  let label := s.settings.docsDir ++ '/' :: repo ++ ['/']
  match s.disk.isDirectory p with
  | .error e => .error (.disk e)
  | .ok true => .ok (⟨.docsFolder, .skipped, "Docs folder ".toList ++ label ++ " already exists".toList⟩, s)
  | .ok false =>
    match s.disk.ensureDirectories p with
    | (disk, none) => .ok (⟨.docsFolder, .applied, "Created docs folder: ".toList ++ label⟩, { s with disk })
    | (disk, some e) =>
      if e.isRefusal then
        .ok (⟨.docsFolder, .failed, "Could not create docs folder: ".toList ++ e.message⟩, { s with disk })
      else .error (.disk e)

/-- Do a step for a repository. -/
def perform (s : Site) (repo : Text) : OnboardingStep → Except SiteError (StepResult × Site)
  | .workflow => s.addToWorkflow repo
  | .docsFolder => s.createDocsFolder repo
  | .sidebars => s.addToSidebars repo
  | .navbar => s.addToNavbar repo

/-- Do a step for a repository; a refusal makes the step fail. -/
def guarded (s : Site) (repo : Text) (step : OnboardingStep) : Except SiteError (StepResult × Site) :=
  let source := "onboarding.controllers.onboarding_controller"
  let told (r : StepResult) (site : Site) : StepResult × Site :=
    (r, site.tell .debug source
      ("Onboarding step '".toList ++ step.name.toList ++ "': ".toList ++ r.status.name.toList))
  match s.perform repo step with
  | .ok (r, site) => .ok (told r site)
  | .error e =>
    if e.isRefusal then
      .ok (told ⟨step, .failed, e.message⟩
        (s.tell .error source ("Onboarding step '".toList ++ step.name.toList ++ "' failed: ".toList ++ e.message)))
    else .error e

/-- Do a step for a repository, and go on in one way or another with its result. -/
def doing (s : Site) (repo : Text) (step : OnboardingStep) (next : StepResult → Site → Onboarded) : Onboarded :=
  match s.guarded repo step with
  | .error e => ⟨.error (.site e), s⟩
  | .ok (r, site) =>
    let rest := next r site
    { rest with results := rest.results.map (r :: ·) }

/-- Do steps one after the other. -/
def performAll (repo : Text) : List OnboardingStep → Site → Onboarded
  | [], s => ⟨.ok [], s⟩
  | step :: steps, s => s.doing repo step fun _ => performAll repo steps

/-- Enter a repository, given by name or URL, into the site. -/
def onboard (s : Site) (value : Text) : Onboarded :=
  match RepoName.ofText value with
  | [] => ⟨.error .emptyName, s⟩
  | repo =>
    s.doing repo .workflow fun r =>
      performAll repo (if r.ok then [.docsFolder, .sidebars, .navbar] else [])

end Site
end MdxSafe
