-- SUMMARY: The command that makes documents safe: its options, and what it does.
import MdxSafe.Command.Options
import MdxSafe.Command.Outcome
import MdxSafe.Report.Export

/-!
# Making documents safe

The command searches documents below root directories and runs over them. It only tells what it would
change, unless it is told to apply changes. Its report goes to the output; the warnings can be exported.
-/

namespace MdxSafe.Command

-- ---------------------------------------------------------------------------
-- Options
-- ---------------------------------------------------------------------------

/-- The options of the command. -/
inductive FixOption where
  | help | apply | noBackup | verbose | root | exportTo
  deriving DecidableEq, Repr

namespace FixOption

/-- The options with their names. -/
def switches : List (Switch FixOption) :=
  [⟨help, ["-h".toList, "--help".toList], false⟩,
   ⟨apply, ["-a".toList, "--apply".toList], false⟩,
   ⟨noBackup, ["--no-backup".toList], false⟩,
   ⟨verbose, ["-v".toList, "--verbose".toList], false⟩,
   ⟨root, ["--root".toList], true⟩,
   ⟨exportTo, ["--export".toList], true⟩]

/-- How the command is called. -/
def usage : Text :=
  Report.line "usage: mdx-compat [-h] [-a] [--no-backup] [-v] [--root DIR] [--export PATH]"

/-- What the command does, and with which options. -/
def helpText : Text :=
  usage ++ Report.lines [[],
    "Make markdown documents safe for an MDX renderer (dry-run by default).",
    [],
    "options:",
    "  -h, --help     show this help message and exit",
    "  -a, --apply    Write modified documents back to disk.",
    "  --no-backup    Do not create backup files when applying.",
    "  -v, --verbose  Trace every rewritten node.",
    "  --root DIR     Document root to scan (repeatable). Defaults to the",
    "                 configured roots.",
    "  --export PATH  Save all warnings to a CSV file."]

end FixOption

/-- What the command is asked to do. -/
structure FixRequest where
  help : Bool := false
  /-- Whether changed documents are written back. -/
  apply : Bool := false
  backup : Bool := true
  /-- Whether every record is shown. -/
  verbose : Bool := false
  /-- The names of root directories, as far as they were given. -/
  roots : List (Option Text) := []
  exportName : Option Text := none
  deriving DecidableEq, Repr

namespace FixRequest

/-- A request with one more option. -/
def add (r : FixRequest) (g : Given FixOption) : FixRequest :=
  match g.id with
  | .help => { r with help := true }
  | .apply => { r with apply := true }
  | .noBackup => { r with backup := false }
  | .verbose => { r with verbose := true }
  | .root => { r with roots := r.roots ++ [g.value] }
  | .exportTo => { r with exportName := g.value }

/-- The request that arguments make. -/
def ofArguments (as : List Text) : Except ArgumentError FixRequest :=
  (readArguments FixOption.switches (· = .help) as).map fun given => given.foldl add {}

/-- The names of the root directories: those of the request, or else configured ones. -/
def rootNames (r : FixRequest) (configured : List Text) : Option (List Text) :=
  if r.roots = [] then some configured else r.roots.mapM id

-- ---------------------------------------------------------------------------
-- Doing what is asked
-- ---------------------------------------------------------------------------

/-- What the command tells by itself. -/
def note (message : Text) : List Log.Entry := [⟨.error, "mdx_compat.app", message⟩]

/-- Settings, or the outcome of a command that cannot do without them. -/
def needed {α : Type} (d : Disk) : Except Config.SettingsError α → Except Outcome α
  | .ok x => .ok x
  | .error (.invalid record ps) =>
    let message := "Invalid configuration: ".toList ++ (Config.SettingsError.invalid record ps).message
    .error { status := .ok 1, disk := d, output := Report.line ("❌ ".toList ++ message), log := note message }
  | .error e => .error { status := .error (.settings e), disk := d }

/-- The outcome with the warnings of a run exported to a file, if there is a name for it. -/
def exported (r : FixRequest) (s : Summary) (o : Outcome) : Outcome :=
  match r.exportName with
  | none | some [] => o
  | some name =>
    match Report.exportWarnings o.disk s name with
    | .error e => { o with status := .error (.exporting e) }
    | .ok x => { o with disk := x.disk, output := o.output ++ x.output, log := o.log ++ x.log }

/-- Run over the documents below root directories. -/
def runOver (r : FixRequest) (d : Disk) (settings : Settings) (extension : Text) (names : List Text)
    (duration : Binary64) : Outcome :=
  let base := d.currentPath
  let style : Report.Style := ⟨r.apply, r.backup, settings.previewLimit, some base⟩
  let banner := Report.banner style settings.backupSuffix
  match Run.discover extension (Path.resolveRoots names base) { disk := d } with
  | .error e =>
    let message := "Run aborted: ".toList ++ e.message
    { status := .ok 1, disk := d, output := banner ++ Report.line ("❌ ".toList ++ message), log := note message }
  | .ok ([], found) =>
    let places := Text.join ", " (names.map fun n => n ++ ['/'])
    { status := .ok 1, disk := d, log := found.log
      output := banner ++ Report.line ("❌ No ".toList ++ extension ++ " files found in ".toList ++ places) }
  | .ok (paths, found) =>
    let plan : RunPlan := { settings, apply := r.apply, backup := r.backup, base }
    let done := found.documents plan (Report.account style) duration paths
    let (told, failure) := Report.summary style done.summary
    let reported : Outcome :=
      { disk := done.disk, log := done.log
        output := banner ++ Report.found paths.length ++ done.events.flatMap (Report.document style) ++ told }
    match failure with
    | some e => { reported with status := .error (.reporting e) }
    | none => r.exported done.summary reported

/-- Do what is asked under a configuration. -/
def perform (r : FixRequest) (d : Disk) (c : Config) (duration : Binary64) : Except Outcome Outcome := do
  let settings ← needed d c.transformer
  let sources ← needed d c.loader
  match r.rootNames sources.roots with
  | none => .error { status := .error .namelessRoot, disk := d }
  | some names => .ok (r.runOver d settings sources.extension names duration)

/-- Which records are shown under a configuration. -/
def logSetup (r : FixRequest) (c : Config) : Log.Setup :=
  let level := if r.verbose then .text "DEBUG" else c.get "debug.level" (.text "WARNING")
  Log.Setup.configure level [] [("markdown_it".toList, .text "WARNING")]

end FixRequest

/-- Call the command with arguments, under a configuration; the run takes some time. -/
def fix (d : Disk) (c : Config) (duration : Binary64) (as : List Text) : Outcome :=
  match FixRequest.ofArguments as with
  | .error e =>
    { status := .ok 2, disk := d
      errors := some (FixOption.usage ++ Report.line ("mdx-compat: error: ".toList ++ e.message)) }
  | .ok r =>
    if r.help then { disk := d, output := FixOption.helpText }
    else (Outcome.ofEither (r.perform d c duration)).traced (r.logSetup c)

end MdxSafe.Command
