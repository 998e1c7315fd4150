-- SUMMARY: The command that enters a repository into a documentation site.
import MdxSafe.Command.Outcome
import MdxSafe.Site.Onboarding

/-!
# Adding a repository

The command takes the name or the URL of a repository and does the steps of entering it into the site in
the current directory. It tells what came of each step.
-/

namespace MdxSafe.Command.AddRepository

/-- How the command is called. -/
def usage : Text :=
  Report.lines ["Usage: mdx-add-repo <repo-name>", [], "Examples:", "  mdx-add-repo nextinvestment",
    "  mdx-add-repo https://github.com/mwinfiel0331/nextinvestment"]

/-- The sign of a status. -/
def sign : StepStatus → Char
  | .applied => '✓'
  | .skipped => '⚠'
  | .failed => '❌'

/-- The lines before the steps. -/
def heading (owner repo : Text) : Text :=
  Report.lines [[], "Adding repository to documentation site", Report.rule,
    "Repository: ".toList ++ owner ++ '/' :: repo, []]

/-- The line about a step. -/
def stepLine (r : StepResult) : Text := Report.line (sign r.status :: ' ' :: r.message)

/-- The lines after steps that succeeded. -/
def nextSteps (repo : Text) : Text :=
  Report.lines [[], Report.rule, "✅ Repository added successfully!", [], "Next steps:",
    "  1. Ensure ".toList ++ repo ++ " has a /docs folder with markdown files".toList,
    "  2. Commit the changes",
    "  3. Run the \"Sync project docs\" workflow in GitHub Actions",
    []]

/-- Enter a repository into a site. Everything depends on the first step. -/
def enter (site : Site) (value : Text) : Outcome :=
  let repo := RepoName.ofText value
  let heading := heading site.settings.owner repo
  let done := site.onboard value
  let leave (status : Nat) (output : Text) : Outcome :=
    { status := .ok status, disk := done.site.disk, log := done.site.log, output := heading ++ output }
  match done.results with
  | .error e => leave 1 (Report.line ("❌ ".toList ++ e.message))
  | .ok results =>
    let lines := results.flatMap stepLine
    if (results.head?.map StepResult.ok).getD true then leave 0 (lines ++ nextSteps repo) else leave 1 lines

/-- Enter a repository into the site in the current directory, under a configuration. -/
def perform (d : Disk) (c : Config) : List Text → Outcome
  | [] => { status := .ok 1, disk := d, output := usage }
  | value :: _ =>
    if Text.trimBlank value = [] then { status := .ok 1, disk := d, output := usage }
    else
      match c.onboarding with
      | .error e => { status := .error (.settings e), disk := d }
      | .ok settings => enter { disk := d, settings } value

end AddRepository

/-- Call the command with arguments, under a configuration. -/
def addRepository (d : Disk) (c : Config) (as : List Text) : Outcome :=
  (AddRepository.perform d c as).traced
    (Log.Setup.configure (c.get "debug.level" (.text "WARNING")) [] [])

end MdxSafe.Command
