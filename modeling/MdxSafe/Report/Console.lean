-- SUMMARY: The console report of a run.
import MdxSafe.Run.Run

/-!
# Console report

The report has a banner, a group of lines for every document that changed, failed or has warnings, and a
summary that lists the first warnings.
-/

namespace MdxSafe.Report

/-- How a report is written. -/
structure Style where
  /-- Whether changes are applied. -/
  apply : Bool := false
  backup : Bool := true
  /-- How many warnings are listed. -/
  previewLimit : Int := 5
  /-- The directory that paths are shown from. -/
  base : Option Path := none

/-- A line of text. -/
def line (t : Text) : Text := t ++ ['\n']

/-- Lines of text. -/
def lines (ts : List Text) : Text := ts.flatMap line

/-- A horizontal rule. -/
def rule : Text := List.replicate 60 '━'

/-- The banner. -/
def banner (s : Style) (backupSuffix : Text) : Text :=
  lines ["MDX Compat - markdown to MDX compatibility fixer",
    if s.apply then "Mode:   APPLY (will modify files)" else "Mode:   DRY-RUN (preview only)",
    if s.backup then "Backup: enabled (".toList ++ backupSuffix ++ " files)".toList else "Backup: disabled",
    []]

/-- How many documents were found. -/
def found (count : Int) : Text :=
  lines ["📄 Found ".toList ++ Text.ofInt count ++ " document(s) to process".toList, []]

/-- The lines about a document. -/
def document (s : Style) (e : DocumentEvent) : Text :=
  let label := e.path.display s.base
  match e.error, e.document with
  | some x, _ => line ("[ERROR]  ".toList ++ label ++ " -> ".toList ++ x.stage ++ ": ".toList ++ x.message)
  | none, none => []
  | none, some d =>
    (if d.changed then
      lines ["[MODIFY] ".toList ++ label,
        if s.apply then "  ✓ File updated" else "  -> Would modify this file (use --apply to make changes)"]
    else []) ++
    (if d.warnings = [] then []
    else
      lines ["[WARN]   ".toList ++ label,
        "  ⚠ Found ".toList ++ Text.ofNat d.warnings.length ++ " potential curly brace issue(s)".toList])

/-- What is told about a document that did not fail. -/
def account (s : Style) (e : DocumentEvent) : List Log.Entry :=
  let label := e.path.display s.base
  let note (message : Text) : List Log.Entry := [⟨.debug, "mdx_compat.core.managers.report_manager", message⟩]
  match e.error, e.document with
  | none, some d =>
    if d.changed then
      let names := (d.results.filter Prod.snd).map fun r => r.1.name.toList
      note (label ++ " changed by: ".toList ++ Text.join ", " names)
    else note ("[OK] ".toList ++ label)
  | _, _ => []

/-- The lines about the first warnings. -/
def preview (s : Style) (summary : Summary) : Text :=
  if summary.warnings = [] then []
  else
    lines [[], "⚠ Curly Brace Warnings (manual review recommended):"]
      ++ (summary.preview s.previewLimit).flatMap fun w =>
        lines ["  ".toList ++ w.source, "    Matches: ".toList ++ Text.join ", " w.findings]

/-- How many more warnings there are, if there are any and warnings are listed at all. -/
def remaining (s : Style) (summary : Summary) : Option Int :=
  let count := summary.warnings.length - s.previewLimit
  if summary.warnings ≠ [] ∧ 0 < count then some count else none

/-- Why a summary breaks off. -/
inductive SummaryError where
  /-- The number of further warnings has more digits than are written. -/
  | tooManyDigits
  deriving DecidableEq, Repr

/-- What to tell about a summary that breaks off. -/
def SummaryError.message : SummaryError → Text
  | tooManyDigits =>
    "Exceeds the limit (".toList ++ Text.ofNat Text.maxDigits
      ++ " digits) for integer string conversion; use sys.set_int_max_str_digits() to increase the limit".toList

/-- How many more warnings there are, unless the number is too long to be written. -/
def more (s : Style) (summary : Summary) : Except SummaryError Text :=
  match remaining s summary with
  | none => .ok []
  | some count =>
    if Text.maxDigits < (Text.ofInt count).length then .error .tooManyDigits
    else .ok (line ("  ... and ".toList ++ Text.ofInt count ++ " more".toList))

/-- The summary of a run, and why it breaks off, if it does. -/
def summary (s : Style) (summary : Summary) : Text × Option SummaryError :=
  let lead := lines [[], rule,
    "Summary: Processed ".toList ++ Text.ofInt summary.scanned ++ " file(s) in ".toList
      ++ summary.duration.toFixed 2 ++ ['s'],
    "  Changed:  ".toList ++ Text.ofInt summary.changed
      ++ (if s.apply then " file(s) (modified)" else " file(s) (dry-run)").toList,
    "  Warnings: ".toList ++ Text.ofInt summary.found ++ " curly brace issue(s) detected".toList]
  ++ (if summary.errors = [] then []
    else line ("  Errors:   ".toList ++ Text.ofNat summary.errors.length
      ++ " file(s) could not be processed".toList))
  ++ preview s summary
  match more s summary with
  | .error e => (lead, some e)
  | .ok told =>
    (lead ++ told ++ line rule
      ++ (if !s.apply && 0 < summary.changed then lines [[], "Run with --apply to make changes"] else []), none)

end MdxSafe.Report
