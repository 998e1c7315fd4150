-- SUMMARY: What came of a command: its status, its output, the records it told and the disk it leaves.
import MdxSafe.Config.Basic
import MdxSafe.Disk.Basic
import MdxSafe.Report.Export

/-!
# Outcomes of commands

A command ends with a status, or breaks off. Either way it leaves output, records and a disk. The records
are shown one line each while tracing.
-/

namespace MdxSafe.Command

/-- Why a command breaks off. -/
inductive Breakdown where
  /-- A section of the configuration is no object, or has problems that nobody expects. -/
  | settings (e : Config.SettingsError)
  /-- The summary of a run cannot be told. -/
  | reporting (e : Report.SummaryError)
  /-- The file name for an export is no name, or no path. -/
  | exporting (e : Report.ExportError)
  /-- A root directory was given without its name. -/
  | namelessRoot

/-- What to tell about a command that breaks off. -/
def Breakdown.message : Breakdown → Text
  | settings e => e.message
  | reporting e => e.message
  | exporting e => e.message
  | namelessRoot => "expected str, bytes or os.PathLike object, not list"

/-- What came of a command. -/
structure Outcome where
  /-- The exit status, unless the command broke off. -/
  status : Except Breakdown Nat := .ok 0
  disk : Disk
  output : Text := []
  log : List Log.Entry := []
  /-- What is shown beside the output, if anything is to be shown there. -/
  errors : Option Text := none

namespace Outcome

/-- The outcome with its records shown, if all records are to be shown. -/
def traced (o : Outcome) (s : Log.Setup) : Outcome :=
  if s.isTracing then { o with errors := some (o.log.flatMap fun e => Report.line e.traced) } else o

/-- The outcome that a command reached in one way or another. -/
def ofEither : Except Outcome Outcome → Outcome
  | .ok o => o
  | .error o => o

end Outcome
end MdxSafe.Command
