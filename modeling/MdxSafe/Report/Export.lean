-- SUMMARY: Exporting the warnings of a run to a file.
import MdxSafe.Report.Address
import MdxSafe.Report.Console
import MdxSafe.Report.Csv

/-!
# Export

The warnings of a run are written as a table with a header. Nothing is written if there are none. A file
name that does not end in `.csv` gets that ending; one that reads like an address is taken for one.
-/

namespace MdxSafe.Report

/-- The table of warnings. -/
def warningsTable (s : Summary) : Text :=
  Csv.table (["File", "Code", "Matches", "Excerpt"].map String.toList
    :: s.warnings.map fun w => [w.source, w.code, Text.join " | " w.findings, w.excerpt])

/-- Where a table is written for a file name. -/
def exportPath (fileName : Text) : Except Path.NameError Path :=
  let p := Path.ofText fileName
  if Text.lower p.suffix = ".csv".toList then .ok p else p.withName (p.name ++ ".csv".toList)

/-- Why a table is not saved. -/
inductive SaveError where
  | noDirectory (p : Path)
  | disk (e : DiskError)
  | address (e : AddressError)
  deriving DecidableEq, Repr

/-- Whether the table was refused, and not the path was none. -/
def SaveError.isRefusal : SaveError → Bool
  | noDirectory _ => true
  | disk e => e.isRefusal
  | address e => e.isRefusal

/-- What to tell about a table that is not saved. -/
def SaveError.message : SaveError → Text
  | noDirectory p => "Cannot save file into a non-existent directory: '".toList ++ p.toText ++ ['\'']
  | disk e => e.message
  | address e => e.message

/-- Write a table to a file in a directory that is there, or to an address. -/
def saveTable (d : Disk) (p : Path) (t : Text) : Except SaveError Disk :=
  if Address.isAddress p.toText then
    match Address.openAddress d p.toText with
    | .error e => .error (.address e)
    | .ok () => .ok d
  else
    match d.isDirectory p.parent with
    | .error e => .error (.disk e)
    | .ok false => .error (.noDirectory p.parent)
    | .ok true => (d.writeText p t).mapError .disk

/-- Why an export breaks off. -/
inductive ExportError where
  /-- The file name is no name. -/
  | name (e : Path.NameError)
  /-- The path is none. -/
  | path (e : SaveError)
  deriving DecidableEq, Repr

/-- What to tell about an export that breaks off. -/
def ExportError.message : ExportError → Text
  | name e => e.message
  | path e => e.message

/-- What came of an export. -/
structure Exported where
  /-- Where the table was written, if it was. -/
  path : Option Path := none
  disk : Disk
  output : Text
  log : List Log.Entry := []

/-- Export the warnings of a run. -/
def exportWarnings (d : Disk) (s : Summary) (fileName : Text) : Except ExportError Exported :=
  if s.warnings = [] then .ok { disk := d, output := line "ℹ️  No warnings to export." }
  else
    match exportPath fileName with
    | .error e => .error (.name e)
    | .ok p =>
      match saveTable d p (warningsTable s) with
      | .error e =>
        if e.isRefusal then
          .ok { disk := d, output := line ("❌ Error exporting: ".toList ++ e.message)
                log := [⟨.error, "mdx_compat.core.managers.report_manager",
                  "Export to ".toList ++ p.toText ++ " failed: ".toList ++ e.message⟩] }
        else .error (.path e)
      | .ok disk =>
        .ok { path := some p, disk, output := line ("✅ Warnings exported to: ".toList ++ p.toText) }

end MdxSafe.Report
