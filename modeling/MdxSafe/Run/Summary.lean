-- SUMMARY: The summary of a run.
import MdxSafe.Binary64.Basic
import MdxSafe.Scan.Validation

/-!
# Summaries

A summary counts the documents of a run and lists what was found, what failed and what changed.
-/

namespace MdxSafe

/-- A document that could not be processed, and the stage that failed. -/
structure FailedDocument where
  source : Text
  stage : Text
  message : Text
  deriving DecidableEq, Repr

/-- The summary of a run. -/
structure Summary where
  scanned : Int := 0
  changed : Int := 0
  found : Int := 0
  warnings : List Warning := []
  errors : List FailedDocument := []
  changedFiles : List Text := []
  applied : Bool := false
  backup : Bool := true
  /-- How many seconds the run took. -/
  duration : Binary64 := .zero
  finalized : Bool := false
  deriving Repr

namespace FailedDocument

/-- A failed document from fields. -/
def ofFields (fs : Fields) : Checked FailedDocument :=
  FailedDocument.mk <$> Checked.required Checked.text fs "source_path"
    <*> Checked.required Checked.text fs "stage" <*> Checked.required Checked.text fs "message"

end FailedDocument

namespace Summary

/-- The first warnings; none if the limit is not positive. -/
def preview (s : Summary) (limit : Int) : List Warning := s.warnings.take limit.toNat

/-- A summary from fields. -/
def ofFields (fs : Fields) : Checked Summary :=
  Summary.mk
    <$> Checked.optional Checked.int 0 fs "files_scanned"
    <*> Checked.optional Checked.int 0 fs "files_changed"
    <*> Checked.optional Checked.int 0 fs "warnings_found"
    <*> Checked.optional (Checked.list (Checked.record "DiagnosticRecord" Warning.ofFields)) [] fs "warnings"
    <*> Checked.optional (Checked.list (Checked.record "ErrorEntry" FailedDocument.ofFields)) [] fs "errors"
    <*> Checked.optional (Checked.list Checked.text) [] fs "changed_files"
    <*> Checked.optional Checked.bool false fs "applied"
    <*> Checked.optional Checked.bool true fs "backup"
    <*> Checked.optional Checked.float .zero fs "duration_s"
    <*> Checked.optional Checked.bool false fs "finalized"

end Summary
end MdxSafe
