-- SUMMARY: Warnings read from data and written back.
import MdxSafe.Scan.Basic
import MdxSafe.Settings.Validation
import MdxSafe.Validation.Basic

/-!
# Warnings from data

A warning is an object; its code may be left out.
-/

namespace MdxSafe.Warning

/-- A warning from fields. -/
def ofFields (fs : Fields) : Checked Warning :=
  Warning.mk <$> Checked.required Checked.text fs "source_path"
    <*> Checked.required Checked.text fs "excerpt"
    <*> Checked.required (Checked.list Checked.text) fs "matches"
    <*> Checked.optional Checked.text Diagnostic.curlyBraces.code fs "code"

/-- The warning as fields. -/
def toFields (w : Warning) : Fields :=
  [("source_path".toList, .text w.source), ("excerpt".toList, .text w.excerpt),
   ("matches".toList, Value.texts w.findings), ("code".toList, .text w.code)]

end MdxSafe.Warning
