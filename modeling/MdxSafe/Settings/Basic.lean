-- SUMMARY: The settings of the tool's parts, with their defaults.
import MdxSafe.Layout.Options
import MdxSafe.Text.Case

/-!
# Settings

`Settings` governs how documents are rewritten, scanned and written, `SourceSettings` where they are
found, and `SiteSettings` where the files of a documentation site stand.
-/

namespace MdxSafe

/-- The void elements of HTML. -/
def defaultVoidElements : List Text :=
  ["img", "br", "hr", "input", "meta", "link", "area", "base", "col", "embed", "param", "source", "track",
   "wbr"].map String.toList

/-- How documents are rewritten, scanned and written. -/
structure Settings where
  /-- What link targets must not start with. -/
  linkRoot : Text := "docs/"
  /-- The elements whose tags are closed in place. -/
  voidElements : List Text := defaultVoidElements
  /-- How much of a text a warning shows; a negative length counts from the end. -/
  excerptLength : Int := 100
  backupSuffix : Text := ".bak"
  /-- How many warnings a report lists. -/
  previewLimit : Int := 5
  layout : Layout.Options := {}
  deriving Repr, Inhabited, DecidableEq

/-- Element names as they are compared: trimmed, in lower case, none empty. -/
def Settings.normalizeNames (names : List Text) : List Text :=
  (names.filter fun n => Text.trimBlank n ≠ []).map fun n => Text.lower (Text.trimBlank n)

/-- Where documents are found. -/
structure SourceSettings where
  roots : List Text := ["docs".toList, "blog".toList]
  /-- How the names of documents end. -/
  extension : Text := ".md"
  deriving Repr, Inhabited, DecidableEq

/-- An extension with a period in front, unless it is empty. -/
def SourceSettings.normalizeExtension (t : Text) : Text :=
  match Text.trimBlank t with
  | [] => []
  | c :: t => if c = '.' then c :: t else '.' :: c :: t

/-- Where the files of a documentation site stand. -/
structure SiteSettings where
  owner : Text := "mwinfiel0331"
  /-- The repository whose steps in the workflow are the pattern for others. -/
  templateRepo : Text := "birddogger"
  workflowPath : Text := ".github/workflows/sync-docs.yml"
  sidebarsPath : Text := "sidebars.ts"
  configPath : Text := "docusaurus.config.ts"
  docsDir : Text := "docs"
  deriving Repr, Inhabited, DecidableEq

end MdxSafe
