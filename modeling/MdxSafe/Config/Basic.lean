-- SUMMARY: The effective configuration: looking up and setting keys, and settings read from its sections.
import MdxSafe.Config.Merge
import MdxSafe.Log
import MdxSafe.Settings.Validation
import MdxSafe.Validation.Listing

/-!
# Configuration

A configuration is an object of nested sections. A key is written as a path whose steps are separated by
periods. Looking up a key that is not there, or that holds nothing, gives a default. Setting a key makes the
sections above it, but never replaces a value that is no section. The configuration is changed in place.
-/

namespace MdxSafe

/-- A configuration. -/
abbrev Config := Fields

namespace Config

/-- The steps of a key; empty ones do not count. -/
def keys (path : Text) : List Text := (Text.splitOn '.' path).filter fun k => k ≠ []

/-- The value found by steps down from a value. -/
def follow : List Text → Value → Option Value
  | [], v => some v
  | k :: ks, .object fs => (Fields.get? fs k).bind (follow ks)
  | _ :: _, _ => none

/-- The value of a key, or a default. -/
def get (c : Config) (path : Text) (default : Value) : Value :=
  match follow (keys path) (.object c) with
  | none | some .null => default
  | some v => v

-- ---------------------------------------------------------------------------
-- Setting a key
-- ---------------------------------------------------------------------------

/-- Why a key cannot be set. -/
inductive SetError where
  /-- A key without steps names nothing. -/
  | emptyKey
  /-- The value at this step is no section. -/
  | notSection (key : Text)
  /-- The value cannot even be cast to another type of number. -/
  | overflow (e : ConversionError)
  deriving DecidableEq, Repr

/-- Store a value under a key of a section, cast to the type of the one it replaces if that is possible: the section
as it is left, and the type that the value could not be cast to. -/
def store (fs : Fields) (key : Text) (v : Value) : Fields × Except SetError (Option String) :=
  let old := Fields.get fs key
  match v.castLike old with
  | .ok v => (fs.set key v, .ok none)
  | .error .integerOfInfinity => (fs, .error (.overflow .integerOfInfinity))
  | .error .integerTooLarge => (fs, .error (.overflow .integerTooLarge))
  | .error _ => (fs.set key v, .ok (some old.typeName))

/-- Set a key, given its steps, in a section: the section as it is left, and what came of it. A section that is
missing is made before the steps below it are taken. -/
def setAt (v : Value) : List Text → Fields → Fields × Except SetError (Option String)
  | [], fs => (fs, .error .emptyKey)
  | [k], fs => store fs k v
  | k :: ks, fs =>
    match fs.get? k with
    | none =>
      let (inner, result) := setAt v ks []
      (fs.set k (.object inner), result)
    | some (.object inner) =>
      let (inner, result) := setAt v ks inner
      (fs.set k (.object inner), result)
    | some _ => (fs, .error (.notSection k))

/-- What came of setting a key. -/
structure SetOutcome where
  /-- The configuration as it is left. -/
  config : Config
  /-- Whether the key was set, unless that broke off. -/
  result : Except SetError Bool
  log : List Log.Entry := []

/-- Set a key. A step that is no section is told. -/
def set (c : Config) (path : Text) (v : Value) : SetOutcome :=
  let note (level : Log.Level) (message : Text) : List Log.Entry :=
    [⟨level, "mdx_compat.core.managers.config_manager", message⟩]
  match setAt v (keys path) c with
  | (c, .ok none) => ⟨c, .ok true, []⟩
  | (c, .ok (some typeName)) =>
    ⟨c, .ok true, note .warning ("Could not cast '".toList ++ path ++ "' to ".toList ++ typeName.toList
      ++ "; storing it unchanged.".toList)⟩
  | (c, .error (.notSection key)) =>
    ⟨c, .ok false, note .error ("Cannot set '".toList ++ path ++ "': '".toList ++ key
      ++ "' is not a section.".toList)⟩
  | (c, .error e) => ⟨c, .error e, []⟩

/-- What to tell about a key that cannot be set. -/
def SetError.message : SetError → Text
  | emptyKey => "not enough values to unpack (expected at least 1, got 0)"
  | notSection key => '\'' :: key ++ "' is not a section.".toList
  | overflow e => e.message

-- ---------------------------------------------------------------------------
-- Settings
-- ---------------------------------------------------------------------------

/-- Why a section gives no settings. -/
inductive SettingsError where
  /-- The section is no object. The settings it is for are given by the name of their record. -/
  | notObject (record : String) (typeName : String)
  /-- The section has problems. -/
  | invalid (record : String) (problems : List Problem)
  deriving Repr

/-- What to tell about a section that gives no settings. -/
def SettingsError.message : SettingsError → Text
  | notObject record typeName =>
    record.toList ++ "() argument after ** must be a mapping, not ".toList ++ typeName.toList
  | invalid record problems => Problem.listing record problems

/-- The settings of a section. A section that is not there, or holds nothing, is taken for an empty one. -/
def settings {α : Type} (c : Config) (name : String) (home record : String) (read : Fields → Checked α) :
    Except SettingsError α :=
  let check (fs : Fields) : Except SettingsError α :=
    match read fs with
    | .ok x => .ok x
    | .bad problems => .error (.invalid record problems)
  match c.get name (.object []) with
  | .object fs => check fs
  | v => if v.truthy then .error (.notObject (home ++ record) v.typeName) else check []

/-- The settings for rewriting. -/
def transformer (c : Config) : Except SettingsError Settings :=
  c.settings "transformer" "transformer.model." "TransformerSettings" Settings.ofFields

/-- The settings for finding documents. -/
def loader (c : Config) : Except SettingsError SourceSettings :=
  c.settings "loader" "loader.model." "LoaderSettings" SourceSettings.ofFields

/-- The settings of a documentation site. -/
def onboarding (c : Config) : Except SettingsError SiteSettings :=
  c.settings "onboarding" "onboarding.model." "OnboardingSettings" SiteSettings.ofFields

/-- The configuration without any override. -/
def builtIn : Config :=
  [("debug".toList, .object [("level".toList, .text "WARNING")]),
   ("loader".toList, .object ({} : SourceSettings).toFields),
   ("transformer".toList, .object ({} : Settings).toFields),
   ("onboarding".toList, .object ({} : SiteSettings).toFields)]

end Config
end MdxSafe
