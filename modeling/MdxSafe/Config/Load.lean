-- SUMMARY: Loading the configuration: built-in values and the override file of the current directory.
import MdxSafe.Config.Basic
import MdxSafe.Disk.Access
import MdxSafe.Value.Json

/-!
# Loading configuration

The lowest layer is built in, or read from a file that stands in for it. An override file in the current
directory is laid over it. A file that cannot be read, or is no JSON object, counts as an empty object;
only one that is no text at all, or has an integer of too many digits, makes loading fail.
-/

namespace MdxSafe.Config

/-- A file of configuration as it was read. -/
structure Layer where
  fields : Fields := []
  log : List Log.Entry := []

/-- What is told about a file. -/
def note (level : Log.Level) (message : Text) : List Log.Entry :=
  [⟨level, "mdx_compat.core.managers.config_manager", message⟩]

/-- Why loading fails. -/
inductive LoadError where
  | file (e : Disk.ReadError)
  | number (e : ConversionError)
  deriving DecidableEq, Repr

/-- What to tell about loading that fails. -/
def LoadError.message : LoadError → Text
  | file e => e.message
  | number e => e.message

/-- The layer that a text writes. -/
def layerOfText (p : Path) (t : Text) : Except LoadError Layer :=
  match Json.read t with
  | .ok (.object fs) => .ok { fields := fs }
  | .ok _ =>
    .ok { log := note .error ("Configuration file ".toList ++ p.toText ++ " does not contain a JSON object.".toList) }
  | .error .malformed =>
    .ok { log := note .error ("Failed to load ".toList ++ p.toText ++ ": not a JSON text".toList) }
  | .error (.tooManyDigits count) => .error (.number (.tooManyDigits count))

/-- The layer of a file. A file that is not there is told only if it is required. -/
def loadFile (d : Disk) (required : Bool) (p : Path) : Except LoadError Layer :=
  match d.isThere p with
  | .error e => .error (.file (.disk e))
  | .ok false =>
    .ok { log := if required then
      note .warning ("settings.json not found at ".toList ++ p.toText ++ ". Using empty config.".toList)
    else [] }
  | .ok true =>
    match d.readText p with
    | .ok t => layerOfText p t
    | .error (.disk e) =>
      .ok { log := note .error ("Failed to load ".toList ++ p.toText ++ ": ".toList ++ e.message) }
    | .error e => .error (.file e)

/-- The name of the override file. -/
def overrideName : Text := ".mdx-compat.json"

/-- A configuration as it was loaded. If loading failed, it is what was in effect by then. -/
structure Loaded where
  config : Config
  log : List Log.Entry := []
  failure : Option LoadError := none

/-- The configuration with the override file laid over it. -/
def applyOverride (d : Disk) (base : Layer) : Loaded :=
  match loadFile d false (d.currentPath.child overrideName) with
  | .error e => ⟨base.fields, base.log, some e⟩
  | .ok top => ⟨if top.fields = [] then base.fields else base.fields.merge top.fields, base.log ++ top.log, none⟩

/-- Load the configuration anew. The old one stays in effect if the lowest layer cannot be read. -/
def load (d : Disk) (base : Option Path) (old : Config) : Loaded :=
  match base with
  | none => applyOverride d { fields := builtIn }
  | some p =>
    match loadFile d true p with
    | .error e => ⟨old, [], some e⟩
    | .ok layer => applyOverride d layer

end MdxSafe.Config
