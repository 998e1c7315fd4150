-- SUMMARY: Log records: level, source and message.
import MdxSafe.Text.Case
import MdxSafe.Value.Printer

/-!
# Log records

Operations tell what they did by log records beside their results. A record has a level, the name of
the part of the program that wrote it, and a message.
-/

namespace MdxSafe.Log

/-- How much a record matters. -/
inductive Level where
  | debug | info | warning | error | critical
  deriving DecidableEq, Repr

namespace Level

/-- All levels. -/
def all : List Level := [debug, info, warning, error, critical]

/-- The name of a level. -/
def name : Level → String
  | debug => "DEBUG"
  | info => "INFO"
  | warning => "WARNING"
  | error => "ERROR"
  | critical => "CRITICAL"

/-- The number by which levels are compared. -/
def number : Level → Int
  | debug => 10
  | info => 20
  | warning => 30
  | error => 40
  | critical => 50

/-- The names by which a level can be given, with its number. -/
def names : List (String × Int) :=
  [("CRITICAL", 50), ("FATAL", 50), ("ERROR", 40), ("WARN", 30), ("WARNING", 30), ("INFO", 20),
    ("DEBUG", 10), ("NOTSET", 0)]

/-- The level number that a value gives: a number gives itself, a name in letters of either case its
number, and anything else the fallback. -/
def resolve (v : Value) (fallback : Int) : Int :=
  match v with
  | .null => fallback
  | .int i => i
  | .bool b => if b then 1 else 0
  | v => ((names.find? fun n => n.1.toList = Text.upper v.toText).map Prod.snd).getD fallback

end Level

/-- A log record. -/
structure Entry where
  level : Level
  source : Text
  message : Text
  deriving Repr

/-- A record as a short line, as it is shown while tracing. -/
def Entry.traced (e : Entry) : Text := "  [VERBOSE] ".toList ++ e.source ++ ": ".toList ++ e.message

-- ---------------------------------------------------------------------------
-- Setup
-- ---------------------------------------------------------------------------

/-- Which records are shown: a general level, and levels for single sources. -/
structure Setup where
  level : Int
  /-- Whether every record is shown, as a short line. -/
  isTracing : Bool
  levels : List (Text × Int) := []
  deriving DecidableEq, Repr

namespace Setup

/-- The format of lines. -/
def format (s : Setup) : Text :=
  if s.isTracing then "  [VERBOSE] %(name)s: %(message)s"
  else "%(asctime)s - %(levelname)s - [%(name)s:%(lineno)d] - %(message)s"

/-- Whether a name stands for all sources together. -/
def isGeneral (source : Text) : Bool := source = [] || source = "root".toList

/-- The levels with one set: in place if the source has one, at the end if not. -/
def setLevel (levels : List (Text × Int)) (source : Text) (level : Int) : List (Text × Int) :=
  match levels with
  | [] => [(source, level)]
  | l :: rest => if l.1 = source then (source, level) :: rest else l :: setLevel rest source level

/-- The setup with the level of a source set. -/
def set (s : Setup) (source : Text) (level : Int) : Setup :=
  if isGeneral source then { s with level } else { s with levels := setLevel s.levels source level }

/-- The level of a source; one that none was given for has the least. -/
def levelOf (s : Setup) (source : Text) : Int :=
  if isGeneral source then s.level else ((s.levels.find? fun l => l.1 = source).map Prod.snd).getD 0

/-- The setup for given levels: of single sources, at least informative ones if they cannot be read, and
of sources to be silenced, critical ones if they cannot be read. The general level as it is given at first
decides whether every record is shown. -/
def configure (general : Value) (modules silenced : Fields) : Setup :=
  let level := Level.resolve general Level.info.number
  let add (fallback : Level) (s : Setup) (f : Text × Value) : Setup :=
    s.set f.1 (Level.resolve f.2 fallback.number)
  silenced.foldl (add .critical) (modules.foldl (add .info) ⟨level, level ≤ Level.debug.number, []⟩)

end Setup
end MdxSafe.Log
