-- SUMMARY: Reading typed data out of dynamic values, with every problem found on the way.
import MdxSafe.Validation.Numeral
import MdxSafe.Value.Printer

/-!
# Validation

A record is read field by field. All problems are collected, in the order of the fields; each says where
it was found, which rule was broken, and by what value. Nothing is converted to a text; integers are
also read from booleans, from numbers without a fraction (of less than 64 bits) and from numerals,
booleans from zero, one and the words for yes and no, numbers from integers and numerals.
-/

namespace MdxSafe

/-- The rule that a value breaks. -/
inductive Fault where
  | missing
  | string
  | list
  | dict
  /-- A record of this name was expected. -/
  | model (name : String)
  /-- One of these names was expected. -/
  | enum (names : List String)
  /-- One of these texts was expected. -/
  | literal (texts : List String)
  | int
  | intNumeral
  | intFraction
  | intSize
  | finite
  | bool
  | boolWord
  | float
  | floatNumeral
  | atLeast (bound : Int)
  | atMost (bound : Int)
  | frozen
  deriving DecidableEq, Repr

namespace Fault

/-- The name of a rule. -/
def name : Fault → String
  | missing => "missing"
  | string => "string_type"
  | list => "list_type"
  | dict => "dict_type"
  | model _ => "model_type"
  | enum _ => "enum"
  | literal _ => "literal_error"
  | int => "int_type"
  | intNumeral => "int_parsing"
  | intFraction => "int_from_float"
  | intSize => "int_parsing_size"
  | finite => "finite_number"
  | bool => "bool_type"
  | boolWord => "bool_parsing"
  | float => "float_type"
  | floatNumeral => "float_parsing"
  | atLeast _ => "greater_than_equal"
  | atMost _ => "less_than_equal"
  | frozen => "frozen_field"

/-- Alternatives in quotes, with a word before the last one. -/
def alternatives : List String → Text
  | [] => []
  | [a] => '\'' :: a.toList ++ ['\'']
  | [a, b] => '\'' :: a.toList ++ "' or '".toList ++ b.toList ++ ['\'']
  | a :: rest => '\'' :: a.toList ++ "', ".toList ++ alternatives rest

/-- What to tell about a broken rule. -/
def message : Fault → Text
  | missing => "Field required"
  | string => "Input should be a valid string"
  | list => "Input should be a valid list"
  | dict => "Input should be a valid dictionary"
  | model name => "Input should be a valid dictionary or instance of ".toList ++ name.toList
  | enum names => "Input should be ".toList ++ alternatives names
  | literal texts => "Input should be ".toList ++ alternatives texts
  | int => "Input should be a valid integer"
  | intNumeral => "Input should be a valid integer, unable to parse string as an integer"
  | intFraction => "Input should be a valid integer, got a number with a fractional part"
  | intSize => "Unable to parse input string as an integer, exceeded maximum size"
  | finite => "Input should be a finite number"
  | bool => "Input should be a valid boolean"
  | boolWord => "Input should be a valid boolean, unable to interpret input"
  | float => "Input should be a valid number"
  | floatNumeral => "Input should be a valid number, unable to parse string as a number"
  | atLeast n => "Input should be greater than or equal to ".toList ++ Text.ofInt n
  | atMost n => "Input should be less than or equal to ".toList ++ Text.ofInt n
  | frozen => "Field is frozen"

end Fault

/-- A problem: where it is, which rule is broken, and by what. -/
structure Problem where
  path : List Text
  fault : Fault
  input : Value
  deriving Repr

/-- The place of a problem, its steps joined by periods. -/
def Problem.location (p : Problem) : Text := Text.join ['.'] p.path

/-- Data read out of a value, or the problems with it. -/
inductive Checked (α : Type) where
  | ok (x : α)
  | bad (problems : List Problem)
  deriving Repr

namespace Checked

/-- Refuse a value. -/
def fail {α : Type} (fault : Fault) (v : Value) : Checked α := .bad [⟨[], fault, v⟩]

/-- A function of the data. -/
def map {α β : Type} (f : α → β) : Checked α → Checked β
  | .ok x => .ok (f x)
  | .bad ps => .bad ps

/-- Two parts read side by side, with the problems of both. -/
def seq {α β : Type} (f : Checked (α → β)) (x : Unit → Checked α) : Checked β :=
  match f, x () with
  | .ok f, .ok x => .ok (f x)
  | .bad ps, .bad qs => .bad (ps ++ qs)
  | .bad ps, .ok _ => .bad ps
  | .ok _, .bad qs => .bad qs

instance : Applicative Checked where
  pure := .ok
  map := map
  seq := seq

/-- A further condition on data that was read. -/
def andThen {α β : Type} (x : Checked α) (f : α → Checked β) : Checked β :=
  match x with
  | .ok x => f x
  | .bad ps => .bad ps

/-- A step into a value: problems inside it are found below the step. -/
def within {α : Type} (step : Text) : Checked α → Checked α
  | .ok x => .ok x
  | .bad ps => .bad (ps.map fun p => { p with path := step :: p.path })

/-- A field that has to be there. -/
def required {α : Type} (read : Value → Checked α) (fs : Fields) (key : Text) : Checked α :=
  within key (match fs.get? key with
    | some v => read v
    | none => fail .missing (.object fs))

/-- A field that may be left out. -/
def optional {α : Type} (read : Value → Checked α) (default : α) (fs : Fields) (key : Text) : Checked α :=
  match fs.get? key with
  | some v => within key (read v)
  | none => .ok default

/-- A text. -/
def text : Value → Checked Text
  | .text t => .ok t
  | v => fail .string v

/-- A text or nothing. -/
def text? : Value → Checked (Option Text)
  | .null => .ok none
  | v => some <$> text v

/-- Items read side by side, from an index on. -/
def itemsFrom {α : Type} (read : Value → Checked α) (index : Nat) : List Value → Checked (List α)
  | [] => .ok []
  | v :: vs => List.cons <$> within (Text.ofNat index) (read v) <*> itemsFrom read (index + 1) vs

/-- A list. -/
def list {α : Type} (read : Value → Checked α) : Value → Checked (List α)
  | .list vs => itemsFrom read 0 vs
  | v => fail .list v

/-- An object, field by field. -/
def fields : Value → Checked Fields
  | .object fs => .ok fs
  | v => fail .dict v

/-- A record, read from its fields. -/
def record {α : Type} (name : String) (read : Fields → Checked α) : Value → Checked α
  | .object fs => read fs
  | v => fail (.model name) v

-- ---------------------------------------------------------------------------
-- Numbers and booleans
-- ---------------------------------------------------------------------------

/-- An integer. -/
def int : Value → Checked Int
  | .int i => .ok i
  | .bool b => .ok (if b then 1 else 0)
  | .float x =>
    match x.truncate? with
    | none => fail .finite (.float x)
    | some i =>
      if !x.isIntegral then fail .intFraction (.float x)
      else if i.natAbs < pow2 63 then .ok i
      else fail .intSize (.float x)
  | .text t =>
    if Numeral.isTooLong t then fail .intSize (.text t)
    else
      match Numeral.read? t with
      | some i => .ok i
      | none => fail .intNumeral (.text t)
  | v => fail .int v

/-- An integer within bounds. -/
def intBetween (low high : Int) (v : Value) : Checked Int :=
  (int v).andThen fun i =>
    if i < low then fail (.atLeast low) v else if high < i then fail (.atMost high) v else .ok i

/-- The words for yes, in small letters. -/
def yesWords : List Text := ["1", "t", "y", "on", "yes", "true"].map String.toList

/-- The words for no, in small letters. -/
def noWords : List Text := ["0", "f", "n", "no", "off", "false"].map String.toList

/-- The boolean that an integer stands for. -/
def boolOfInt (i : Int) (v : Value) : Checked Bool :=
  if i = 0 then .ok false else if i = 1 then .ok true else fail .boolWord v

/-- A boolean. -/
def bool : Value → Checked Bool
  | .bool b => .ok b
  | .text t =>
    let word := t.map Char.toLower
    if yesWords.any (· = word) then .ok true
    else if noWords.any (· = word) then .ok false
    else fail .boolWord (.text t)
  | .int i => if -(pow2 63 : Int) ≤ i ∧ i < pow2 63 then boolOfInt i (.int i) else fail .bool (.int i)
  | .float x =>
    match x.truncate? with
    | some i => if x.isIntegral ∧ i.natAbs < pow2 63 then boolOfInt i (.float x) else fail .bool (.float x)
    | none => fail .bool (.float x)
  | v => fail .bool v

/-- A number in double precision. -/
def float : Value → Checked Binary64
  | .float x => .ok x
  | .int i =>
    match Binary64.ofInt i with
    | .infinite _ => fail .float (.int i)
    | x => .ok x
  | .text t =>
    match (if t.all fun c => c.toNat < 0x80 || isNumeralMargin c then Binary64.ofText? t else none) with
    | some x => .ok x
    | none => fail .floatNumeral (.text t)
  | v => fail .float v

end Checked
end MdxSafe
