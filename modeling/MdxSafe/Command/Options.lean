-- SUMMARY: Options of a command line: how arguments are read, and why they are refused.
import MdxSafe.Text.Digit
import MdxSafe.Text.Quoted

/-!
# Command line options

A command knows options, each with short and long names, and some with a value. A long name may be cut
short as long as it is the start of one name only, and takes its value after `=` or as the next argument.
Short names without a value may be written together. Two dashes alone are never a value: after `=` they are
dropped, and as an argument they end the options. Everything that is neither an option nor the value of one
is left over.
-/

namespace MdxSafe.Command

/-- An option of a command, identified by a value of a type. -/
structure Switch (ι : Type) where
  id : ι
  /-- The names, short ones with one dash, long ones with two. -/
  names : List Text
  takesValue : Bool := false

/-- The names of an option, as they are shown. -/
def Switch.shown {ι : Type} (o : Switch ι) : Text := Text.join ['/'] o.names

/-- An option that was given, with its value if it has one. -/
structure Given (ι : Type) where
  id : ι
  value : Option Text := none
  deriving Repr

/-- Why arguments are refused. -/
inductive ArgumentError where
  /-- An abbreviation fits several names. -/
  | ambiguous (argument : Text) (names : List Text)
  /-- An option without its value. -/
  | noValue (option : Text)
  /-- A value for an option that takes none. -/
  | strayValue (option value : Text)
  /-- Arguments that are left over. -/
  | leftOver (arguments : List Text)
  deriving DecidableEq, Repr

/-- What to tell about refused arguments. -/
def ArgumentError.message : ArgumentError → Text
  | ambiguous a names =>
    "ambiguous option: ".toList ++ a ++ " could match ".toList ++ Text.join ", " names
  | noValue o => "argument ".toList ++ o ++ ": expected one argument".toList
  | strayValue o v => "argument ".toList ++ o ++ ": ignored explicit argument ".toList ++ Text.quoted v
  | leftOver as => "unrecognized arguments: ".toList ++ Text.join [' '] as

-- ---------------------------------------------------------------------------
-- What single arguments are
-- ---------------------------------------------------------------------------

/-- What an argument by itself is. -/
inductive Word (ι : Type) where
  /-- No option. -/
  | plain
  /-- An option under one of its names, perhaps with a value. -/
  | option (o : Switch ι) (name : Text) (value : Option Text)
  /-- It looks like an option, but the command knows none of that name. -/
  | unknown

/-- A decimal digit of any script. -/
def isDecimal (c : Char) : Bool := (decimalValue? c).isSome

/-- Whether an argument is a negative number. -/
def isNegativeNumber : Text → Bool
  | '-' :: t =>
    let t := if t.getLast? = some '\n' then t.dropLast else t
    let whole := t.takeWhile isDecimal
    match t.drop whole.length with
    | [] => whole ≠ []
    | '.' :: frac => frac ≠ [] && frac.all isDecimal
    | _ => false
  | _ => false

variable {ι : Type}

/-- Names with their options, in the order in which they were declared. -/
def namesOf (os : List (Switch ι)) : List (Text × Switch ι) :=
  os.flatMap fun o => o.names.map fun n => (n, o)

/-- The option of a name. -/
def named? (os : List (Switch ι)) (name : Text) : Option (Switch ι) :=
  ((namesOf os).find? fun n => n.1 = name).map Prod.snd

/-- What stands before and after the first `=` of an argument. -/
def cutValue (a : Text) : Text × Option Text :=
  match Text.cut? ['='] a with
  | some (name, value) => (name, some value)
  | none => (a, none)

/-- The options that an argument may stand for without being one of their names. -/
def candidates (os : List (Switch ι)) (a : Text) : List (Text × Switch ι × Option Text) :=
  if Text.startsWith a "--" then
    let (lead, value) := cutValue a
    ((namesOf os).filter fun n => Text.startsWith n.1 lead).map fun n => (n.1, n.2, value)
  else
    (namesOf os).filterMap fun n =>
      if n.1 = a.take 2 then some (n.1, n.2, some (a.drop 2))
      else if Text.startsWith n.1 a then some (n.1, n.2, none)
      else none

/-- What an argument by itself is. -/
def word (os : List (Switch ι)) (a : Text) : Except ArgumentError (Word ι) :=
  if a.head? ≠ some '-' then .ok .plain
  else
    match named? os a with
    | some o => .ok (.option o a none)
    | none =>
      if a.length = 1 then .ok .plain
      else
        let (name, value) := cutValue a
        match value.bind fun _ => named? os name with
        | some o => .ok (.option o name value)
        | none =>
          match candidates os a with
          | [(name, o, value)] => .ok (.option o name value)
          | [] => .ok (if isNegativeNumber a || ' ' ∈ a then .plain else .unknown)
          | several => .error (.ambiguous a (several.map Prod.fst))

/-- What all arguments are. After `--` all are plain. -/
def wordsOf (os : List (Switch ι)) : List Text → Except ArgumentError (List (Text × Word ι))
  | [] => .ok []
  | a :: as =>
    if a = ['-', '-'] then .ok ((a, .unknown) :: as.map fun b => (b, .plain))
    else
      match word os a, wordsOf os as with
      | .error e, _ => .error e
      | _, .error e => .error e
      | .ok w, .ok ws => .ok ((a, w) :: ws)

-- ---------------------------------------------------------------------------
-- Reading arguments
-- ---------------------------------------------------------------------------

/-- What was given before a name among short ones written together, and the option at the end with what is
left as its value. -/
def spread (os : List (Switch ι)) (o : Switch ι) :
    Text → Except ArgumentError (List (Given ι) × Switch ι × Option Text)
  | [] => .ok ([], o, none)
  | c :: t =>
    if o.takesValue then .ok ([], o, some (c :: t))
    else
      match named? os ['-', c] with
      | none => .error (.strayValue o.shown (c :: t))
      | some next => (spread os next t).map fun r => (⟨o.id, none⟩ :: r.1, r.2)

/-- What one option with its own value gives, and whether it still wants the next argument for a value. -/
def readOption (os : List (Switch ι)) (o : Switch ι) (name : Text) (value : Option Text) :
    Except ArgumentError (List (Given ι) × Option (Switch ι)) :=
  let close (before : List (Given ι)) (o : Switch ι) (value : Option Text) :
      Except ArgumentError (List (Given ι) × Option (Switch ι)) :=
    match o.takesValue, value with
    | true, some v => .ok (before ++ [⟨o.id, if v = ['-', '-'] then none else some v⟩], none)
    | true, none => .ok (before, some o)
    | false, none => .ok (before ++ [⟨o.id, none⟩], none)
    | false, some v => .error (.strayValue o.shown v)
  match value with
  | some (c :: t) =>
    if Text.startsWith name "--" then close [] o (some (c :: t))
    else
      match spread os o (c :: t) with
      | .error e => .error e
      | .ok (before, o, value) => close before o value
  | value => close [] o value

/-- What was given, and what is left over; `waiting` is an option that wants the next argument. Reading stops
at an option that `ends` all. -/
def readWords (os : List (Switch ι)) (ends : ι → Bool) :
    Option (Switch ι) → List (Text × Word ι) → Except ArgumentError (List (Given ι) × List Text)
  | some o, (a, .plain) :: ws => (readWords os ends none ws).map fun r => (⟨o.id, some a⟩ :: r.1, r.2)
  | some o, _ => .error (.noValue o.shown)
  | none, [] => .ok ([], [])
  | none, (a, .plain) :: ws | none, (a, .unknown) :: ws =>
    (readWords os ends none ws).map fun r => (r.1, a :: r.2)
  | none, (_, .option o name value) :: ws =>
    match readOption os o name value with
    | .error e => .error e
    | .ok (given, waiting) =>
      if given.any fun g => ends g.id then .ok (given, [])
      else (readWords os ends waiting ws).map fun r => (given ++ r.1, r.2)

/-- The options that arguments give, in their order. An option that ends all makes what follows irrelevant,
except for abbreviations that fit several names. -/
def readArguments (os : List (Switch ι)) (ends : ι → Bool) (as : List Text) :
    Except ArgumentError (List (Given ι)) :=
  match wordsOf os as with
  | .error e => .error e
  | .ok ws =>
    match readWords os ends none ws with
    | .error e => .error e
    | .ok (given, rest) =>
      if (given.any fun g => ends g.id) || rest = [] then .ok given else .error (.leftOver rest)

end MdxSafe.Command
