-- SUMMARY: Dynamic values, as configuration files and tree attributes hold them.
import MdxSafe.Binary64.Basic
import MdxSafe.Text.Basic

/-!
# Dynamic values

Configuration sections and the attributes of tree nodes hold values whose type is known only when
they are read. An object is a list of fields with pairwise distinct keys, in the order in which the
keys were first given.
-/

namespace MdxSafe

/-- A dynamic value. -/
inductive Value where
  | null
  | bool (b : Bool)
  | int (i : Int)
  | float (x : Binary64)
  | text (t : Text)
  | list (items : List Value)
  | object (fields : List (Text × Value))
  deriving Repr, Inhabited

/-- The fields of an object. -/
abbrev Fields := List (Text × Value)

namespace Fields

/-- The value of a key. -/
def get? (fs : Fields) (key : Text) : Option Value :=
  (fs.find? fun f => f.1 = key).map Prod.snd

/-- The value of a key, or `null`. -/
def get (fs : Fields) (key : Text) : Value := (get? fs key).getD .null

/-- The fields with a key set: in place if it is there, at the end if it is new. -/
def set (fs : Fields) (key : Text) (v : Value) : Fields :=
  match fs with
  | [] => [(key, v)]
  | f :: rest => if f.1 = key then (key, v) :: rest else f :: set rest key v

/-- Fields from a list in which a later entry for a key replaces the value of an earlier one. -/
def ofEntries (entries : List (Text × Value)) : Fields :=
  entries.foldl (fun fs f => set fs f.1 f.2) []

end Fields

namespace Value

/-- Whether the value counts as true: neither null, false, zero nor empty. -/
def truthy : Value → Bool
  | null => false
  | bool b => b
  | int i => i != 0
  | float x => !x.isZero
  | text t => !t.isEmpty
  | list xs => !xs.isEmpty
  | object fs => !fs.isEmpty

/-- The name of the value's type. -/
def typeName : Value → String
  | null => "NoneType"
  | bool _ => "bool"
  | int _ => "int"
  | float _ => "float"
  | text _ => "str"
  | list _ => "list"
  | object _ => "dict"

mutual
/-- How deep lists and objects are nested. -/
def depth : Value → Nat
  | list xs => depths xs + 1
  | object fs => fieldDepths fs + 1
  | _ => 0

/-- The greatest depth of items. -/
def depths : List Value → Nat
  | [] => 0
  | x :: xs => max (depth x) (depths xs)

/-- The greatest depth of the values of fields. -/
def fieldDepths : List (Text × Value) → Nat
  | [] => 0
  | (_, x) :: fs => max (depth x) (fieldDepths fs)
end

/-- The text that a text value holds. -/
def text? : Value → Option Text
  | text t => some t
  | _ => none

end Value
end MdxSafe
