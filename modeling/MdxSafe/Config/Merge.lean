-- SUMMARY: Layers of configuration: deep merge of objects, and values cast to the type of what they replace.
import MdxSafe.Text.Blank
import MdxSafe.Text.Case
import MdxSafe.Value.Number

/-!
# Merging configuration

An override changes what it names and leaves the rest: objects are merged field by field, everything else
is replaced. A value set by hand keeps the type of the one it replaces, as far as it can be cast.
-/

namespace MdxSafe

namespace Value

mutual
/-- A value laid over an older one. -/
def lay (old : Option Value) : Value → Value
  | object fs =>
    match old with
    | some (object base) => object (layFields base fs)
    | _ => object fs
  | v => v
termination_by structural v => v

/-- Fields laid over older ones, one after the other. -/
def layFields (base : Fields) : List (Text × Value) → Fields
  | [] => base
  | (k, v) :: fs => layFields (base.set k (lay (base.get? k) v)) fs
termination_by structural fs => fs
end

end Value

/-- Fields with an override laid over them. -/
def Fields.merge (base override : Fields) : Fields := Value.layFields base override

namespace Value

/-- The words for true. -/
def affirmative : List Text := ["1", "true", "yes", "on"].map String.toList

/-- A value cast to the type of the one it replaces. Lists, objects and nothing have no type to cast to. -/
def castLike (v like : Value) : Except ConversionError Value :=
  match like, v with
  | null, v | list _, v | object _, v => .ok v
  | bool _, .text t => .ok (.bool (affirmative.any fun a => a = Text.lower t.trimBlank))
  | bool _, v => .ok (.bool v.truthy)
  | int _, .bool b => .ok (.bool b)
  | int _, v => v.toInt.map .int
  | float _, v => v.toFloat.map .float
  | text _, v => if v.isTooLong then .error .integerTooLong else .ok (.text v.toText)

end Value
end MdxSafe
