-- SUMMARY: The text of a dynamic value.
import MdxSafe.Binary64.Decimal
import MdxSafe.Text.Quoted
import MdxSafe.Value.Basic

/-!
# Text of a value

`Value.literal` writes a value so that its type shows: texts in quotes, lists in brackets, objects in
braces, fields in their order. `Value.toText` differs only for a text, which stands for itself.
-/

namespace MdxSafe.Value

mutual
/-- The value as a literal. -/
def literal : Value → Text
  | null => "None"
  | bool b => if b then "True" else "False"
  | int i => Text.ofInt i
  | float x => x.toText
  | text t => Text.quoted t
  | list xs => '[' :: Text.join ", " (literals xs) ++ [']']
  | object fs => '\x7b' :: Text.join ", " (fieldLiterals fs) ++ ['\x7d']

/-- The items of a list as literals. -/
def literals : List Value → List Text
  | [] => []
  | x :: xs => literal x :: literals xs

/-- The fields of an object as literals. -/
def fieldLiterals : List (Text × Value) → List Text
  | [] => []
  | (k, v) :: fs => (Text.quoted k ++ ": ".toList ++ literal v) :: fieldLiterals fs
end

/-- The value as it stands in running text. -/
def toText : Value → Text
  | text t => t
  | v => literal v

end MdxSafe.Value
