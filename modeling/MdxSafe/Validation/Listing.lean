-- SUMMARY: Problems with data, listed for a reader.
import MdxSafe.Text.Utf8
import MdxSafe.Validation.Basic

/-!
# Listing problems

A listing starts with the number of problems. Each problem then has a line for its place and a line for the
broken rule, with the value that broke it; of a long value only both ends are shown.
-/

namespace MdxSafe

/-- The longest start of a text that fits into a number of bytes. -/
def Utf8.fitting : Nat → Text → Text
  | _, [] => []
  | n, c :: t => if c.utf8Size ≤ n then c :: fitting (n - c.utf8Size) t else []

/-- How many bytes a text has. -/
def Utf8.size (t : Text) : Nat := (encode t).length

namespace Problem

/-- A value as a listing shows it: its literal, or both ends of one of more than 50 bytes. -/
def excerpt (v : Value) : Text :=
  let t := v.literal
  if Utf8.size t ≤ 50 then t
  else Utf8.fitting 25 t ++ "...".toList ++ (Utf8.fitting 24 t.reverse).reverse

/-- The lines about a problem. -/
def lines (p : Problem) : Text :=
  '\n' :: p.location ++ "\n  ".toList ++ p.fault.message ++ " [type=".toList ++ p.fault.name.toList
    ++ ", input_value=".toList ++ excerpt p.input ++ ", input_type=".toList ++ p.input.typeName.toList ++ [']']

/-- The problems with the data of a record, as they are listed. -/
def listing (record : String) (ps : List Problem) : Text :=
  Text.ofNat ps.length ++ (if ps.length = 1 then " validation error for " else " validation errors for ").toList
    ++ record.toList ++ ps.flatMap lines

end Problem
end MdxSafe
