-- SUMMARY: The progress of a run: documents done, and what was found so far.
import MdxSafe.Value.Number

/-!
# Progress

A bar counts documents towards a total of at least one, and shows three counts beside. It is gone once it
is closed. A long count is shown in three digits and an exponent; it goes through double precision for that,
and one beyond the range of double precision cannot be shown.
-/

namespace MdxSafe.Progress

/-- What a bar counts beside documents. -/
structure Counts where
  changed : Int := 0
  warnings : Int := 0
  errors : Int := 0
  deriving DecidableEq, Repr

/-- A progress bar. -/
structure Bar where
  done : Int := 0
  total : Int
  counts : Counts := {}
  deriving DecidableEq, Repr

/-- A bar towards a total, which has to be within the range of double precision. -/
def Bar.new (total : Int) : Except ConversionError Bar :=
  (Value.int total).toFloat.map fun _ => { total := max total 1 }

/-- A bar some steps further. -/
def Bar.advance (b : Bar) (counts : Counts) (steps : Int) : Bar := { b with done := b.done + steps, counts }

-- ---------------------------------------------------------------------------
-- Counts as text
-- ---------------------------------------------------------------------------

/-- A number of four digits or more in three digits and an exponent, without zeros at the end. -/
def scientific (n : Nat) : Text :=
  let exponent := (Text.ofNat n).length - 1
  let leading := roundRatio n (pow10 (exponent - 2))
  let (leading, exponent) := if leading = 1000 then (100, exponent + 1) else (leading, exponent)
  let digits := Text.trimRight (· = '0') (Text.ofNat leading)
  (match digits with
    | d :: [] => [d]
    | d :: ds => d :: '.' :: ds
    | [] => []) ++ "e+".toList ++ Text.ofNat exponent

/-- A count; in three digits and an exponent if that is shorter. -/
def count (i : Int) : Except ConversionError Text :=
  let plain := Text.ofInt i
  if i.natAbs < 1000 then .ok plain
  else do
    let near ← (← (Value.int i).toFloat).toInt
    let short := (if i < 0 then ['-'] else []) ++ scientific near.natAbs
    return if short.length < plain.length then short else plain

/-- The counts as they are shown. -/
def Counts.shown (c : Counts) : Except ConversionError Text := do
  return "changed=".toList ++ (← count c.changed) ++ ", warnings=".toList ++ (← count c.warnings)
    ++ ", errors=".toList ++ (← count c.errors)

end MdxSafe.Progress
