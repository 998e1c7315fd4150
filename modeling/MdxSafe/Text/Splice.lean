-- SUMMARY: Positions in a text and insertion at a position.
import MdxSafe.Text.Basic

/-!
# Splices

A splice inserts a text at a position that a search found. Positions are counted from the start.
-/

namespace MdxSafe.Text

/-- The position of the first occurrence of `pat` at or after a position. -/
def findFrom? (pat : Text) (start : Nat) (t : Text) : Option Nat := (find? pat (t.drop start)).map fun i => start + i

/-- The position of the last occurrence of `pat` that ends at or before a position. -/
def findLast? (pat : Text) (stop : Nat) (t : Text) : Option Nat :=
  let lead := t.take stop
  (find? pat.reverse lead.reverse).map fun i => lead.length - i - pat.length

/-- The text with another one inserted at a position. -/
def insertAt (t : Text) (i : Nat) (new : Text) : Text := t.take i ++ new ++ t.drop i

end MdxSafe.Text
