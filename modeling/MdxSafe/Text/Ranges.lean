-- SUMMARY: Sets of code points given by ranges.

/-!
# Ranges of code points

A character property of the Unicode standard is a list of closed ranges in increasing order.
-/

namespace MdxSafe

/-- A set of code points: closed ranges, in increasing order. -/
abbrev Ranges := List (Nat × Nat)

/-- Whether some range holds the code point. -/
def Ranges.mem (rs : Ranges) (c : Char) : Bool :=
  rs.any fun r => r.1 ≤ c.toNat && c.toNat ≤ r.2

end MdxSafe
