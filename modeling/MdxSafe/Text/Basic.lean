-- SUMMARY: Texts as lists of code points: leading parts, search, replacement, splitting, trimming, numerals.

/-!
# Texts

A text is the list of its code points. Every length, cut, search and comparison in this library is
by code point, so the list is the text itself and not a view of it.
-/

namespace MdxSafe

/-- A text: its code points in order. -/
abbrev Text := List Char

instance : Coe String Text := ⟨String.toList⟩

namespace Text

-- ---------------------------------------------------------------------------
-- Leading and trailing parts
-- ---------------------------------------------------------------------------

/-- What follows `lead`, if the text starts with it. -/
def after? (lead : Text) (t : Text) : Option Text :=
  match lead, t with
  | [], t => some t
  | _ :: _, [] => none
  | a :: lead, b :: t => if a = b then after? lead t else none

/-- Whether the text starts with `lead`. -/
def startsWith (t lead : Text) : Bool := (after? lead t).isSome

/-- Whether the text ends with `tail`. -/
def endsWith (t tail : Text) : Bool := startsWith t.reverse tail.reverse

/-- The text without the longest leading part made of characters in the class. -/
def trimLeft (p : Char → Bool) (t : Text) : Text := t.dropWhile p

/-- The text without the longest trailing part made of characters in the class. -/
def trimRight (p : Char → Bool) (t : Text) : Text := (t.reverse.dropWhile p).reverse

/-- The text without leading and trailing characters of the class. -/
def trim (p : Char → Bool) (t : Text) : Text := trimRight p (trimLeft p t)

/-- The longest leading part, of at most `n` characters, made of characters of the class. -/
def takeWhileUpTo (p : Char → Bool) : Nat → Text → Text
  | 0, _ => []
  | _, [] => []
  | n + 1, c :: t => if p c then c :: takeWhileUpTo p n t else []

-- ---------------------------------------------------------------------------
-- Search
-- ---------------------------------------------------------------------------

/-- What stands before and after the first occurrence of `pat`. -/
def cut? (pat : Text) : Text → Option (Text × Text)
  | [] => if pat = [] then some ([], []) else none
  | c :: t =>
    match after? pat (c :: t) with
    | some rest => some ([], rest)
    | none => (cut? pat t).map fun r => (c :: r.1, r.2)

/-- The offset of the first occurrence of `pat`. -/
def find? (pat t : Text) : Option Nat := (cut? pat t).map fun r => r.1.length

/-- Whether `pat` occurs in the text. -/
def contains (t pat : Text) : Bool := (cut? pat t).isSome

/-- Every occurrence of `pat`, read from the left without overlap, replaced; `skip` characters of
the last occurrence are still to be passed over. -/
def replaceFrom (pat new : Text) : Nat → Text → Text
  | _, [] => []
  | skip + 1, _ :: t => replaceFrom pat new skip t
  | 0, c :: t =>
    if startsWith (c :: t) pat then new ++ replaceFrom pat new (pat.length - 1) t
    else c :: replaceFrom pat new 0 t

/-- Every occurrence of the non-empty `pat`, read from the left without overlap, replaced. -/
def replace (pat new t : Text) : Text := replaceFrom pat new 0 t

/-- Every occurrence of one character replaced. -/
def replaceChar (c : Char) (new t : Text) : Text := t.flatMap fun d => if d = c then new else [d]

-- ---------------------------------------------------------------------------
-- Splitting and joining
-- ---------------------------------------------------------------------------

/-- The pieces between the occurrences of a separator character: always one more than those. -/
def splitOn (sep : Char) : Text → List Text
  | [] => [[]]
  | c :: t =>
    if c = sep then [] :: splitOn sep t
    else match splitOn sep t with
      | [] => [[c]]
      | p :: ps => (c :: p) :: ps

/-- The texts with a separator between neighbours. -/
def join (sep : Text) (ts : List Text) : Text := List.intercalate sep ts

/-- The non-empty pieces between characters of a class. -/
def words (p : Char → Bool) (t : Text) : List Text :=
  let step (c : Char) (r : Text × List Text) : Text × List Text :=
    if p c then ([], if r.1 = [] then r.2 else r.1 :: r.2) else (c :: r.1, r.2)
  let r := t.foldr step ([], [])
  if r.1 = [] then r.2 else r.1 :: r.2

-- ---------------------------------------------------------------------------
-- Numerals
-- ---------------------------------------------------------------------------

/-- A natural number in decimal. -/
def ofNat (n : Nat) : Text := Nat.toDigits 10 n

/-- An integer in decimal, with a minus sign if it is negative. -/
def ofInt (i : Int) : Text := if i < 0 then '-' :: ofNat i.natAbs else ofNat i.natAbs

/-- The number that a run of ASCII digits writes, continuing `n`. -/
def natOfDigits (n : Nat) : Text → Nat
  | [] => n
  | c :: t => natOfDigits (10 * n + (c.toNat - '0'.toNat)) t

/-- The greatest count of digits with which an integer is read or written. -/
def maxDigits : Nat := 4300

/-- A natural number in decimal, padded with zeros on the left to a width. -/
def ofNatPadded (width n : Nat) : Text :=
  let ds := ofNat n
  List.replicate (width - ds.length) '0' ++ ds

-- ---------------------------------------------------------------------------
-- Order
-- ---------------------------------------------------------------------------

/-- Comparison by code point, a leading part before the whole. -/
def compare : Text → Text → Ordering
  | [], [] => .eq
  | [], _ :: _ => .lt
  | _ :: _, [] => .gt
  | a :: s, b :: t => if a.toNat < b.toNat then .lt else if b.toNat < a.toNat then .gt else compare s t

/-- Whether one text comes no later than another. -/
def le (s t : Text) : Bool := compare s t != .gt

end Text
end MdxSafe
