-- SUMMARY: Delimiter runs: which can open or close, how they pair, and the emphasis they make.
import MdxSafe.Markdown.Token
import MdxSafe.Text.Blank
import MdxSafe.Text.Symbol

/-!
# Delimiter runs

Runs of `*`, `_` and `~~` may open and close emphasis. Whether a run can do either depends on the
characters beside it. Each closer, from the left, takes the nearest opener of its marker that it may
pair with; paired delimiters then turn the text tokens that hold their characters into the tokens that
open and close an element.
-/

namespace MdxSafe

/-- A delimiter: a marker of emphasis, or a double marker of deletion. -/
structure Delimiter where
  marker : Char
  /-- The length of the run it belongs to; zero where the lengths of runs do not matter. -/
  length : Nat
  /-- The index of the text token that holds its characters. -/
  token : Nat
  /-- The index of the delimiter that closes it. -/
  partner : Option Nat := none
  opens : Bool
  closes : Bool
  deriving Repr, Inhabited

namespace Delimiter

-- ---------------------------------------------------------------------------
-- Flanking
-- ---------------------------------------------------------------------------

/-- A character that separates words for the sake of emphasis. -/
def isSpace (c : Char) : Bool := isMargin c && c.toNat != 0x2028 && c.toNat != 0x2029

/-- Whether a run between two characters can open and can close; a run that may not split words needs
a word boundary. -/
def flanking (splitsWords : Bool) (before after : Char) : Bool × Bool :=
  let left := !(isSpace after || (isSymbol after && !(isSpace before || isSymbol before)))
  let right := !(isSpace before || (isSymbol before && !(isSpace after || isSymbol after)))
  (left && (splitsWords || !right || isSymbol before), right && (splitsWords || !left || isSymbol after))

-- ---------------------------------------------------------------------------
-- Pairing
-- ---------------------------------------------------------------------------

/-- What pairing remembers: delimiters, how far to jump back from each, and below which index a closer
of some shape has no opener. -/
structure Pairing where
  delimiters : Array Delimiter
  jumps : Array Nat
  bottoms : List ((Char × Bool × Nat) × Int)
  /-- The first delimiter of the current run. -/
  header : Nat
  /-- The token of the delimiter before, if it may belong to the same run. -/
  lastToken : Option Nat

/-- Whether the lengths of two runs that open or close both ways forbid a pair. -/
def clash (opener closer : Delimiter) : Bool :=
  (opener.closes || closer.opens) && (opener.length + closer.length) % 3 == 0
    && (opener.length % 3 != 0 || closer.length % 3 != 0)

/-- The index of the opener for a closer, sought from an index down to above `bottom`. -/
def findOpener (ds : Array Delimiter) (jumps : Array Nat) (closer : Delimiter) (bottom : Int) :
    Nat → Int → Option Nat
  | 0, _ => none
  | fuel + 1, i =>
    if i ≤ bottom || i < 0 then none
    else
      let opener := ds[i.toNat]!
      if opener.marker = closer.marker && opener.opens && opener.partner.isNone
          && !clash opener closer then
        some i.toNat
      else findOpener ds jumps closer bottom fuel (i - jumps[i.toNat]! - 1)

/-- Read the delimiter at an index as a possible closer. -/
def pairAt (p : Pairing) (i : Nat) : Pairing :=
  let closer := p.delimiters[i]!
  let jumps := p.jumps.push 0
  let sameRun :=
    p.delimiters[p.header]!.marker = closer.marker && p.lastToken == some (closer.token - 1)
      && closer.token != 0
  let header := if sameRun then p.header else i
  let p := { p with jumps, header, lastToken := some closer.token }
  if !closer.closes then p
  else
    let shape := (closer.marker, closer.opens, closer.length % 3)
    let bottom := ((p.bottoms.find? fun b => b.1 = shape).map Prod.snd).getD (-1)
    let start : Int := (header : Int) - jumps[header]! - 1
    match findOpener p.delimiters jumps closer bottom (p.delimiters.size + 1) start with
    | some o =>
      let opener := p.delimiters[o]!
      let back := if 0 < o && !p.delimiters[o - 1]!.opens then jumps[o - 1]! + 1 else 0
      { p with
        delimiters := (p.delimiters.set! i { closer with opens := false }).set! o
          { opener with partner := some i, closes := false }
        jumps := (jumps.set! i (i - o + back)).set! o back
        lastToken := none }
    | none => { p with bottoms := (shape, start) :: p.bottoms }

/-- The delimiters with their partners. -/
def pair (ds : Array Delimiter) : Array Delimiter :=
  ((List.range ds.size).foldl pairAt ⟨ds, #[], [], 0, none⟩).delimiters

-- ---------------------------------------------------------------------------
-- Tokens of pairs
-- ---------------------------------------------------------------------------

/-- Turn a text token into one that opens or closes an element. -/
def mark (tokens : Array Token) (i : Nat) (t : Token) : Array Token := tokens.set! i t

/-- Turn the tokens of a paired double tilde into a deletion. -/
def strikePair (ds : Array Delimiter) (tokens : Array Token) (d : Delimiter) : Array Token :=
  match d.partner with
  | some j =>
    if d.marker = '~' then
      mark (mark tokens d.token (.opening .strikeOpen "~~")) ds[j]!.token (.closing .strikeClose "~~")
    else tokens
  | none => tokens

/-- The token before the closer of a deletion, if it is a lone tilde. -/
def loneTilde? (ds : Array Delimiter) (tokens : Array Token) (d : Delimiter) : Option Nat :=
  match d.partner with
  | some j =>
    let i := ds[j]!.token - 1
    let t := tokens[i]!
    if d.marker = '~' && t.kind = .text && t.content = ['~'] then some i else none
  | none => none

/-- The index of the last closer in the row of closers that follows an index. -/
def lastStrikeClose (tokens : Array Token) : Nat → Nat → Nat
  | 0, i => i
  | fuel + 1, i =>
    match tokens[i + 1]? with
    | some t => if t.kind = .strikeClose then lastStrikeClose tokens fuel (i + 1) else i
    | none => i

/-- Move a lone tilde behind the closers that follow it. -/
def moveTilde (tokens : Array Token) (i : Nat) : Array Token :=
  tokens.swapIfInBounds i (lastStrikeClose tokens tokens.size i)

/-- Turn paired double tildes into deletions. -/
def strike (ds : Array Delimiter) (tokens : Array Token) : Array Token :=
  let step (r : Array Token × List Nat) (d : Delimiter) : Array Token × List Nat :=
    let tokens := strikePair ds r.1 d
    (tokens, match loneTilde? ds tokens d with
      | some i => i :: r.2
      | none => r.2)
  let r := ds.foldl step (tokens, [])
  r.2.foldl moveTilde r.1

/-- Whether the pair of delimiter `i`, which ends at `j`, stands directly inside another pair of the
same marker. -/
def isDoubled (ds : Array Delimiter) (i j : Nat) : Bool :=
  0 < i &&
    let d := ds[i]!
    let o := ds[i - 1]!
    o.partner == some (j + 1) && o.marker = d.marker && o.token + 1 == d.token
      && ds[j + 1]!.token == ds[j]!.token + 1

/-- Turn paired markers into emphasis, from the last delimiter of the first `n` to the first. -/
def emphasizeFrom (ds : Array Delimiter) : Nat → Array Token → Array Token
  | 0, tokens => tokens
  | i + 1, tokens =>
    let d := ds[i]!
    match (if d.marker = '*' || d.marker = '_' then d.partner else none) with
    | none => emphasizeFrom ds i tokens
    | some j =>
      let e := ds[j]!
      if isDoubled ds i j then
        let m := [d.marker, d.marker]
        let tokens := mark (mark tokens d.token (.opening .strongOpen m)) e.token (.closing .strongClose m)
        let tokens := mark (mark tokens ds[i - 1]!.token (.literal [])) ds[j + 1]!.token (.literal [])
        match i with
        | 0 => tokens
        | i + 1 => emphasizeFrom ds i tokens
      else
        let m := [d.marker]
        emphasizeFrom ds i (mark (mark tokens d.token (.opening .emOpen m)) e.token (.closing .emClose m))

/-- Turn paired markers into emphasis. -/
def emphasize (ds : Array Delimiter) (tokens : Array Token) : Array Token :=
  emphasizeFrom ds ds.size tokens

/-- Neighbouring text tokens as one. -/
def joinTexts : List Token → List Token
  | [] => []
  | t :: ts =>
    match joinTexts ts with
    | [] => [t]
    | u :: us =>
      if t.kind = .text && u.kind = .text then { u with content := t.content ++ u.content } :: us
      else t :: u :: us

/-- The tokens of running text with every pair of its delimiters turned into an element. -/
def apply (ds : Array Delimiter) (tokens : Array Token) : List Token :=
  let ds := pair ds
  joinTexts (emphasize ds (strike ds tokens)).toList

end Delimiter
end MdxSafe
