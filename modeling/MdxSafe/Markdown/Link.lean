-- SUMMARY: The parts of a link: destination, title, label, and reference definitions.
import MdxSafe.Markdown.Entity
import MdxSafe.Text.Blank
import MdxSafe.Text.Case
import MdxSafe.Url.Link

/-!
# Links

A destination stands in angle brackets, or is a run of visible characters in which parentheses are
balanced. A title stands in quotes or parentheses. A label is compared after trimming, with every margin
inside as one space, without regard to case. Each reader takes its part from the start of a text and
gives back the rest.
-/

namespace MdxSafe

/-- The target of a link: destination and title, the title empty if there is none. -/
structure LinkTarget where
  href : Text
  title : Text := []
  deriving Repr, Inhabited, DecidableEq

/-- A reference definition. -/
structure Reference where
  label : Text
  target : LinkTarget
  deriving Repr, Inhabited, DecidableEq

namespace Reference

/-- The label that stands for all labels equal to it. -/
def normalizeLabel (t : Text) : Text :=
  Text.upper (Text.lower (Text.join " " (Text.words isMargin t)))

/-- The definition of a normalized label. -/
def find? (refs : List Reference) (label : Text) : Option Reference :=
  refs.find? fun r => r.label = label

/-- The definitions with one more, unless its label is defined already. -/
def add (refs : List Reference) (r : Reference) : List Reference :=
  if (find? refs r.label).isSome then refs else refs ++ [r]

end Reference

namespace Link

-- ---------------------------------------------------------------------------
-- Destination and title
-- ---------------------------------------------------------------------------

/-- A destination up to its closing angle bracket: the characters inside and the rest. -/
def takeAngled : Text → Option (Text × Text)
  | [] => none
  | '>' :: t => some ([], t)
  | '<' :: _ => none
  | '\n' :: _ => none
  | '\\' :: d :: t => (takeAngled t).map fun r => ('\\' :: d :: r.1, r.2)
  | c :: t => (takeAngled t).map fun r => (c :: r.1, r.2)

/-- A bare destination with `depth` open parentheses, of which there may be 32. -/
def takeBare (depth : Nat) : Text → Option (Text × Text)
  | [] => if depth = 0 then some ([], []) else none
  | '\\' :: ' ' :: t => if depth = 0 then some ([], '\\' :: ' ' :: t) else none
  | '\\' :: d :: t => (takeBare depth t).map fun r => ('\\' :: d :: r.1, r.2)
  | c :: t =>
    if c.toNat ≤ 0x20 || c.toNat == 0x7F then
      if depth = 0 then some ([], c :: t) else none
    else if c = '(' then
      if depth < 32 then (takeBare (depth + 1) t).map fun r => (c :: r.1, r.2) else none
    else if c = ')' then
      if depth = 0 then some ([], c :: t) else (takeBare (depth - 1) t).map fun r => (c :: r.1, r.2)
    else (takeBare depth t).map fun r => (c :: r.1, r.2)

/-- The destination at the start of a text, with escapes resolved, and the rest. -/
def takeDestination (t : Text) : Option (Text × Text) :=
  match t with
  | '<' :: t => (takeAngled t).map fun r => (Entity.resolve r.1, r.2)
  | t =>
    match takeBare 0 t with
    | some ([], _) => none
    | r => r.map fun r => (Entity.resolve r.1, r.2)

/-- The character that closes a title opened by `c`. -/
def titleEnd? (c : Char) : Option Char :=
  if c = '"' ∨ c = '\'' then some c else if c = '(' then some ')' else none

/-- How the search for the end of a title ends on a piece of text. -/
inductive TitleScan where
  /-- The title ends: its last characters and the rest. -/
  | closed (title rest : Text)
  /-- The text ends inside the title. -/
  | running (title : Text)
  | broken

/-- A title that goes on with the characters `done`. -/
def TitleScan.push (done : Text) : TitleScan → TitleScan
  | closed t rest => closed (done ++ t) rest
  | running t => running (done ++ t)
  | broken => broken

/-- The characters of a title up to the character that ends it. -/
def scanTitle (stop : Char) : Text → TitleScan
  | [] => .running []
  | c :: t =>
    if c = stop then .closed [] t
    else if c = '(' ∧ stop = ')' then .broken
    else
      match c, t with
      | '\\', d :: t => (scanTitle stop t).push ['\\', d]
      | c, t => (scanTitle stop t).push [c]

/-- The title at the start of a text, with escapes resolved, and the rest. -/
def takeTitle : Text → Option (Text × Text)
  | [] => none
  | c :: t =>
    match titleEnd? c with
    | none => none
    | some stop =>
      match scanTitle stop t with
      | .closed title rest => some (Entity.resolve title, rest)
      | _ => none

/-- A character skipped between the parts of a link: a blank of a line, or a line end. -/
def isGap (c : Char) : Bool := isIndent c || c = '\n'

/-- The target of an inline link after its opening parenthesis, and the rest, which starts with the
closing parenthesis if the link is well formed. There is none if nothing but gaps is left. -/
def takeInlineTarget? (t : Text) : Option (LinkTarget × Text) :=
  match t.dropWhile isGap with
  | [] => none
  | t => some <|
    match takeDestination t with
    | none => (⟨[], []⟩, t)
    | some (dest, rest) =>
      let href := Url.normalize dest
      if !Url.isSafe href then (⟨[], []⟩, t)
      else
        let gap := rest.dropWhile isGap
        match (if gap.length = rest.length then none else takeTitle gap) with
        | some (title, rest) => (⟨href, title⟩, rest.dropWhile isGap)
        | none => (⟨href, []⟩, gap)

end Link
end MdxSafe
