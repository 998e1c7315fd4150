-- SUMMARY: Reference definitions read from lines.
import MdxSafe.Markdown.Link

/-!
# Reading reference definitions

A definition starts a line and may go on over the lines that would continue a paragraph. They are asked
for one by one, at the point where the characters at hand are used up: a label and a title may go on
over a line end, a destination may not. A gap or a line end separates the title from the destination. A
title that is followed by anything but blanks is no title; the definition then ends before it.
-/

namespace MdxSafe.Definition

/-- Characters at hand, and how many lines were asked for. -/
structure Cursor where
  rest : Text
  used : Nat

/-- The lines that may be asked for. -/
abbrev More := Nat → Option Text

/-- How the search for the end of a label ends on a line. -/
inductive LabelScan where
  | closed (label rest : Text)
  /-- The line ends inside the label. -/
  | running (label : Text)
  | broken

/-- A label that goes on with the characters `done`. -/
def LabelScan.push (done : Text) : LabelScan → LabelScan
  | closed t rest => closed (done ++ t) rest
  | running t => running (done ++ t)
  | broken => broken

/-- The characters of a label on one line. -/
def scanLabel : Text → LabelScan
  | [] => .running []
  | ']' :: t => .closed [] t
  | '[' :: _ => .broken
  | '\\' :: d :: t => (scanLabel t).push ['\\', d]
  | c :: t => (scanLabel t).push [c]

/-- Whether another line may follow the characters at hand. -/
def endsLine (t : Text) : Bool := t.getLast? = some '\n'

/-- The label, read on over line ends. -/
def takeLabel (more : More) : Nat → Text → Cursor → Option (Text × Cursor)
  | 0, _, _ => none
  | fuel + 1, done, c =>
    match scanLabel c.rest with
    | .broken => none
    | .closed label rest => some (done ++ label, { c with rest })
    | .running label =>
      match (if endsLine c.rest then more c.used else none) with
      | some line => takeLabel more fuel (done ++ label) ⟨line, c.used + 1⟩
      | none => none

/-- The cursor after blanks, over line ends as long as there are lines. -/
def skipGap (more : More) : Nat → Cursor → Cursor
  | 0, c => c
  | fuel + 1, c =>
    match c.rest.dropWhile isIndent with
    | '\n' :: _ =>
      match more c.used with
      | some line => skipGap more fuel ⟨line, c.used + 1⟩
      | none => { c with rest := [] }
    | rest => { c with rest }

/-- The rest of a title, read on over line ends. -/
def takeTitleRest (more : More) (stop : Char) : Nat → Text → Cursor → Option (Text × Cursor)
  | 0, _, _ => none
  | fuel + 1, done, c =>
    match Link.scanTitle stop c.rest with
    | .broken => none
    | .closed t rest => some (Entity.resolve (done ++ t), { c with rest })
    | .running t =>
      match more c.used with
      | some line => takeTitleRest more stop fuel (done ++ t) ⟨line, c.used + 1⟩
      | none => none

/-- A title, read on over line ends. -/
def takeTitle (more : More) (fuel : Nat) (c : Cursor) : Option (Text × Cursor) :=
  match c.rest with
  | [] => none
  | a :: t =>
    match Link.titleEnd? a with
    | none => none
    | some stop => takeTitleRest more stop fuel [] { c with rest := t }

/-- Whether nothing but blanks is left on the line. -/
def atLineEnd (t : Text) : Bool :=
  match t.dropWhile isIndent with
  | [] => true
  | c :: _ => c = '\n'

/-- The definition that starts with the characters of a line, its line end included, and the count of
further lines that it takes. -/
def read? (more : More) (fuel : Nat) (line : Text) : Option (Reference × Nat) :=
  match line with
  | '[' :: t => do
    let (label, c) ← takeLabel more fuel [] ⟨t, 0⟩
    let rest ← Text.after? [':'] c.rest
    let c := skipGap more fuel { c with rest }
    let (dest, rest) ← Link.takeDestination c.rest
    let href := Url.normalize dest
    if !Url.isSafe href then none
    let afterDest : Cursor := { c with rest }
    let gap := skipGap more fuel afterDest
    let label := Reference.normalizeLabel label
    let done (title : Text) (c : Cursor) : Option (Reference × Nat) :=
      if atLineEnd c.rest && label ≠ [] then some (⟨label, ⟨href, title⟩⟩, c.used) else none
    match takeTitle more fuel gap with
    | some (title, c) =>
      let separated := gap.rest.length ≠ rest.length || c.used ≠ afterDest.used
      if !separated then done [] afterDest
      else if atLineEnd c.rest then done title c
      else if title = [] then none
      else done [] afterDest
    | none => done [] afterDest
  | _ => none

end MdxSafe.Definition
