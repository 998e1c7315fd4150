-- SUMMARY: Document trees written back to Markdown.
import MdxSafe.Layout.Inline
import MdxSafe.Layout.Options

/-!
# Layout of blocks

Blocks are separated by an empty line, or in a tight list by none; a block that comes out empty is left
out. A quote or a list item is laid out on its own, and its lines are then marked or indented. The
definitions of the document stand at its end, and the text ends with one line end.
-/

namespace MdxSafe.Layout

-- ---------------------------------------------------------------------------
-- Lines of containers
-- ---------------------------------------------------------------------------

/-- The texts that are not empty, with a separator between neighbours. -/
def joinNonempty (sep : Text) (ts : List Text) : Text := Text.join sep (ts.filter (· ≠ []))

/-- The separator of blocks. -/
def separator (tight : Bool) : Text := if tight then ['\n'] else "\n\n"

/-- The text without line ends at its end. -/
def chompAll (t : Text) : Text := Text.trimRight (· = '\n') t

/-- The text of a quote, given its content. -/
def quote (content : Text) : Text :=
  if content = [] then ['>']
  else Text.join ['\n'] ((Text.splitOn '\n' content).map fun l => if l = [] then ['>'] else '>' :: ' ' :: l)

/-- The text of a list item, given its marker and content: later lines are indented as far as the first
one is by the marker and the gap after it. -/
def listItem (opts : Options) (marker content : Text) : Text :=
  if content = [] then marker
  else
    let gap := List.replicate opts.itemIndent ' '
    let indent := List.replicate (marker.length + opts.itemIndent) ' '
    match Text.splitOn '\n' content with
    | [] => marker
    | first :: rest =>
      Text.join ['\n'] ((marker ++ gap ++ first) :: rest.map fun l => if l = [] then [] else indent ++ l)

-- ---------------------------------------------------------------------------
-- Single blocks
-- ---------------------------------------------------------------------------

/-- Whether a heading with this text would lose number signs at its end. -/
def endsInHashRun (t : Text) : Bool :=
  let head := Text.trimRight (· = '#') t
  head.length < t.length && (head.getLast?.all fun c => isIndent c)

/-- The line of a heading, given its level and text. -/
def headingLine (level : Int) (text : Text) : Text :=
  let text := Text.trimBlank text
  let text := if endsInHashRun text then text ++ " #".toList else text
  List.replicate level.toNat '#' ++ (if text = [] then [] else ' ' :: text)

/-- The length of the longest run of a character; `run` is the length of the one at hand. -/
def longestRun (c : Char) (run best : Nat) : Text → Nat
  | [] => max run best
  | d :: t => if d = c then longestRun c (run + 1) best t else longestRun c 0 (max run best) t

/-- Fenced code. The fence is longer than any run of its character in the code; an info text with a
backtick takes a fence of tildes. -/
def fencedCode (opts : Options) (info code : Text) : Text :=
  let code := if code ≠ [] ∧ code.getLast? ≠ some '\n' then code ++ ['\n'] else code
  let mark := if opts.fence = .backticks ∧ '`' ∈ info then '~' else opts.fence.mark
  let fence := List.replicate (max 3 (longestRun mark 0 0 code + 1)) mark
  fence ++ info ++ '\n' :: code ++ fence

/-- Front matter between its markers. -/
def frontMatter (n : Node) : Text :=
  let marker := if n.markup = [] then "---".toList else n.markup
  let content := chompAll n.payload
  marker ++ '\n' :: (if content = [] then marker else content ++ '\n' :: marker)

/-- A reference definition. -/
def definition (n : Node) : Text :=
  let label := ((n.attrs.get? "label").getD (.text [])).toText
  '[' :: label ++ "]: ".toList ++ target n

/-- The marker of the list item with an index. -/
def itemMarker (ordered : Bool) (markup : Text) (start : Int) (index : Nat) (item : Node) : Text :=
  let orElse (x y : Text) : Text := if x = [] then y else x
  if ordered then orElse item.info (Text.ofInt (start + index)) ++ orElse markup ['.']
  else orElse markup ['-']

-- ---------------------------------------------------------------------------
-- Tables
-- ---------------------------------------------------------------------------

/-- A row of cells. -/
def row (cells : List Text) : Text := "| ".toList ++ Text.join " | " cells ++ " |".toList

/-- The row of a node, cell by cell. -/
def tableRow (n : Node) : Text :=
  row (n.children.map fun c => Text.trimBlank (inlines { inCell := true } c.children))

/-- The cell below the head of a column with an alignment. -/
def delimiterCell (align : Value) : Except Error Text :=
  match align with
  | .text a =>
    .ok (if a = "left".toList then ":--" else if a = "right".toList then "--:"
      else if a = "center".toList then ":-:" else "---")
  | .list _ | .object _ => .error (.alignment align.typeName)
  | _ => .ok "---"

/-- A table. Only rows count; the first one is its head. -/
def table (n : Node) : Except Error Text :=
  match n.children.filter fun c => c.kind = .tableRow with
  | [] => .ok []
  | head :: rows => do
    let delimiters ← head.children.mapM fun c => delimiterCell (c.attrs.get "align")
    return Text.join ['\n'] (tableRow head :: row delimiters :: rows.map tableRow)

-- ---------------------------------------------------------------------------
-- Trees
-- ---------------------------------------------------------------------------

/-- The integer that an attribute holds; a default if there is no such attribute. -/
def intAttr (n : Node) (key : Text) (default : Int) : Except Error Int :=
  (((n.attrs.get? key).getD (.int default)).toInt).mapError .number

/-- Whether an attribute counts as true; a default if there is no such attribute. -/
def flagAttr (n : Node) (key : Text) (default : Bool) : Bool :=
  ((n.attrs.get? key).getD (.bool default)).truthy

mutual
/-- A block. -/
def block (opts : Options) : Node → Except Error Text
  | ⟨kind, value, url, title, markup, info, attrs, children⟩ =>
    let n : Node := ⟨kind, value, url, title, markup, info, attrs, children⟩
    match kind with
    | .paragraph => .ok (inlines {} children)
    | .heading => do
      let level ← intAttr n "level" 1
      return headingLine level (inlines { inHeading := true } children)
    | .blockquote => do
      return quote (joinNonempty (separator false) (← blocks opts children))
    | .list => do
      let tight := flagAttr n "tight" true
      let start ← intAttr n "start" 1
      let marker := itemMarker (flagAttr n "ordered" false) markup start
      return Text.join (separator tight) (← items opts tight marker 0 children)
    | .code => .ok (fencedCode opts info n.payload)
    | .html => .ok (chompAll n.payload)
    | .thematicBreak => .ok opts.thematicBreak
    | .table => table n
    | .frontMatter => .ok (frontMatter n)
    | .definition => .ok (definition n)
    | _ =>
      match value with
      | some v => .ok (chompAll v)
      | none => do return joinNonempty (separator false) (← blocks opts children)
termination_by structural n => n

/-- Blocks, each on its own. -/
def blocks (opts : Options) : List Node → Except Error (List Text)
  | [] => .ok []
  | n :: ns => do
    let t ← block opts n
    return t :: (← blocks opts ns)
termination_by structural ns => ns

/-- The items of a list from an index on; `marker` gives the marker of each. -/
def items (opts : Options) (tight : Bool) (marker : Nat → Node → Text) (index : Nat) :
    List Node → Except Error (List Text)
  | [] => .ok []
  | n :: ns => do
    let t ← item opts tight (marker index) n
    return t :: (← items opts tight marker (index + 1) ns)
termination_by structural ns => ns

/-- A list item. -/
def item (opts : Options) (tight : Bool) (marker : Node → Text) : Node → Except Error Text
  | ⟨kind, value, url, title, markup, info, attrs, children⟩ => do
    let n : Node := ⟨kind, value, url, title, markup, info, attrs, []⟩
    return listItem opts (marker n) (joinNonempty (separator tight) (← blocks opts children))
termination_by structural n => n
end

/-- Whether a node is a reference definition. -/
def isDefinition (n : Node) : Bool := n.kind = .definition

/-- The text of a document. -/
def render (opts : Options) (root : Node) : Except Error Text := do
  let body ← blocks opts (root.children.filter fun n => !isDefinition n)
  let definitions := Text.join ['\n'] ((root.children.filter isDefinition).map definition)
  let out := joinNonempty (separator false) [joinNonempty (separator false) body, definitions]
  return if out = [] then [] else out ++ ['\n']

end MdxSafe.Layout
