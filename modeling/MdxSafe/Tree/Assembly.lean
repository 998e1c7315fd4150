-- SUMMARY: Building a tree from Markdown tokens.
import MdxSafe.Markdown.Token
import MdxSafe.Text.Digit
import MdxSafe.Tree.Node
import MdxSafe.Value.Number

/-!
# Assembling a tree from tokens

The tokens of a stream are read one by one with the elements still open kept as frames. An opening
token opens a frame, a closing token files the innermost frame into the one around it, and any
other token is filed as a leaf. The outermost frame is the container that receives the nodes: a
closing token with nothing left to close is ignored, and what is still open at the end of the stream
is filed as it stands.

The tokens inside an `inline` or `image` token form a stream of their own: whatever they leave open
ends with them, and they close nothing outside.
-/

namespace MdxSafe

-- ---------------------------------------------------------------------------
-- Nodes for single tokens
-- ---------------------------------------------------------------------------

/-- The kind of node that an opening token opens. -/
def TokenKind.container : TokenKind → Kind
  | paragraphOpen => .paragraph
  | headingOpen => .heading
  | blockquoteOpen => .blockquote
  | bulletListOpen | orderedListOpen => .list
  | listItemOpen => .listItem
  | tableOpen => .table
  | trOpen => .tableRow
  | thOpen | tdOpen => .tableCell
  | emOpen => .emphasis
  | strongOpen => .strong
  | strikeOpen => .delete
  | linkOpen => .link
  | _ => .raw

/-- Tokens around the sections of a table: no node stands for them. -/
def TokenKind.isTableSection : TokenKind → Bool
  | theadOpen | theadClose | tbodyOpen | tbodyClose => true
  | _ => false

namespace Token

/-- An attribute as text, empty if it is missing or counts as false. -/
def attrText (t : Token) (key : Text) : Text :=
  let v := t.attrs.get key
  if v.truthy then v.toText else []

/-- An attribute as text, if it is there and counts as true. -/
def attrText? (t : Token) (key : Text) : Option Text :=
  let v := t.attrs.get key
  if v.truthy then some v.toText else none

/-- The level of a heading tag such as `h2`; one if the tag has no number. -/
def headingLevel (t : Token) : Except ConversionError Int :=
  let digits := t.tag.drop 1
  if digits ≠ [] ∧ digits.all isDigitChar then (Value.text digits).toInt else .ok 1

/-- The first number of an ordered list; one if it is missing or zero. -/
def firstNumber (t : Token) : Except ConversionError Int :=
  let v := t.attrs.get "start"
  if v.truthy then v.toInt else .ok 1

/-- The alignment that the style of a table cell gives. -/
def alignment (t : Token) : Value :=
  match Text.after? "text-align:" (t.attrText "style") with
  | some a =>
    let a := Text.trimBlank a
    if a = [] then .null else .text a
  | none => .null

/-- The node that an opening token opens, without children. -/
def openedNode (inHead : Bool) (t : Token) : Except ConversionError Node :=
  let node : Node := { kind := t.kind.container, markup := t.markup, info := t.info }
  match node.kind with
  | .paragraph => .ok { node with attrs := [("hidden".toList, .bool t.hidden)] }
  | .heading => do
    let level ← t.headingLevel
    return { node with attrs := [("level".toList, .int level)] }
  | .list =>
    if t.kind = .orderedListOpen then do
      let first ← t.firstNumber
      return { node with attrs := [("ordered".toList, .bool true), ("start".toList, .int first)] }
    else .ok { node with attrs := [("ordered".toList, .bool false)] }
  | .tableRow => .ok { node with attrs := [("header".toList, .bool inHead)] }
  | .tableCell => .ok { node with attrs := [("align".toList, t.alignment)] }
  | .link =>
    let href := t.attrText "href"
    .ok { node with
      url := some href, title := t.attrText? "title", attrs := [("source_url".toList, .text href)] }
  | .raw => .ok { node with attrs := [("token".toList, .text t.kind.name)] }
  | _ => .ok node

/-- The node of a token that stands alone; an image still without its description. -/
def leafNode (t : Token) : Node :=
  let orElse (x y : Text) : Text := if x = [] then y else x
  match t.kind with
  | .text => { kind := .text, value := some t.content }
  | .textSpecial => { kind := .escape, value := some (orElse t.markup t.content), info := t.info }
  | .softBreak => { kind := .softBreak }
  | .hardBreak => { kind := .hardBreak }
  | .codeInline => { kind := .inlineCode, value := some t.content, markup := orElse t.markup ['`'] }
  | .htmlInline => { kind := .html, value := some t.content, attrs := [("block".toList, .bool false)] }
  | .htmlBlock => { kind := .html, value := some t.content, attrs := [("block".toList, .bool true)] }
  | .fence =>
    { kind := .code, value := some t.content, info := t.info, markup := t.markup
      attrs := [("fenced".toList, .bool true)] }
  | .codeBlock => { kind := .code, value := some t.content, attrs := [("fenced".toList, .bool false)] }
  | .hr => { kind := .thematicBreak, markup := t.markup }
  | .frontMatter =>
    { kind := .frontMatter, value := some t.content, markup := orElse t.markup "---" }
  | .image => { kind := .image, url := some (t.attrText "src"), title := t.attrText? "title" }
  | k => { kind := .raw, value := some t.content, attrs := [("token".toList, .text k.name)] }

end Token

-- ---------------------------------------------------------------------------
-- Frames
-- ---------------------------------------------------------------------------

/-- Whether every paragraph directly inside an item of a list is hidden. -/
def Node.hidesParagraphs (list : Node) : Bool :=
  list.children.all fun item => item.children.all fun child =>
    child.kind != .paragraph || (child.attrs.get "hidden").truthy

namespace Assembly

/-- An open element: its node and the children filed so far, in reverse. -/
structure Frame where
  node : Node
  filed : List Node := []

/-- The element with the children filed so far, after those its node already had. -/
def Frame.close (f : Frame) : Node := { f.node with children := f.node.children ++ f.filed.reverse }

/-- File a node as the next child. -/
def Frame.file (f : Frame) (n : Node) : Frame := { f with filed := n :: f.filed }

/-- The element closed by a closing token: a list learns whether it is tight. -/
def Frame.finish (f : Frame) : Node :=
  let n := f.close
  if n.kind = .list then { n with attrs := n.attrs.set "tight" (.bool n.hidesParagraphs) } else n

/-- The open elements, innermost first, and whether the head of a table is being read. -/
structure State where
  top : Frame
  outer : List Frame := []
  inHead : Bool := false

/-- A fresh state that files into the frame. -/
def State.of (f : Frame) : State := { top := f }

/-- File a node into the innermost element. -/
def State.file (s : State) (n : Node) : State := { s with top := s.top.file n }

/-- Open an element. -/
def State.open (s : State) (n : Node) : State := { s with top := { node := n }, outer := s.top :: s.outer }

/-- Close the innermost element, unless only the container is left. -/
def State.close (s : State) : State :=
  match s.outer with
  | [] => s
  | f :: outer => { s with top := f.file s.top.finish, outer }

/-- File elements that no token closed. -/
def collapse (top : Frame) : List Frame → Frame
  | [] => top
  | f :: outer => collapse (f.file top.close) outer

/-- The container with everything filed. -/
def State.container (s : State) : Frame := collapse s.top s.outer

mutual
/-- Read one token. -/
def step (s : State) : Token → Except ConversionError State
  | ⟨kind, nesting, tag, attrs, content, markup, info, hidden, children⟩ =>
    let t : Token := ⟨kind, nesting, tag, attrs, content, markup, info, hidden, []⟩
    if kind.isTableSection then .ok { s with inHead := kind = .theadOpen }
    else match nesting with
      | .opens => do return s.open (← t.openedNode s.inHead)
      | .closes => .ok s.close
      | .stands =>
        match kind with
        | .inline => do return { s with top := (← steps (.of s.top) children).container }
        | .image => do return s.file (← steps (.of { node := t.leafNode }) children).container.close
        | _ => .ok (s.file t.leafNode)
termination_by structural t => t

/-- Read tokens in order. -/
def steps (s : State) : List Token → Except ConversionError State
  | [] => .ok s
  | t :: ts => do steps (← step s t) ts
termination_by structural ts => ts
end

end Assembly

/-- The container with the nodes of a token stream filed after its own children. -/
def Node.assemble (container : Node) (tokens : List Token) : Except ConversionError Node := do
  return (← Assembly.steps (.of { node := container }) tokens).container.close

end MdxSafe
