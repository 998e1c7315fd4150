-- SUMMARY: Running text written back to Markdown.
import MdxSafe.Text.Blank
import MdxSafe.Tree.Node

/-!
# Layout of running text

Payloads are written as they are; links, images and code spans get the delimiters that read them back.
Inside a table cell every pipe of a payload is written with a backslash, which the reader of the row
drops again. Inside a heading a line break is a space.
-/

namespace MdxSafe.Layout

/-- Where running text stands. -/
structure Place where
  inCell : Bool := false
  inHeading : Bool := false

/-- A payload with the pipes of a table cell escaped. -/
def Place.escapePipes (p : Place) (t : Text) : Text :=
  if p.inCell then Text.replaceChar '|' "\\|" t else t

-- ---------------------------------------------------------------------------
-- Parts of links
-- ---------------------------------------------------------------------------

/-- Whether parentheses are balanced, with `depth` of them open. -/
def balancedFrom (depth : Nat) : Text → Bool
  | [] => depth = 0
  | c :: t =>
    if c = '(' then balancedFrom (depth + 1) t
    else if c = ')' then
      match depth with
      | 0 => false
      | depth + 1 => balancedFrom depth t
    else balancedFrom depth t

/-- Whether the parentheses of a text are balanced. -/
def balanced (t : Text) : Bool := balancedFrom 0 t

/-- A link destination; in angle brackets if it could not be read bare. -/
def destination (url : Text) : Text :=
  if url = [] ∨ (url.any fun c => isBlank c || c = '<' || c = '>') ∨ !balanced url then
    '<' :: Text.replaceChar '>' "\\>" (Text.replaceChar '<' "\\<" url) ++ ['>']
  else url

/-- A link title with the space before it; nothing if it is empty. -/
def title (t : Text) : Text :=
  if t = [] then [] else " \"".toList ++ Text.replaceChar '"' "\\\"" t ++ ['"']

/-- The target of a link: destination and title. -/
def target (n : Node) : Text := destination n.target ++ title (n.title.getD [])

-- ---------------------------------------------------------------------------
-- Nodes
-- ---------------------------------------------------------------------------

/-- The content of a code span, with a space at both ends if it would be misread without. -/
def paddedCode (t : Text) : Text :=
  match t with
  | [] => []
  | c :: _ =>
    let last := t.getLast?
    if c = '`' || last = some '`' || (c = ' ' && last = some ' ' && t.any fun d => !isBlank d) then
      ' ' :: t ++ [' ']
    else t

/-- A code span. -/
def codeSpan (p : Place) (n : Node) : Text :=
  let ticks := if n.markup = [] then ['`'] else n.markup
  ticks ++ p.escapePipes (paddedCode n.payload) ++ ticks

/-- The marks around emphasis of a kind. -/
def emphasisMark (n : Node) : Text :=
  if n.markup ≠ [] then n.markup
  else match n.kind with
    | .strong => "**"
    | .delete => "~~"
    | _ => ['*']

/-- Whether a link is an autolink whose target is still the one it was read with. -/
def isAutolink (n : Node) : Bool :=
  n.markup = "autolink".toList && match n.attrs.get "source_url" with
    | .text u => u = n.target
    | _ => false

/-- A link around its text. An autolink to a mail address shows no scheme if its text has none. -/
def link (p : Place) (n : Node) (text : Text) : Text :=
  let url := n.target
  if isAutolink n then
    match Text.after? "mailto:" url with
    | some mail => '<' :: p.escapePipes (if text = mail then mail else url) ++ ['>']
    | none => '<' :: p.escapePipes url ++ ['>']
  else '[' :: text ++ "](".toList ++ p.escapePipes (target n) ++ [')']

/-- An image around its description. -/
def image (p : Place) (n : Node) (text : Text) : Text :=
  "![".toList ++ text ++ "](".toList ++ p.escapePipes (target n) ++ [')']

mutual
/-- A node of running text. -/
def inline (p : Place) : Node → Text
  | ⟨kind, value, url, title, markup, info, attrs, children⟩ =>
    let n : Node := ⟨kind, value, url, title, markup, info, attrs, []⟩
    match kind with
    | .text | .html => p.escapePipes n.payload
    | .escape => n.payload
    | .softBreak => if p.inHeading then [' '] else ['\n']
    | .hardBreak => if p.inHeading then [' '] else "\\\n"
    | .inlineCode => codeSpan p n
    | .emphasis | .strong | .delete => emphasisMark n ++ inlines p children ++ emphasisMark n
    | .link => link p n (inlines p children)
    | .image => image p n (inlines p children)
    | _ =>
      match value with
      | some v => v
      | none => inlines p children
termination_by structural n => n

/-- Nodes of running text in order. -/
def inlines (p : Place) : List Node → Text
  | [] => []
  | n :: ns => inline p n ++ inlines p ns
termination_by structural ns => ns
end

end MdxSafe.Layout
