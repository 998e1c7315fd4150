-- SUMMARY: The document tree: kinds of nodes, nodes, and the attribute values they carry.
import MdxSafe.Value.Basic

/-!
# Document trees

A document is a tree of nodes of a fixed set of kinds. Which of a node's fields carry meaning
depends on its kind: `value` is the payload of texts, HTML, code and escapes; `url` and `title`
belong to links, images and definitions; `markup` and `info` keep the characters that marked the
node in its source; `attrs` holds the rest (heading level, list tightness, alignment, …).
-/

namespace MdxSafe

/-- The kind of a node. -/
inductive Kind where
  | root | frontMatter | paragraph | heading | blockquote | list | listItem | code | html
  | thematicBreak | table | tableRow | tableCell | definition
  | text | escape | softBreak | hardBreak | inlineCode | emphasis | strong | delete | link | image
  /-- Anything the reader has no kind for; written verbatim. -/
  | raw
  deriving DecidableEq, Repr, Inhabited

namespace Kind

/-- All kinds. -/
def all : List Kind :=
  [root, frontMatter, paragraph, heading, blockquote, list, listItem, code, html, thematicBreak,
    table, tableRow, tableCell, definition, text, escape, softBreak, hardBreak, inlineCode, emphasis,
    strong, delete, link, image, raw]

/-- The name of a kind. -/
def name : Kind → String
  | root => "root"
  | frontMatter => "front_matter"
  | paragraph => "paragraph"
  | heading => "heading"
  | blockquote => "blockquote"
  | list => "list"
  | listItem => "list_item"
  | code => "code"
  | html => "html"
  | thematicBreak => "thematic_break"
  | table => "table"
  | tableRow => "table_row"
  | tableCell => "table_cell"
  | definition => "definition"
  | text => "text"
  | escape => "escape"
  | softBreak => "softbreak"
  | hardBreak => "hardbreak"
  | inlineCode => "inline_code"
  | emphasis => "emphasis"
  | strong => "strong"
  | delete => "delete"
  | link => "link"
  | image => "image"
  | raw => "raw"

/-- The kind of a name. -/
def ofName? (t : Text) : Option Kind := all.find? fun k => k.name.toList = t

end Kind

/-- A node of a document tree. -/
structure Node where
  kind : Kind
  value : Option Text := none
  url : Option Text := none
  title : Option Text := none
  markup : Text := []
  info : Text := []
  attrs : Fields := []
  children : List Node := []
  deriving Repr, Inhabited

namespace Node

/-- The payload, empty if there is none. -/
def payload (n : Node) : Text := n.value.getD []

/-- The link target, empty if there is none. -/
def target (n : Node) : Text := n.url.getD []

end Node
end MdxSafe
