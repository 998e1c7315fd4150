-- SUMMARY: Tokens: the flat form of a Markdown document between reading and tree building.
import MdxSafe.Value.Basic

/-!
# Markdown tokens

A Markdown text is read into a list of tokens. A token opens an element, closes one, or stands
alone; a token of kind `inline` holds the tokens of a line of running text, and an image those of its
description.
-/

namespace MdxSafe

/-- What a token does to the nesting of elements. -/
inductive Nesting where
  | opens | closes | stands
  deriving DecidableEq, Repr, Inhabited

/-- The kind of a token. -/
inductive TokenKind where
  | paragraphOpen | paragraphClose | headingOpen | headingClose | blockquoteOpen | blockquoteClose
  | bulletListOpen | bulletListClose | orderedListOpen | orderedListClose | listItemOpen | listItemClose
  | tableOpen | tableClose | theadOpen | theadClose | tbodyOpen | tbodyClose | trOpen | trClose
  | thOpen | thClose | tdOpen | tdClose
  | emOpen | emClose | strongOpen | strongClose | strikeOpen | strikeClose | linkOpen | linkClose
  | inline | text | textSpecial | softBreak | hardBreak | codeInline | htmlInline | htmlBlock | fence
  | codeBlock | hr | frontMatter | image
  /-- A kind that only hand-made tokens have. -/
  | other (name : Text)
  deriving DecidableEq, Repr, Inhabited

namespace TokenKind

/-- The named kinds. -/
def named : List (TokenKind × String) :=
  [(paragraphOpen, "paragraph_open"), (paragraphClose, "paragraph_close"),
   (headingOpen, "heading_open"), (headingClose, "heading_close"),
   (blockquoteOpen, "blockquote_open"), (blockquoteClose, "blockquote_close"),
   (bulletListOpen, "bullet_list_open"), (bulletListClose, "bullet_list_close"),
   (orderedListOpen, "ordered_list_open"), (orderedListClose, "ordered_list_close"),
   (listItemOpen, "list_item_open"), (listItemClose, "list_item_close"),
   (tableOpen, "table_open"), (tableClose, "table_close"),
   (theadOpen, "thead_open"), (theadClose, "thead_close"),
   (tbodyOpen, "tbody_open"), (tbodyClose, "tbody_close"),
   (trOpen, "tr_open"), (trClose, "tr_close"),
   (thOpen, "th_open"), (thClose, "th_close"), (tdOpen, "td_open"), (tdClose, "td_close"),
   (emOpen, "em_open"), (emClose, "em_close"), (strongOpen, "strong_open"),
   (strongClose, "strong_close"), (strikeOpen, "s_open"), (strikeClose, "s_close"),
   (linkOpen, "link_open"), (linkClose, "link_close"),
   (inline, "inline"), (text, "text"), (textSpecial, "text_special"), (softBreak, "softbreak"),
   (hardBreak, "hardbreak"), (codeInline, "code_inline"), (htmlInline, "html_inline"),
   (htmlBlock, "html_block"), (fence, "fence"), (codeBlock, "code_block"), (hr, "hr"),
   (frontMatter, "front_matter"), (image, "image")]

/-- The name of a kind. -/
def name : TokenKind → Text
  | other n => n
  | k => ((named.find? fun e => e.1 = k).map fun e => e.2.toList).getD []

/-- The kind of a name. -/
def ofName (n : Text) : TokenKind :=
  match named.find? fun e => e.2.toList = n with
  | some e => e.1
  | none => other n

end TokenKind

/-- A token. -/
structure Token where
  kind : TokenKind
  nesting : Nesting := .stands
  tag : Text := []
  attrs : Fields := []
  content : Text := []
  markup : Text := []
  info : Text := []
  hidden : Bool := false
  children : List Token := []
  deriving Repr, Inhabited

namespace Token

/-- A token that opens an element. -/
def opening (kind : TokenKind) (markup : Text) : Token := { kind, nesting := .opens, markup }

/-- A token that closes an element. -/
def closing (kind : TokenKind) (markup : Text) : Token := { kind, nesting := .closes, markup }

/-- A token of running text that stays to be read. -/
def running (content : Text) : Token := { kind := .inline, content }

/-- A token of literal characters. -/
def literal (content : Text) : Token := { kind := .text, content }

end Token
end MdxSafe
