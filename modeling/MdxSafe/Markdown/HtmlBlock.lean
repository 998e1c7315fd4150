-- SUMMARY: HTML blocks: how they start and where they end.
import MdxSafe.Markdown.Tag

/-!
# HTML blocks

The kind of an HTML block follows from how its first line starts, and says where the block ends: at a
line that holds an end mark, or before an empty line. A line that is one complete tag starts a block
too, but does not interrupt a paragraph.
-/

namespace MdxSafe.HtmlBlock

/-- The kind of an HTML block. -/
inductive Kind where
  /-- An element whose text is taken as it is. -/
  | verbatim
  | comment
  | instruction
  | declaration
  | characterData
  /-- A tag of an element that stands by itself. -/
  | element
  /-- A line that is one complete tag. -/
  | tag
  deriving DecidableEq, Repr

/-- Elements whose text is taken as it is. -/
def verbatimNames : List Text := ["script", "pre", "style", "textarea"].map String.toList

/-- Elements that stand by themselves. -/
def elementNames : List Text :=
  ["address", "article", "aside", "base", "basefont", "blockquote", "body", "caption", "center", "col",
   "colgroup", "dd", "details", "dialog", "dir", "div", "dl", "dt", "fieldset", "figcaption", "figure",
   "footer", "form", "frame", "frameset", "h1", "h2", "h3", "h4", "h5", "h6", "head", "header", "hr",
   "html", "iframe", "legend", "li", "link", "main", "menu", "menuitem", "nav", "noframes", "ol",
   "optgroup", "option", "p", "param", "search", "section", "summary", "table", "tbody", "td", "tfoot",
   "th", "thead", "title", "tr", "track", "ul"].map String.toList

/-- What follows a name at the start of a text, in ASCII letters of either case. -/
def afterName? (name : Text) (t : Text) : Option Text :=
  match name, t with
  | [], t => some t
  | _ :: _, [] => none
  | a :: name, b :: t => if a = b.toLower then afterName? name t else none

/-- Whether a tag name ends before a text; a slash ends it only before the bracket. -/
def endsName (slash : Bool) : Text → Bool
  | [] => true
  | '/' :: '>' :: _ => slash
  | c :: _ => c = '>' || isBlank c

/-- The kind of the HTML block that a line with this content starts. -/
def kind? (t : Text) : Option Kind :=
  match t with
  | '<' :: u =>
    let isTag (slash : Bool) (names : List Text) (u : Text) : Bool :=
      names.any fun n => (afterName? n u).any (endsName slash)
    let named := match u with
      | '/' :: v => v
      | v => v
    if isTag false verbatimNames u then some .verbatim
    else if Text.startsWith u "!--" then some .comment
    else if Text.startsWith u "?" then some .instruction
    else if Text.startsWith u "![CDATA[" then some .characterData
    else if Text.startsWith u "!" && (u.drop 1).head?.any Char.isAlpha then some .declaration
    else if isTag true elementNames named then some .element
    else if Tag.isWholeLine t then some .tag
    else none
  | _ => none

/-- Whether a kind of block interrupts a paragraph. -/
def Kind.interrupts (k : Kind) : Bool := k != .tag

/-- Whether a text holds the closing tag of a verbatim element. -/
def holdsVerbatimEnd : Text → Bool
  | [] => false
  | c :: t =>
    (c = '<' && (match t with
      | '/' :: u => verbatimNames.any fun n => (afterName? n u).any fun r => r.head? == some '>'
      | _ => false)) || holdsVerbatimEnd t

/-- Whether a line with this content is the last one of a block; for the kinds that end before an empty
line, whether it is that line. -/
def Kind.endsAt (k : Kind) (t : Text) : Bool :=
  match k with
  | verbatim => holdsVerbatimEnd t
  | comment => Text.contains t "-->"
  | instruction => Text.contains t "?>"
  | declaration => Text.contains t ">"
  | characterData => Text.contains t "]]>"
  | element | tag => t = []

end MdxSafe.HtmlBlock
