-- SUMMARY: Outlines of whole documents: front matter, blocks and definitions.
import MdxSafe.Proofs.Outline.Text

/-!
# Outlines of documents

A document starts with its front matter, if it has any; its blocks come next and its reference definitions
last, one a line. Empty lines separate the three parts and the blocks.
-/

namespace MdxSafe.Outline

/-- The outline of a document. -/
structure Page where
  /-- What stands between the markers of the front matter. -/
  front : Option Text := none
  body : List Block := []
  /-- The lines of the reference definitions. -/
  defs : List Text := []

-- ---------------------------------------------------------------------------
-- Lines and text
-- ---------------------------------------------------------------------------

/-- The lines between the markers of front matter. -/
def frontContent (content : Text) : List Text := if content = [] then [] else Text.splitOn '\n' content

/-- The lines of front matter. -/
def frontLines (content : Text) : List Text := "---".toList :: (frontContent content ++ ["---".toList])

/-- The text of front matter. -/
def frontText (content : Text) : Text :=
  "---".toList ++ '\n' :: (if content = [] then "---".toList else content ++ '\n' :: "---".toList)

namespace Page

/-- The lines of the parts of a document. -/
def groups (opts : Layout.Options) (p : Page) : List (List Text) :=
  (p.front.map frontLines).toList ++ Outline.groups opts p.body ++ if p.defs = [] then [] else [p.defs]

/-- The lines of a document. -/
def lines (opts : Layout.Options) (p : Page) : List Text := spread (gapLines false) (p.groups opts)

/-- The texts of the front matter and of the blocks of a document. -/
def texts (opts : Layout.Options) (p : Page) : List Text :=
  (p.front.map frontText).toList ++ Outline.texts opts p.body

/-- The text of a document. -/
def text (opts : Layout.Options) (p : Page) : Text :=
  let out := Layout.joinNonempty (Layout.separator false)
    [Layout.joinNonempty (Layout.separator false) (p.texts opts), Text.join ['\n'] p.defs]
  if out = [] then [] else out ++ ['\n']

end Page

-- ---------------------------------------------------------------------------
-- Documents laid out well
-- ---------------------------------------------------------------------------

/-- Whether a line closes front matter. -/
def closesFront (s : Text) : Bool :=
  (Text.after? "..." s).any (fun rest => rest.all isIndent) || Fence.isClosedBy ⟨'-', 3, []⟩ (afterIndent s)

/-- Whether front matter is read back from its lines. -/
def isFront (content : Text) : Bool :=
  Layout.chompAll content = content && (frontContent content).all fun s => !closesFront s

/-- The definition on a line, if it is all of the line and of the definition. -/
def readDefinition? (s : Text) : Option Reference :=
  match Definition.read? (fun _ => none) 2 (s ++ ['\n']) with
  | some (r, 0) => some r
  | _ => none

/-- Whether the first line of a document starts front matter, at once or inside list items. -/
def maybeFront (s : Text) : Bool := s.head? = some '-' && Text.contains s "--"

/-- Whether a character is the same after reading. -/
def isPlainChar (c : Char) : Bool := c != '\r' && c.toNat != 0

/-- Whether the text of a document is read back as that document. -/
def Page.isLaid (opts : Layout.Options) (p : Page) : Bool :=
  p.front.all isFront && areSeparate opts false p.body && areLaid opts 0 p.body
    && p.defs.all (fun s => (readDefinition? s).isSome && '\n' ∉ s)
    && (p.front.isSome || !maybeFront ((p.lines opts).headD []))
    && (p.text opts).all isPlainChar && (p.text opts).head?.all (fun c => c.toNat != 0xFEFF)

/-- A document laid out well: its three parts are told apart, and the reader changes none of its characters. -/
structure PageLaid (opts : Layout.Options) (p : Page) : Prop where
  front : p.front.all isFront
  separate : areSeparate opts false p.body
  blocks : areLaid opts 0 p.body
  reads : ∀ s ∈ p.defs, (readDefinition? s).isSome
  line : ∀ s ∈ p.defs, '\n' ∉ s
  start : p.front.isSome ∨ maybeFront ((p.lines opts).headD []) = false
  plain : (p.text opts).all isPlainChar
  noMark : (p.text opts).head?.all fun c => c.toNat != 0xFEFF

theorem Page.isLaid_iff {opts : Layout.Options} {p : Page} : p.isLaid opts ↔ PageLaid opts p := by
  simp only [Page.isLaid, Bool.and_eq_true, Bool.or_eq_true, Bool.not_eq_true', decide_eq_true_eq, List.all_eq_true]
  constructor
  · rintro ⟨⟨⟨⟨⟨⟨hfront, hseparate⟩, hblocks⟩, hdefs⟩, hstart⟩, hplain⟩, hmark⟩
    exact ⟨hfront, hseparate, hblocks, fun s hs => (hdefs s hs).1, fun s hs => (hdefs s hs).2, hstart,
      List.all_eq_true.2 hplain, hmark⟩
  · rintro ⟨hfront, hseparate, hblocks, hreads, hline, hstart, hplain, hmark⟩
    exact ⟨⟨⟨⟨⟨⟨hfront, hseparate⟩, hblocks⟩, fun s hs => ⟨hreads s hs, hline s hs⟩⟩, hstart⟩,
      List.all_eq_true.1 hplain⟩, hmark⟩

namespace Page

/-- The definitions of a document; the first one of a label counts. -/
def refs (p : Page) : List Reference := (p.defs.filterMap readDefinition?).foldl Reference.add []

/-- The token of front matter. -/
def frontToken (content : Text) : Token := { kind := .frontMatter, content, markup := "---", hidden := true }

/-- The tokens of a document, with running text still to be read. -/
def tokens (opts : Layout.Options) (p : Page) : List Token :=
  (p.front.map frontToken).toList ++ blockTokens opts false p.body

/-- The node of front matter. -/
def frontNode (content : Text) : Node := { kind := .frontMatter, value := some content, markup := "---" }

/-- The tree of a document. -/
def tree (opts : Layout.Options) (p : Page) : Node :=
  { Node.emptyRoot with
    children := (p.front.map frontNode).toList ++ nodes opts p.refs false p.body ++ p.refs.map Reference.toNode }

-- ---------------------------------------------------------------------------
-- The outline of a tree
-- ---------------------------------------------------------------------------

/-- The outline of a document tree, if every block of it has one. -/
def ofTree? (root : Node) : Option Page :=
  let defs := (root.children.filter Layout.isDefinition).map Layout.definition
  match root.children.filter fun n => !Layout.isDefinition n with
  | [] => some { defs }
  | n :: ns =>
    if n.kind = .frontMatter then
      if n.markup = "---".toList then
        (outlines? ns).map fun body => { front := some (Layout.chompAll n.payload), body, defs }
      else none
    else (outlines? (n :: ns)).map fun body => { body, defs }

end Page

end MdxSafe.Outline
