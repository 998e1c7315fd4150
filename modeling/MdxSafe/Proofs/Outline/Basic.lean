-- SUMMARY: Outlines: the blocks of a document with their running text unread, and the lines they are written as.
import MdxSafe.Layout.Block
import MdxSafe.Markdown.Block
import MdxSafe.Proofs.Markdown.Line

/-!
# Outlines

The outline of a document is its block structure with running text still unread: what the layout fixes and the
block reader finds again. Every block of an outline has the text that the layout gives it, the lines of that
text as the container around it sees them, and the tokens that reading these lines yields.

`isLaid` collects what the text of a block must satisfy for that: the lines of a paragraph start nothing else,
a list is separated from the next one, and so on. It looks at single lines and at neighbouring blocks and
can be computed.
-/

namespace MdxSafe

namespace Outline

/-- A block without blocks inside. -/
inductive Leaf where
  | paragraph (u : Text)
  | heading (level : Nat) (u : Text)
  | code (info payload : Text)
  | html (v : Text)
  | rule
  /-- A table; its cells are the texts that are written between the pipes. -/
  | table (aligns : List Table.Align) (head : List Text) (rows : List (List Text))
  deriving DecidableEq, Repr

mutual
/-- A block. -/
inductive Block where
  | leaf (l : Leaf)
  | quote (bs : List Block)
  | list (mark : Char) (tight : Bool) (its : List Item)

/-- An item of a list; a bullet has no digits. -/
inductive Item where
  | mk (digits : Text) (bs : List Block)
end

-- ---------------------------------------------------------------------------
-- Texts
-- ---------------------------------------------------------------------------

/-- The cell below the head of a column with an alignment. -/
def delimiter : Table.Align → Text
  | .unset => "---"
  | .left => ":--"
  | .right => "--:"
  | .center => ":-:"

/-- The rows of a table. -/
def tableRows (aligns : List Table.Align) (head : List Text) (rows : List (List Text)) : List Text :=
  Layout.row head :: Layout.row (aligns.map delimiter) :: rows.map Layout.row

/-- The text of a block without blocks inside. -/
def Leaf.text (opts : Layout.Options) : Leaf → Text
  | .paragraph u => u
  | .heading level u => Layout.headingLine level u
  | .code info payload => Layout.fencedCode opts info payload
  | .html v => v
  | .rule => opts.thematicBreak
  | .table aligns head rows => Text.join ['\n'] (tableRows aligns head rows)

mutual
/-- The text of a block. -/
def Block.text (opts : Layout.Options) : Block → Text
  | .leaf l => l.text opts
  | .quote bs => Layout.quote (Layout.joinNonempty (Layout.separator false) (texts opts bs))
  | .list mark tight its => Text.join (Layout.separator tight) (itemTexts opts mark tight its)
termination_by structural b => b

/-- The texts of blocks. -/
def texts (opts : Layout.Options) : List Block → List Text
  | [] => []
  | b :: bs => b.text opts :: texts opts bs
termination_by structural bs => bs

/-- The text of an item. -/
def Item.text (opts : Layout.Options) (mark : Char) (tight : Bool) : Item → Text
  | .mk digits bs =>
    Layout.listItem opts (digits ++ [mark]) (Layout.joinNonempty (Layout.separator tight) (texts opts bs))
termination_by structural it => it

/-- The texts of items. -/
def itemTexts (opts : Layout.Options) (mark : Char) (tight : Bool) : List Item → List Text
  | [] => []
  | it :: its => it.text opts mark tight :: itemTexts opts mark tight its
termination_by structural its => its
end

-- ---------------------------------------------------------------------------
-- Lines
-- ---------------------------------------------------------------------------

/-- The lines of a block without blocks inside. -/
def Leaf.lines (opts : Layout.Options) (l : Leaf) : List Text := Text.splitOn '\n' (l.text opts)

/-- The lines between neighbouring blocks. -/
def gapLines (tight : Bool) : List Text := if tight then [] else [[]]

/-- A line under the marker of an item, which is `width` columns wide with the gap after it. -/
def indented (width : Nat) (s : Text) : Text := if s = [] then [] else spaces width ++ s

/-- The lines of an item, given those of its blocks. -/
def itemLines (opts : Layout.Options) (marker : Text) : List Text → List Text
  | [] => [marker]
  | s :: ss =>
    (marker ++ spaces opts.itemIndent ++ s) :: ss.map (indented (marker.length + opts.itemIndent))

/-- Groups of lines with the same lines between neighbours. -/
def spread (gap : List Text) (groups : List (List Text)) : List Text := List.intercalate gap groups

mutual
/-- The lines of a block. -/
def Block.lines (opts : Layout.Options) : Block → List Text
  | .leaf l => l.lines opts
  | .quote bs => (spread (gapLines false) (groups opts bs)).map Line.quoted
  | .list mark tight its => spread (gapLines tight) (itemGroups opts mark tight its)
termination_by structural b => b

/-- The lines of blocks, block by block. -/
def groups (opts : Layout.Options) : List Block → List (List Text)
  | [] => []
  | b :: bs => b.lines opts :: groups opts bs
termination_by structural bs => bs

/-- The lines of an item. -/
def Item.lines (opts : Layout.Options) (mark : Char) (tight : Bool) : Item → List Text
  | .mk digits bs => itemLines opts (digits ++ [mark]) (spread (gapLines tight) (groups opts bs))
termination_by structural it => it

/-- The lines of items, item by item. -/
def itemGroups (opts : Layout.Options) (mark : Char) (tight : Bool) : List Item → List (List Text)
  | [] => []
  | it :: its => it.lines opts mark tight :: itemGroups opts mark tight its
termination_by structural its => its
end

/-- The lines of a row of blocks. -/
def blockLines (opts : Layout.Options) (tight : Bool) (bs : List Block) : List Text :=
  spread (gapLines tight) (groups opts bs)

/-- The first line of a block. -/
def Block.firstLine (opts : Layout.Options) (b : Block) : Text := (b.lines opts).headD []

end Outline
end MdxSafe
