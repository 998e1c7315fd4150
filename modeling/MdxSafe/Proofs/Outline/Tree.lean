-- SUMMARY: The tokens and the tree that an outline is read as, and the outline of a tree.
import MdxSafe.Layout.Block
import MdxSafe.Proofs.Outline.Laid
import MdxSafe.Tree.Reader

/-!
# Outlines, tokens and trees

`Block.tokens` are the tokens that the block reader yields for a block, `Block.node` is the tree that they
are assembled to, with all running text read. In the other direction `Node.outline?` forgets what the
running text of a node consists of and keeps the text that it is written as. Going from an outline to its
tree and back writes every running text anew (`Block.rewritten`).
-/

namespace MdxSafe

namespace Outline

-- ---------------------------------------------------------------------------
-- Tokens
-- ---------------------------------------------------------------------------

/-- A cell as it stands between two pipes of a row that was cut. -/
def readCell (w : Text) : Text := ' ' :: (Table.splitRow w).headD [] ++ [' ']

/-- The tokens of a block without blocks inside. -/
def Leaf.tokens (opts : Layout.Options) (hidden : Bool) : Leaf → List Token
  | .paragraph u =>
    [{ Token.opening .paragraphOpen [] with hidden }, .running u, { Token.closing .paragraphClose [] with hidden }]
  | .heading level u => Block.headingTokens level (List.replicate level '#') u
  | .code info payload => [{ kind := .fence, info, markup := fence opts info payload, content := payload }]
  | .html v => [{ kind := .htmlBlock, content := v ++ ['\n'] }]
  | .rule => [{ kind := .hr, markup := "****" }]
  | .table aligns head rows =>
    Block.tableTokens aligns (head.map readCell) (rows.map fun r => r.map readCell)

/-- The token that opens an item. -/
def itemOpening (mark : Char) (digits : Text) : Token :=
  { Token.opening .listItemOpen [mark] with info := digits }

/-- The attributes of a list with this first item. -/
def listAttrs (digits : Text) (mark : Char) : Fields :=
  let m : ListMarker := ⟨digits, mark⟩
  if m.isOrdered && m.number ≠ 1 then [("start".toList, .int m.number)] else []

/-- The kinds of the tokens around a list with this first item. -/
def listKinds (digits : Text) : TokenKind × TokenKind :=
  if digits ≠ [] then (.orderedListOpen, .orderedListClose) else (.bulletListOpen, .bulletListClose)

/-- The digits of the first item. -/
def firstDigits (its : List Item) : Text := (its.head?.map Item.digits).getD []

mutual
/-- The tokens of a block; `hidden` says whether it stands directly inside an item of a tight list. -/
def Block.tokens (opts : Layout.Options) (hidden : Bool) : Block → List Token
  | .leaf l => l.tokens opts hidden
  | .quote bs =>
    .opening .blockquoteOpen ['>'] :: blockTokens opts false bs ++ [.closing .blockquoteClose ['>']]
  | .list mark tight its =>
    { Token.opening (listKinds (firstDigits its)).1 [mark] with attrs := listAttrs (firstDigits its) mark }
      :: itemTokens opts mark tight its ++ [.closing (listKinds (firstDigits its)).2 [mark]]
termination_by structural b => b

/-- The tokens of blocks in order. -/
def blockTokens (opts : Layout.Options) (hidden : Bool) : List Block → List Token
  | [] => []
  | b :: bs => b.tokens opts hidden ++ blockTokens opts hidden bs
termination_by structural bs => bs

/-- The tokens of an item. -/
def Item.tokens (opts : Layout.Options) (mark : Char) (hidden : Bool) : Item → List Token
  | .mk digits bs =>
    itemOpening mark digits :: blockTokens opts hidden bs ++ [.closing .listItemClose [mark]]
termination_by structural it => it

/-- The tokens of items in order. -/
def itemTokens (opts : Layout.Options) (mark : Char) (hidden : Bool) : List Item → List Token
  | [] => []
  | it :: its => it.tokens opts mark hidden ++ itemTokens opts mark hidden its
termination_by structural its => its
end

-- ---------------------------------------------------------------------------
-- Trees
-- ---------------------------------------------------------------------------

/-- The nodes that running text is read as. -/
def runningNodes (refs : List Reference) (u : Text) : List Node :=
  ((Node.emptyRoot.assemble (Inline.parse refs u)).toOption.getD Node.emptyRoot).children

/-- The text of a cell between its pipes. -/
def cellText (w : Text) : Text := Text.trimMargin (readCell w)

/-- The alignment of a cell as an attribute. -/
def alignValue : Table.Align → Value
  | .unset => .null
  | .left => .text "left"
  | .right => .text "right"
  | .center => .text "center"

/-- A row of a table. -/
def rowNode (refs : List Reference) (inHead : Bool) (aligns : List Table.Align) (cells : List Text) : Node :=
  { kind := .tableRow, attrs := [("header".toList, .bool inHead)]
    children := aligns.zipWith (fun a w =>
      { kind := .tableCell, attrs := [("align".toList, alignValue a)], children := runningNodes refs (cellText w) })
      cells }

/-- The node of a block without blocks inside. -/
def Leaf.node (opts : Layout.Options) (refs : List Reference) (hidden : Bool) : Leaf → Node
  | .paragraph u =>
    { kind := .paragraph, attrs := [("hidden".toList, .bool hidden)], children := runningNodes refs u }
  | .heading level u =>
    { kind := .heading, markup := List.replicate level '#', attrs := [("level".toList, .int level)]
      children := runningNodes refs u }
  | .code info payload =>
    { kind := .code, value := some payload, info, markup := fence opts info payload
      attrs := [("fenced".toList, .bool true)] }
  | .html v => { kind := .html, value := some (v ++ ['\n']), attrs := [("block".toList, .bool true)] }
  | .rule => { kind := .thematicBreak, markup := "****" }
  | .table aligns head rows =>
    { kind := .table, children := rowNode refs true aligns head :: rows.map (rowNode refs false aligns) }

/-- The attributes of the node of a list, up to whether it is tight. -/
def listFields (digits : Text) (mark : Char) : Fields :=
  if digits ≠ [] then
    let n := (⟨digits, mark⟩ : ListMarker).number
    -- zero counts as a missing number
    [("ordered".toList, .bool true), ("start".toList, .int (if n = 0 then 1 else n))]
  else [("ordered".toList, .bool false)]

mutual
/-- The node of a block; `hidden` says whether it stands directly inside an item of a tight list. -/
def Block.node (opts : Layout.Options) (refs : List Reference) (hidden : Bool) : Block → Node
  | .leaf l => l.node opts refs hidden
  | .quote bs => { kind := .blockquote, markup := ['>'], children := nodes opts refs false bs }
  | .list mark tight its =>
    let n : Node :=
      { kind := .list, markup := [mark], attrs := listFields (firstDigits its) mark
        children := itemNodes opts refs mark tight its }
    { n with attrs := n.attrs.set "tight" (.bool n.hidesParagraphs) }
termination_by structural b => b

/-- The nodes of blocks. -/
def nodes (opts : Layout.Options) (refs : List Reference) (hidden : Bool) : List Block → List Node
  | [] => []
  | b :: bs => b.node opts refs hidden :: nodes opts refs hidden bs
termination_by structural bs => bs

/-- The node of an item. -/
def Item.node (opts : Layout.Options) (refs : List Reference) (mark : Char) (hidden : Bool) : Item → Node
  | .mk digits bs =>
    { kind := .listItem, markup := [mark], info := digits, children := nodes opts refs hidden bs }
termination_by structural it => it

/-- The nodes of items. -/
def itemNodes (opts : Layout.Options) (refs : List Reference) (mark : Char) (hidden : Bool) :
    List Item → List Node
  | [] => []
  | it :: its => it.node opts refs mark hidden :: itemNodes opts refs mark hidden its
termination_by structural its => its
end

-- ---------------------------------------------------------------------------
-- The outline of a tree
-- ---------------------------------------------------------------------------

/-- A code payload as it is written: with a line end at its end. -/
def endedPayload (t : Text) : Text := if t ≠ [] ∧ t.getLast? ≠ some '\n' then t ++ ['\n'] else t

/-- The text between two pipes that a cell is written as. -/
def writtenCell (n : Node) : Text := Text.trimBlank (Layout.inlines { inCell := true } n.children)

/-- The alignment that the line below the head of a table is written with. -/
def alignOf? (v : Value) : Option Table.Align :=
  match v with
  | .text a => some (if a = "left".toList then .left else if a = "right".toList then .right
      else if a = "center".toList then .center else .unset)
  | .list _ | .object _ => none
  | _ => some .unset

/-- A node without blocks inside as an outline. HTML that starts nothing but a paragraph is one. -/
def leafOf? (n : Node) : Option Leaf :=
  match n.kind with
  | .paragraph => some (.paragraph (Layout.inlines {} n.children))
  | .heading =>
    match n.attrs.get? "level" with
    | some (.int (.ofNat level)) =>
      some (.heading level (Text.trimBlank (Layout.inlines { inHeading := true } n.children)))
    | _ => none
  | .code => some (.code n.info (endedPayload n.payload))
  | .html =>
    let v := Layout.chompAll n.payload
    some (if (HtmlBlock.kind? ((Text.splitOn '\n' v).headD [])).isSome then .html v else .paragraph v)
  | .thematicBreak => some .rule
  | .table =>
    match n.children.filter fun c => c.kind = .tableRow with
    | [] => none
    | head :: rows =>
      (head.children.mapM fun c => alignOf? (c.attrs.get "align")).map fun aligns =>
        .table aligns (head.children.map writtenCell) (rows.map fun r => r.children.map writtenCell)
  | _ => none

/-- The mark of a list, and whether it is ordered and tight. -/
def listShape? (n : Node) : Option (Char × Bool × Bool) :=
  match n.markup, n.attrs.get? "start" with
  | [mark], none | [mark], some (.int _) =>
    some (mark, Layout.flagAttr n "ordered" false, Layout.flagAttr n "tight" true)
  | _, _ => none

mutual
/-- The outline of a node. -/
def outline? : Node → Option Block
  | ⟨kind, value, url, title, markup, info, attrs, children⟩ =>
    let n : Node := ⟨kind, value, url, title, markup, info, attrs, children⟩
    match kind with
    | .blockquote => (outlines? children).map .quote
    | .list =>
      match listShape? n with
      | some (mark, ordered, tight) => (itemOutlines? ordered children).map (.list mark tight)
      | none => none
    | _ => (leafOf? n).map .leaf
termination_by structural n => n

/-- The outlines of nodes. -/
def outlines? : List Node → Option (List Block)
  | [] => some []
  | n :: ns =>
    match outline? n, outlines? ns with
    | some b, some bs => some (b :: bs)
    | _, _ => none
termination_by structural ns => ns

/-- The outline of an item. -/
def itemOutline? (ordered : Bool) : Node → Option Item
  | ⟨_, _, _, _, _, info, _, children⟩ =>
    if ordered && info = [] then none
    else (outlines? children).map (.mk (if ordered then info else []))
termination_by structural n => n

/-- The outlines of items. -/
def itemOutlines? (ordered : Bool) : List Node → Option (List Item)
  | [] => some []
  | n :: ns =>
    match itemOutline? ordered n, itemOutlines? ordered ns with
    | some it, some its => some (it :: its)
    | _, _ => none
termination_by structural ns => ns
end

end Outline
end MdxSafe
