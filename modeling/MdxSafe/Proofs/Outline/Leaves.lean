-- SUMMARY: What can be found at the nodes of a tree is found in the running texts of its outline one by one.
import MdxSafe.Proofs.Outline.Page
import MdxSafe.Proofs.Tree.Place

/-!
# Findings

A search looks at every node of a tree in document order and notes what it finds there. When it looks for nothing
that belongs to the frame of a document (containers, headings, paragraphs, tables), what it finds in the tree of
an outline is what it finds in the code blocks and in the running texts of the outline, each read on its own, and
at the definitions.
-/

namespace MdxSafe

-- ---------------------------------------------------------------------------
-- Trees
-- ---------------------------------------------------------------------------

/-- Whether nodes of a kind only hold other nodes or stand for themselves. -/
def Kind.isFrame : Kind → Bool
  | .root | .frontMatter | .paragraph | .heading | .blockquote | .list | .listItem | .html | .thematicBreak
  | .table | .tableRow | .tableCell => true
  | _ => false

variable {α : Type}

/-- What is found at the nodes of a tree, in document order. -/
def Node.gather (find : Node → List α) (n : Node) : List α := n.nodes.flatMap find

/-- Whether nothing is found at the frame of a document. -/
def SkipsFrame (find : Node → List α) : Prop := ∀ n : Node, n.kind.isFrame → find n = []

theorem Node.gather_eq (find : Node → List α) (n : Node) :
    n.gather find = find n ++ n.children.flatMap (gather find) := by
  rw [gather, nodes_eq, List.flatMap_cons, List.flatMap_assoc]
  rfl

theorem Node.gather_frame {find : Node → List α} (hfind : SkipsFrame find) {n : Node} (hn : n.kind.isFrame) :
    n.gather find = n.children.flatMap (gather find) := by
  rw [gather_eq, hfind n hn, List.nil_append]

namespace Outline

variable {opts : Layout.Options} {refs : List Reference} {find : Node → List α}

-- ---------------------------------------------------------------------------
-- Blocks without blocks inside
-- ---------------------------------------------------------------------------

/-- The running texts of a block without blocks inside. -/
def Leaf.runs : Leaf → List Text
  | .paragraph u | .heading _ u => [u]
  | .table _ head rows => (head :: rows).flatMap fun r => r.map cellText
  | .code .. | .html _ | .rule => []

/-- What is found in a running text. -/
def gatherText (find : Node → List α) (refs : List Reference) (u : Text) : List α :=
  (runningNodes refs u).flatMap (Node.gather find)

/-- What is found in a block without blocks inside. -/
def Leaf.gather (find : Node → List α) (opts : Layout.Options) (refs : List Reference) : Leaf → List α
  | .code info payload => find (Leaf.node opts refs false (.code info payload))
  | l => l.runs.flatMap (gatherText find refs)

theorem gather_rowNode (hfind : SkipsFrame find) (inHead : Bool) {aligns : List Table.Align} {cells : List Text}
    (h : cells.length = aligns.length) :
    (rowNode refs inHead aligns cells).gather find = (cells.map cellText).flatMap (gatherText find refs) := by
  rw [Node.gather_frame hfind rfl, rowNode]
  dsimp only
  induction cells generalizing aligns with
  | nil => simp
  | cons w cells ih =>
    cases aligns with
    | nil => simp at h
    | cons a aligns =>
      rw [List.zipWith_cons_cons, List.flatMap_cons, ih (by simpa using h), Node.gather_frame hfind rfl,
        List.map_cons, List.flatMap_cons, gatherText]

theorem gather_leaf (hfind : SkipsFrame find) {l : Leaf} (hl : l.isLaid opts) (hidden : Bool) :
    (l.node opts refs hidden).gather find = l.gather find opts refs := by
  cases l with
  | paragraph u =>
    rw [Node.gather_frame hfind rfl]
    simp only [Leaf.node, Leaf.gather, Leaf.runs, List.flatMap_singleton, gatherText]
  | heading level u =>
    rw [Node.gather_frame hfind rfl]
    simp only [Leaf.node, Leaf.gather, Leaf.runs, List.flatMap_singleton, gatherText]
  | code info payload =>
    rw [Node.gather_eq]
    exact List.append_nil _
  | html v => rw [Node.gather_frame hfind rfl]; rfl
  | rule => rw [Node.gather_frame hfind rfl]; rfl
  | table aligns head rows =>
    replace hl := isLaid_table_iff.1 hl
    have hbody : (rows.map (rowNode refs false aligns)).flatMap (Node.gather find)
        = (rows.flatMap fun r => r.map cellText).flatMap (gatherText find refs) := by
      rw [List.flatMap_map, List.flatMap_assoc]
      exact List.flatMap_congr fun r hr => gather_rowNode hfind false (hl.length_row r hr)
    rw [Node.gather_frame hfind rfl, Leaf.node]
    dsimp only
    rw [List.flatMap_cons, gather_rowNode hfind true hl.length_head, hbody, ← List.flatMap_append, ← List.flatMap_cons]
    rfl

-- ---------------------------------------------------------------------------
-- Blocks
-- ---------------------------------------------------------------------------

mutual
/-- The blocks without blocks inside that a block consists of. -/
def Block.leaves : Block → List Leaf
  | .leaf l => [l]
  | .quote bs => blockLeaves bs
  | .list _ _ its => itemLeaves its
termination_by structural b => b

/-- Those of blocks in order. -/
def blockLeaves : List Block → List Leaf
  | [] => []
  | b :: bs => b.leaves ++ blockLeaves bs
termination_by structural bs => bs

/-- Those of an item. -/
def Item.leaves : Item → List Leaf
  | .mk _ bs => blockLeaves bs
termination_by structural it => it

/-- Those of items in order. -/
def itemLeaves : List Item → List Leaf
  | [] => []
  | it :: its => it.leaves ++ itemLeaves its
termination_by structural its => its
end

mutual
/-- A laid block consists of laid blocks. -/
theorem isLaid_of_mem_leaves : (b : Block) → ∀ {depth : Nat}, b.isLaid opts depth → ∀ l ∈ b.leaves, l.isLaid opts
  | .leaf l, depth, h => by
    rw [Block.leaves, List.forall_mem_singleton]
    exact (isLaid_leaf_iff.1 h).2
  | .quote bs, depth, h => by
    rw [Block.leaves]
    exact isLaid_of_mem_blockLeaves bs (isLaid_quote_iff.1 h).blocks
  | .list mark tight its, depth, h => by
    rw [Block.leaves]
    exact isLaid_of_mem_itemLeaves its (isLaid_list_iff.1 h).items
termination_by structural b => b

theorem isLaid_of_mem_blockLeaves : (bs : List Block) → ∀ {depth : Nat}, areLaid opts depth bs →
    ∀ l ∈ blockLeaves bs, l.isLaid opts
  | [], depth, h => nofun
  | b :: bs, depth, h => by
    rw [areLaid_cons_iff] at h
    rw [blockLeaves, List.forall_mem_append]
    exact ⟨isLaid_of_mem_leaves b h.1, isLaid_of_mem_blockLeaves bs h.2⟩
termination_by structural bs => bs

theorem isLaid_of_mem_item : (it : Item) → ∀ {depth : Nat} {mark : Char} {tight bullet : Bool},
    it.isLaid opts depth mark tight bullet → ∀ l ∈ it.leaves, l.isLaid opts
  | .mk digits bs, depth, mark, tight, bullet, h => by
    rw [Item.leaves]
    exact isLaid_of_mem_blockLeaves bs (isLaid_item_iff.1 h).blocks
termination_by structural it => it

theorem isLaid_of_mem_itemLeaves : (its : List Item) → ∀ {depth : Nat} {mark : Char} {tight bullet : Bool},
    itemsLaid opts depth mark tight bullet its → ∀ l ∈ itemLeaves its, l.isLaid opts
  | [], depth, mark, tight, bullet, h => nofun
  | it :: its, depth, mark, tight, bullet, h => by
    rw [itemsLaid_cons_iff] at h
    rw [itemLeaves, List.forall_mem_append]
    exact ⟨isLaid_of_mem_item it h.1, isLaid_of_mem_itemLeaves its h.2⟩
termination_by structural its => its
end

mutual
/-- What is found in the tree of a block is found in its parts. -/
theorem gather_node (hfind : SkipsFrame find) : (b : Block) → ∀ {depth : Nat} (hidden : Bool), b.isLaid opts depth →
    (b.node opts refs hidden).gather find = b.leaves.flatMap (Leaf.gather find opts refs)
  | .leaf l, depth, hidden, h => by
    rw [Block.node, gather_leaf hfind (isLaid_leaf_iff.1 h).2, Block.leaves]
    exact (List.flatMap_singleton _ _).symm
  | .quote bs, depth, hidden, h => by
    rw [Block.node, Node.gather_frame hfind rfl]
    exact gather_nodes hfind bs false (isLaid_quote_iff.1 h).blocks
  | .list mark tight its, depth, hidden, h => by
    rw [Block.node, Node.gather_frame hfind rfl]
    exact gather_itemNodes hfind its (isLaid_list_iff.1 h).items
termination_by structural b => b

theorem gather_nodes (hfind : SkipsFrame find) : (bs : List Block) → ∀ {depth : Nat} (hidden : Bool),
    areLaid opts depth bs →
    (nodes opts refs hidden bs).flatMap (Node.gather find) = (blockLeaves bs).flatMap (Leaf.gather find opts refs)
  | [], depth, hidden, h => rfl
  | b :: bs, depth, hidden, h => by
    rw [areLaid_cons_iff] at h
    rw [nodes, List.flatMap_cons, gather_node hfind b hidden h.1, gather_nodes hfind bs hidden h.2, blockLeaves,
      List.flatMap_append]
termination_by structural bs => bs

theorem gather_itemNode (hfind : SkipsFrame find) : (it : Item) → ∀ {depth : Nat} {mark : Char} {tight bullet : Bool},
    it.isLaid opts depth mark tight bullet →
    (it.node opts refs mark tight).gather find = it.leaves.flatMap (Leaf.gather find opts refs)
  | .mk digits bs, depth, mark, tight, bullet, h => by
    rw [Item.node, Node.gather_frame hfind rfl]
    exact gather_nodes hfind bs tight (isLaid_item_iff.1 h).blocks
termination_by structural it => it

theorem gather_itemNodes (hfind : SkipsFrame find) : (its : List Item) →
    ∀ {depth : Nat} {mark : Char} {tight bullet : Bool}, itemsLaid opts depth mark tight bullet its →
    (itemNodes opts refs mark tight its).flatMap (Node.gather find)
      = (itemLeaves its).flatMap (Leaf.gather find opts refs)
  | [], depth, mark, tight, bullet, h => rfl
  | it :: its, depth, mark, tight, bullet, h => by
    rw [itemsLaid_cons_iff] at h
    rw [itemNodes, List.flatMap_cons, gather_itemNode hfind it h.1, gather_itemNodes hfind its h.2, itemLeaves,
      List.flatMap_append]
termination_by structural its => its
end

-- ---------------------------------------------------------------------------
-- Documents
-- ---------------------------------------------------------------------------

/-- What is found in a document: in its blocks and at its definitions. -/
def Page.gather (find : Node → List α) (opts : Layout.Options) (p : Page) : List α :=
  (blockLeaves p.body).flatMap (Leaf.gather find opts p.refs) ++ p.refs.flatMap fun r => find r.toNode

end Outline
end MdxSafe
