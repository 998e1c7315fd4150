-- SUMMARY: Walking a tree in document order with a stack of pending places, calling back for the nodes asked for.
import MdxSafe.Tree.Node

/-!
# Walks

A walk keeps the places still to be visited, the next one in front, each with the place of its parent.
When it comes to a place whose node is asked for, it calls back with the node and its parent; the callback
may revise the node and take notes. Then the children are put in front of what is pending. They are
looked up after the callback, so a revision may change what a node holds but not what stands below it.

Beside the walk stand its meanings on the tree as a whole: `Node.preorder` lists all nodes with their
parents in document order, `Node.reviseAll` revises every selected node.
-/

namespace MdxSafe

/-- A place in a tree: which child to take at each step down from the root. -/
abbrev Place := List Nat

/-- A node met on a walk, at its place and as it was when the walk came there. -/
structure Visit where
  place : Place
  node : Node
  deriving Repr, Inhabited

namespace Node

-- ---------------------------------------------------------------------------
-- Places
-- ---------------------------------------------------------------------------

/-- The node at a place. -/
def at? (n : Node) : Place → Option Node
  | [] => some n
  | i :: p =>
    match n.children[i]? with
    | some c => c.at? p
    | none => none

/-- The tree with the node at a place changed. -/
def modifyAt (f : Node → Node) (n : Node) : Place → Node
  | [] => f n
  | i :: p => { n with children := n.children.modify i fun c => c.modifyAt f p }

/-- The parent of the node at a place; the root has none. -/
def parentAt? (n : Node) (p : Place) : Option Node :=
  match p with
  | [] => none
  | i :: p => n.at? (i :: p).dropLast

mutual
/-- The number of nodes of a tree. -/
def size : Node → Nat
  | ⟨_, _, _, _, _, _, _, children⟩ => sizes children + 1
termination_by structural n => n

/-- The number of nodes of trees. -/
def sizes : List Node → Nat
  | [] => 0
  | n :: ns => size n + sizes ns
termination_by structural ns => ns
end

-- ---------------------------------------------------------------------------
-- The walk
-- ---------------------------------------------------------------------------

/-- The nodes asked for: those of a kind, those of some kinds, or those that pass a test. -/
inductive Predicate where
  | kind (k : Kind)
  | kinds (ks : List Kind)
  | test (passes : Node → Bool)

/-- Whether a node is asked for. -/
def Predicate.matches : Predicate → Node → Bool
  | kind k, n => n.kind = k
  | kinds ks, n => n.kind ∈ ks
  | test passes, n => passes n

/-- What is done with a node that was found: from the node, its parent and the notes so far, the node as it shall be and the
notes with what is to be added. -/
abbrev Callback (σ : Type) := Visit → Option Node → σ → Node × σ

/-- A walk under way. -/
structure Walk (σ : Type) where
  /-- The places still to be visited, the next one first, each with the place of the parent. -/
  pending : List (Place × Option Place)
  tree : Node
  notes : σ

namespace Walk

variable {σ : Type}

/-- The walk that has all of a tree before it. -/
def start (tree : Node) (notes : σ) : Walk σ := ⟨[([], none)], tree, notes⟩

/-- Visit the next place. -/
def step (predicate : Predicate) (callback : Callback σ) (w : Walk σ) : Walk σ :=
  match w.pending with
  | [] => w
  | (p, above) :: pending =>
    match w.tree.at? p with
    | none => { w with pending }
    | some n =>
      let (tree, notes) :=
        if predicate.matches n then
          let r := callback ⟨p, n⟩ (above.bind w.tree.at?) w.notes
          (w.tree.modifyAt (fun _ => r.1) p, r.2)
        else (w.tree, w.notes)
      let below := ((tree.at? p).map Node.children).getD []
      ⟨(List.range below.length).map (fun i => (p ++ [i], some p)) ++ pending, tree, notes⟩

/-- Visit so many places, or fewer if none are left. -/
def run (predicate : Predicate) (callback : Callback σ) : Nat → Walk σ → Walk σ
  | 0, w => w
  | limit + 1, w => run predicate callback limit (w.step predicate callback)

end Walk

/-- Visit every node in document order and call back for those asked for: the tree as it is then, and the notes. -/
def visit {σ : Type} (predicate : Predicate) (callback : Callback σ) (tree : Node) (notes : σ) : Node × σ :=
  let w := (Walk.start tree notes).run predicate callback tree.size
  (w.tree, w.notes)

/-- The nodes asked for, in document order. -/
def collect (predicate : Predicate) (tree : Node) : List Node :=
  (tree.visit predicate (fun v _ found => (v.node, found ++ [v.node])) []).2

/-- Revise the selected nodes in document order: these nodes as they were, and the tree. -/
def walk (select : Node → Bool) (revise : Node → Node) (tree : Node) : List Visit × Node :=
  let r := tree.visit (.test select) (fun v _ seen => (revise v.node, seen ++ [v])) []
  (r.2, r.1)

-- ---------------------------------------------------------------------------
-- The tree as a whole
-- ---------------------------------------------------------------------------

mutual
/-- The nodes of a tree in document order, each with its parent. -/
def preorder (parent : Option Node) : Node → List (Node × Option Node)
  | ⟨kind, value, url, title, markup, info, attrs, children⟩ =>
    let n : Node := ⟨kind, value, url, title, markup, info, attrs, children⟩
    (n, parent) :: preorders (some n) children
termination_by structural n => n

/-- The nodes of trees with one parent in document order. -/
def preorders (parent : Option Node) : List Node → List (Node × Option Node)
  | [] => []
  | n :: ns => preorder parent n ++ preorders parent ns
termination_by structural ns => ns
end

/-- The nodes of a tree in document order. -/
def nodes (n : Node) : List Node := (n.preorder none).map Prod.fst

mutual
/-- The tree with every selected node revised, from the leaves up. -/
def reviseAll (select : Node → Bool) (revise : Node → Node) : Node → Node
  | ⟨kind, value, url, title, markup, info, attrs, children⟩ =>
    let below := reviseEach select revise children
    if select ⟨kind, value, url, title, markup, info, attrs, children⟩ then
      { revise ⟨kind, value, url, title, markup, info, attrs, children⟩ with children := below }
    else ⟨kind, value, url, title, markup, info, attrs, below⟩
termination_by structural n => n

/-- Trees with every selected node revised. -/
def reviseEach (select : Node → Bool) (revise : Node → Node) : List Node → List Node
  | [] => []
  | n :: ns => reviseAll select revise n :: reviseEach select revise ns
termination_by structural ns => ns
end

end Node
end MdxSafe
