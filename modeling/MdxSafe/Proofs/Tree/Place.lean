-- SUMMARY: Trees place by place: document order, what a change or a revision leaves at each place, when two trees are equal.
import Mathlib.Data.List.Basic
import MdxSafe.Tree.Walk

/-!
# Trees place by place

A node is known by its place. The nodes of a tree in document order (`placed`) are all that stands at its places
(`mem_placed_iff`), each one once, in the lexicographic order of the places (`pairwise_placed`): a node comes before what
stands below it, and that before the next node beside it.

A tree is what its nodes hold, each at its place: two trees that hold the same at every place are equal
(`eq_of_heldAt?`). A revision that looks at nothing below a node acts on each place by itself (`heldAt?_reviseAll`).
-/

namespace MdxSafe.Node

-- ---------------------------------------------------------------------------
-- Nodes
-- ---------------------------------------------------------------------------

/-- What stands in front of the parents in document order does not depend on them. -/
theorem map_fst_preorder (n : Node) (parent : Option Node) : (n.preorder parent).map Prod.fst = n.nodes := by
  obtain ⟨kind, value, url, title, markup, info, attrs, children⟩ := n
  simp only [nodes, preorder, List.map_cons]

/-- A node and then what stands below it. -/
theorem nodes_eq (n : Node) : n.nodes = n :: n.children.flatMap nodes := by
  obtain ⟨kind, value, url, title, markup, info, attrs, children⟩ := n
  rw [nodes, preorder, List.map_cons]
  congr 1
  dsimp only
  generalize some _ = parent
  induction children with
  | nil => rfl
  | cons n ns ih => rw [preorders, List.map_append, map_fst_preorder, ih, List.flatMap_cons]

mutual
/-- The nodes of a tree with their places, for a tree at this place. -/
def placed (p : Place) : Node → List Visit
  | ⟨kind, value, url, title, markup, info, attrs, children⟩ =>
    ⟨p, ⟨kind, value, url, title, markup, info, attrs, children⟩⟩ :: placedEach p 0 children
termination_by structural n => n

/-- The nodes of the children of a place, from the one with this number on. -/
def placedEach (p : Place) (i : Nat) : List Node → List Visit
  | [] => []
  | n :: ns => placed (p ++ [i]) n ++ placedEach p (i + 1) ns
termination_by structural ns => ns
end

theorem placed_eq (p : Place) (n : Node) : n.placed p = ⟨p, n⟩ :: placedEach p 0 n.children := by
  obtain ⟨kind, value, url, title, markup, info, attrs, children⟩ := n
  rw [placed]

mutual
theorem map_node_placed : (n : Node) → ∀ p, (n.placed p).map Visit.node = n.nodes
  | ⟨kind, value, url, title, markup, info, attrs, children⟩, p => by
    rw [placed, List.map_cons, nodes_eq, map_node_placedEach children]
termination_by structural n => n

theorem map_node_placedEach : (ns : List Node) → ∀ p i, (placedEach p i ns).map Visit.node = ns.flatMap nodes
  | [], p, i => rfl
  | n :: ns, p, i => by
    rw [placedEach, List.map_append, map_node_placed n, map_node_placedEach ns, List.flatMap_cons]
termination_by structural ns => ns
end

mutual
theorem length_placed : (n : Node) → ∀ p, (n.placed p).length = n.size
  | ⟨kind, value, url, title, markup, info, attrs, children⟩, p => by
    rw [placed, List.length_cons, length_placedEach children, size]
termination_by structural n => n

theorem length_placedEach : (ns : List Node) → ∀ p i, (placedEach p i ns).length = sizes ns
  | [], p, i => rfl
  | n :: ns, p, i => by rw [placedEach, List.length_append, length_placed n, length_placedEach ns, sizes]
termination_by structural ns => ns
end

-- ---------------------------------------------------------------------------
-- Places
-- ---------------------------------------------------------------------------

theorem at?_cons (n : Node) (i : Nat) (p : Place) : n.at? (i :: p) = n.children[i]?.bind fun c => c.at? p := by
  rw [at?]
  cases n.children[i]? <;> rfl

theorem at?_append (n : Node) (p q : Place) : n.at? (p ++ q) = (n.at? p).bind fun m => m.at? q := by
  induction p generalizing n with
  | nil => rfl
  | cons i p ih =>
    rw [List.cons_append, at?_cons, at?_cons]
    cases n.children[i]? with
    | none => rfl
    | some c => exact ih c

theorem at?_child {n m : Node} {p : Place} (h : n.at? p = some m) (i : Nat) : n.at? (p ++ [i]) = m.children[i]? := by
  rw [at?_append, h, Option.bind_some, at?_cons]
  cases m.children[i]? <;> rfl

theorem modifyAt_append (f : Node → Node) (n : Node) (p q : Place) :
    n.modifyAt f (p ++ q) = n.modifyAt (fun m => m.modifyAt f q) p := by
  induction p generalizing n with
  | nil => rfl
  | cons i p ih =>
    rw [List.cons_append, modifyAt, modifyAt]
    simp only [ih]

theorem at?_modifyAt (f : Node → Node) (n : Node) (p : Place) : (n.modifyAt f p).at? p = (n.at? p).map f := by
  induction p generalizing n with
  | nil => rfl
  | cons i p ih =>
    rw [modifyAt, at?_cons, at?_cons, List.getElem?_modify_eq]
    cases n.children[i]? with
    | none => rfl
    | some c => exact ih c

/-- A node that takes the place of one with the same children changes nothing anywhere but there and above. -/
theorem at?_modifyAt_of_keeps {n old new : Node} {p q : Place} (hq : n.at? q = some old)
    (hkeeps : new.children = old.children) (hpq : ¬ p <+: q) : (n.modifyAt (fun _ => new) q).at? p = n.at? p := by
  induction q generalizing n p with
  | nil =>
    cases hq
    cases p with
    | nil => exact absurd List.nil_prefix hpq
    | cons i p => rw [modifyAt, at?_cons, at?_cons, hkeeps]
  | cons j q ih =>
    cases p with
    | nil => exact absurd List.nil_prefix hpq
    | cons i p =>
      rw [at?_cons, Option.bind_eq_some_iff] at hq
      obtain ⟨c, hc, hold⟩ := hq
      rw [modifyAt, at?_cons, at?_cons]
      dsimp only
      by_cases hij : j = i
      · subst hij
        rw [List.getElem?_modify_eq, hc]
        exact ih hold fun h => hpq (List.cons_prefix_cons.2 ⟨rfl, h⟩)
      · rw [List.getElem?_modify_ne _ _ hij]

-- ---------------------------------------------------------------------------
-- Document order
-- ---------------------------------------------------------------------------

mutual
/-- Every node of a tree at a place is listed with the place where it stands, and nothing else is. -/
theorem mem_placed_iff {v : Visit} : (n : Node) → ∀ p,
    v ∈ n.placed p ↔ ∃ q, v.place = p ++ q ∧ n.at? q = some v.node
  | ⟨kind, value, url, title, markup, info, attrs, children⟩, p => by
    rw [placed, List.mem_cons, mem_placedEach_iff children]
    constructor
    · rintro (rfl | ⟨j, q, hplace, hnode⟩)
      · exact ⟨[], (List.append_nil p).symm, rfl⟩
      · exact ⟨j :: q, by rw [hplace, Nat.zero_add], by rw [at?_cons, hnode]⟩
    · rintro ⟨_ | ⟨j, q⟩, hplace, hnode⟩
      · obtain ⟨place, node⟩ := v
        cases hnode
        rw [List.append_nil] at hplace
        exact .inl (congrArg (Visit.mk · _) hplace)
      · rw [at?_cons] at hnode
        exact .inr ⟨j, q, by rw [hplace, Nat.zero_add], hnode⟩
termination_by structural n => n

theorem mem_placedEach_iff {v : Visit} : (ns : List Node) → ∀ p i,
    v ∈ placedEach p i ns ↔ ∃ j q, v.place = p ++ (i + j) :: q ∧ (ns[j]?.bind fun c => c.at? q) = some v.node
  | [], p, i => by simp [placedEach]
  | n :: ns, p, i => by
    rw [placedEach, List.mem_append, mem_placed_iff n, mem_placedEach_iff ns]
    constructor
    · rintro (⟨q, hplace, hnode⟩ | ⟨j, q, hplace, hnode⟩)
      · exact ⟨0, q, by rw [hplace, List.append_assoc]; rfl, hnode⟩
      · exact ⟨j + 1, q, by rw [hplace, Nat.add_right_comm, Nat.add_assoc], hnode⟩
    · rintro ⟨_ | j, q, hplace, hnode⟩
      · exact .inl ⟨q, by rw [hplace, List.append_assoc]; rfl, hnode⟩
      · exact .inr ⟨j, q, by rw [hplace, Nat.add_right_comm, Nat.add_assoc], hnode⟩
termination_by structural ns => ns
end

mutual
/-- The nodes of a tree are listed in the order of their places. -/
theorem pairwise_placed : (n : Node) → ∀ p, (n.placed p).Pairwise fun v w => v.place < w.place
  | ⟨kind, value, url, title, markup, info, attrs, children⟩, p => by
    rw [placed, List.pairwise_cons]
    refine ⟨fun v hv => ?_, pairwise_placedEach children p 0⟩
    obtain ⟨j, q, hplace, -⟩ := (mem_placedEach_iff children p 0).1 hv
    dsimp only
    rw [hplace]
    conv_lhs => rw [← List.append_nil p]
    exact List.append_left_lt (List.nil_lt_cons _ _)
termination_by structural n => n

theorem pairwise_placedEach : (ns : List Node) → ∀ p i, (placedEach p i ns).Pairwise fun v w => v.place < w.place
  | [], p, i => List.Pairwise.nil
  | n :: ns, p, i => by
    rw [placedEach, List.pairwise_append]
    refine ⟨pairwise_placed n _, pairwise_placedEach ns p (i + 1), fun v hv w hw => ?_⟩
    obtain ⟨q, hplace, -⟩ := (mem_placed_iff n (p ++ [i])).1 hv
    obtain ⟨j, r, hplace', -⟩ := (mem_placedEach_iff ns p (i + 1)).1 hw
    rw [hplace, hplace', List.append_assoc]
    exact List.append_left_lt (List.cons_lt_cons_iff.2 (.inl (by omega)))
termination_by structural ns => ns
end

/-- What comes later in document order does not stand above. -/
theorem not_prefix_of_lt {p q : Place} (h : p < q) : ¬ q <+: p := fun hprefix => hprefix.le h

/-- The nodes of a tree are what stands at its places. -/
theorem mem_nodes_iff {n m : Node} : m ∈ n.nodes ↔ ∃ p, n.at? p = some m := by
  rw [← map_node_placed n [], List.mem_map]
  constructor
  · rintro ⟨v, hv, rfl⟩
    obtain ⟨p, -, hp⟩ := (mem_placed_iff n []).1 hv
    exact ⟨p, hp⟩
  · rintro ⟨p, hp⟩
    exact ⟨⟨p, m⟩, (mem_placed_iff n []).2 ⟨p, rfl, hp⟩, rfl⟩

-- ---------------------------------------------------------------------------
-- What is held at a place
-- ---------------------------------------------------------------------------

variable {select : Node → Bool} {revise : Node → Node} {n m : Node}

/-- A node without what stands below it. -/
def own (n : Node) : Node := { n with children := [] }

/-- A node is what it holds itself and what stands below it. -/
theorem eq_of_own_of_children (hown : n.own = m.own) (hchildren : n.children = m.children) : n = m := by
  cases n
  cases m
  simp only [own, mk.injEq] at hown hchildren ⊢
  simp [hown, hchildren]

/-- What the node at a place holds by itself. -/
def heldAt? (n : Node) (p : Place) : Option Node := (n.at? p).map own

/-- A property of what nodes hold by themselves is one of what is held at the places of a tree. -/
theorem forall_mem_nodes_iff {P : Node → Prop} (hP : ∀ n : Node, P n.own ↔ P n) (tree : Node) :
    (∀ n ∈ tree.nodes, P n) ↔ ∀ p held, tree.heldAt? p = some held → P held := by
  constructor
  · intro h p held hheld
    obtain ⟨n, hn, rfl⟩ := Option.map_eq_some_iff.1 hheld
    exact (hP n).2 (h n (mem_nodes_iff.2 ⟨p, hn⟩))
  · intro h n hn
    obtain ⟨p, hp⟩ := mem_nodes_iff.1 hn
    exact (hP n).1 (h p n.own (by rw [heldAt?, hp, Option.map_some]))

mutual
/-- Two trees that hold the same at every place are equal. -/
theorem eq_of_heldAt? : (n m : Node) → (∀ p, n.heldAt? p = m.heldAt? p) → n = m
  | ⟨kind, value, url, title, markup, info, attrs, children⟩, m, h => by
    refine eq_of_own_of_children (Option.some_inj.1 (h [])) (eq_of_heldAt?_each children m.children fun i p => ?_)
    have hp := h (i :: p)
    rwa [heldAt?, heldAt?, at?_cons, at?_cons] at hp
termination_by structural n => n

theorem eq_of_heldAt?_each : (ns ms : List Node) →
    (∀ (i : Nat) (p : Place),
      (ns[i]?.bind fun c => c.at? p).map own = (ms[i]?.bind fun c => c.at? p).map own) → ns = ms
  | [], [], _ => rfl
  | [], m :: ms, h => by
    have h0 := h 0 []
    cases h0
  | n :: ns, [], h => by
    have h0 := h 0 []
    cases h0
  | n :: ns, m :: ms, h => by
    rw [eq_of_heldAt? n m fun p => h 0 p, eq_of_heldAt?_each ns ms fun i p => h (i + 1) p]
termination_by structural ns => ns
end

/-- A node that takes the place of one with the same children changes what is held there and nowhere else. -/
theorem heldAt?_modifyAt_of_ne {old new : Node} {p q : Place} (hq : n.at? q = some old)
    (hkeeps : new.children = old.children) (hpq : p ≠ q) : (n.modifyAt (fun _ => new) q).heldAt? p = n.heldAt? p := by
  by_cases hprefix : p <+: q
  · obtain ⟨r, rfl⟩ := hprefix
    obtain ⟨i, r, rfl⟩ := List.exists_cons_of_ne_nil fun hr : r = [] => hpq (by rw [hr, List.append_nil])
    rw [heldAt?, heldAt?, modifyAt_append, at?_modifyAt, Option.map_map]
    rfl
  · rw [heldAt?, heldAt?, at?_modifyAt_of_keeps hq hkeeps hprefix]

-- ---------------------------------------------------------------------------
-- Revisions
-- ---------------------------------------------------------------------------

theorem reviseEach_eq_map (ns : List Node) : reviseEach select revise ns = ns.map (reviseAll select revise) := by
  induction ns with
  | nil => rfl
  | cons n ns ih => rw [reviseEach, ih, List.map_cons]

theorem children_reviseAll (n : Node) :
    (reviseAll select revise n).children = n.children.map (reviseAll select revise) := by
  obtain ⟨kind, value, url, title, markup, info, attrs, children⟩ := n
  rw [reviseAll, reviseEach_eq_map]
  split <;> rfl

theorem own_reviseAll (n : Node) : (reviseAll select revise n).own = if select n then (revise n).own else n.own := by
  obtain ⟨kind, value, url, title, markup, info, attrs, children⟩ := n
  rw [reviseAll]
  split <;> rfl

theorem at?_reviseAll (n : Node) (p : Place) :
    (reviseAll select revise n).at? p = (n.at? p).map (reviseAll select revise) := by
  induction p generalizing n with
  | nil => rfl
  | cons i p ih =>
    rw [at?_cons, at?_cons, children_reviseAll, List.getElem?_map]
    cases n.children[i]? with
    | none => rfl
    | some c => exact ih c

theorem heldAt?_reviseAll_eq (n : Node) (p : Place) : (reviseAll select revise n).heldAt? p
    = (n.at? p).map fun m => if select m then (revise m).own else m.own := by
  rw [heldAt?, at?_reviseAll, Option.map_map]
  exact congrArg (Option.map · _) (funext own_reviseAll)

/-- If what a revision makes of a node depends on nothing below it, it does so at each place by itself. -/
theorem heldAt?_reviseAll {treat : Node → Node}
    (h : ∀ n : Node, treat n.own = if select n then (revise n).own else n.own) (n : Node) (p : Place) :
    (reviseAll select revise n).heldAt? p = (n.heldAt? p).map treat := by
  rw [heldAt?_reviseAll_eq, heldAt?, Option.map_map]
  exact congrArg (Option.map · _) (funext fun m => (h m).symm)

/-- A revision that selects no node of a tree leaves the tree alone. -/
theorem reviseAll_eq_self {tree : Node} (h : ∀ n ∈ tree.nodes, select n = false) :
    reviseAll select revise tree = tree := by
  refine eq_of_heldAt? _ _ fun p => ?_
  rw [heldAt?_reviseAll_eq, heldAt?]
  exact Option.map_congr fun n hn => if_neg (by rw [h n (mem_nodes_iff.2 ⟨p, hn⟩)]; exact Bool.false_ne_true)

end MdxSafe.Node
