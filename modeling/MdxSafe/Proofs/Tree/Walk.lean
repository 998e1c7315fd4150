-- SUMMARY: A walk calls back for the nodes asked for, each once and in document order, and then has come to its end.
import MdxSafe.Proofs.Tree.Place

/-!
# Walks and trees

A walk has before it the nodes at its pending places and below them (`Walk.Faces`). A step takes the first of these off,
and calls back for it if it is asked for (`Walk.Faces.step`). So a walk makes as many steps as there are nodes and does
the same as calling back for the nodes asked for, one after the other in document order (`visit_eq`). This needs that the
callback leaves the children of a node alone.
-/

namespace MdxSafe.Node

variable {σ : Type} {predicate : Predicate} {callback : Callback σ} {select : Node → Bool} {revise : Node → Node}

-- ---------------------------------------------------------------------------
-- Calls
-- ---------------------------------------------------------------------------

/-- The callback leaves the children of the nodes that it is given alone. -/
def KeepsChildren (callback : Callback σ) : Prop :=
  ∀ v parent notes, (callback v parent notes).1.children = v.node.children

/-- Call back for a node with its parent as that is by now, and put what the callback makes of the node in its place. -/
def call (callback : Callback σ) (r : Node × σ) (v : Visit) : Node × σ :=
  let given := callback v (r.1.parentAt? v.place) r.2
  (r.1.modifyAt (fun _ => given.1) v.place, given.2)

/-- Call back for a node if it is asked for. -/
def meet (predicate : Predicate) (callback : Callback σ) (r : Node × σ) (v : Visit) : Node × σ :=
  if predicate.matches v.node then call callback r v else r

/-- The nodes to be visited in a tree, in document order, each standing at its place. -/
structure Reads (tree : Node) (vs : List Visit) : Prop where
  ordered : vs.Pairwise fun v w => v.place < w.place
  at? : ∀ v ∈ vs, tree.at? v.place = some v.node

namespace Reads

variable {tree : Node} {vs ws : List Visit} {v : Visit}

/-- Calling back for a node changes nothing that comes later. -/
theorem at?_call (hkeeps : KeepsChildren callback) (h : Reads tree (v :: vs)) (notes : σ) {q : Place}
    (hq : v.place < q) : (call callback (tree, notes) v).1.at? q = tree.at? q :=
  at?_modifyAt_of_keeps (h.at? v List.mem_cons_self) (hkeeps v _ notes) (not_prefix_of_lt hq)

theorem call (hkeeps : KeepsChildren callback) (h : Reads tree (v :: vs)) (notes : σ) :
    Reads (Node.call callback (tree, notes) v).1 vs where
  ordered := h.ordered.of_cons
  at? w hw := by
    rw [h.at?_call hkeeps notes ((List.pairwise_cons.1 h.ordered).1 w hw)]
    exact h.at? w (List.mem_cons_of_mem v hw)

theorem foldl_call (hkeeps : KeepsChildren callback) (notes : σ) (h : Reads tree (vs ++ ws)) :
    Reads (vs.foldl (Node.call callback) (tree, notes)).1 ws := by
  induction vs generalizing tree notes with
  | nil => exact h
  | cons v vs ih => exact ih _ (h.call hkeeps notes)

/-- At a place that no call is about, a tree holds in the end what it held before. -/
theorem heldAt?_of_ne (hkeeps : KeepsChildren callback) (notes : σ) (h : Reads tree vs) {p : Place}
    (hp : ∀ v ∈ vs, v.place ≠ p) : (vs.foldl (Node.call callback) (tree, notes)).1.heldAt? p = tree.heldAt? p := by
  induction vs generalizing tree notes with
  | nil => rfl
  | cons v vs ih =>
    rw [List.foldl_cons]
    refine (ih _ (h.call hkeeps notes) fun w hw => hp w (List.mem_cons_of_mem v hw)).trans ?_
    exact heldAt?_modifyAt_of_ne (h.at? v List.mem_cons_self) (hkeeps v _ notes) (hp v List.mem_cons_self).symm

/-- At the place that a call is about, a tree holds in the end what the call made of the node. -/
theorem heldAt?_place (hkeeps : KeepsChildren callback) (notes : σ) (h : Reads tree (vs ++ v :: ws)) :
    ((vs ++ v :: ws).foldl (Node.call callback) (tree, notes)).1.heldAt? v.place
      = let r := vs.foldl (Node.call callback) (tree, notes)
        some (callback v (r.1.parentAt? v.place) r.2).1.own := by
  have hrest := h.foldl_call hkeeps notes
  rw [List.foldl_append, List.foldl_cons]
  refine ((hrest.call hkeeps _).heldAt?_of_ne hkeeps _ fun w hw heq => ?_).trans ?_
  · have hlt := (List.pairwise_cons.1 hrest.ordered).1 w hw
    exact List.lt_irrefl _ (heq ▸ hlt)
  · rw [heldAt?, Node.call]
    dsimp only
    rw [at?_modifyAt, hrest.at? v List.mem_cons_self]
    rfl

/-- A node that was met has the children that it had. -/
theorem exists_at?_meet (hkeeps : KeepsChildren callback) (h : Reads tree (v :: vs)) (predicate : Predicate) (notes : σ) :
    ∃ n, (Node.meet predicate callback (tree, notes) v).1.at? v.place = some n ∧ n.children = v.node.children := by
  have hv := h.at? v List.mem_cons_self
  rw [Node.meet]
  split
  · refine ⟨_, ?_, hkeeps v (tree.parentAt? v.place) notes⟩
    rw [Node.call]
    dsimp only
    rw [at?_modifyAt, hv, Option.map_some]
  · exact ⟨v.node, hv, rfl⟩

theorem at?_meet (hkeeps : KeepsChildren callback) (h : Reads tree (v :: vs)) (predicate : Predicate) (notes : σ)
    {q : Place} (hq : v.place < q) : (Node.meet predicate callback (tree, notes) v).1.at? q = tree.at? q := by
  rw [Node.meet]
  split
  · exact h.at?_call hkeeps notes hq
  · rfl

theorem meet (hkeeps : KeepsChildren callback) (h : Reads tree (v :: vs)) (predicate : Predicate) (notes : σ) :
    Reads (Node.meet predicate callback (tree, notes) v).1 vs := by
  rw [Node.meet]
  split
  · exact h.call hkeeps notes
  · exact ⟨h.ordered.of_cons, fun w hw => h.at? w (List.mem_cons_of_mem v hw)⟩

end Reads

theorem reads_placed (tree : Node) : Reads tree (tree.placed []) where
  ordered := pairwise_placed tree []
  at? v hv := by
    obtain ⟨q, hplace, hnode⟩ := (mem_placed_iff tree []).1 hv
    rw [hplace, List.nil_append, hnode]

-- ---------------------------------------------------------------------------
-- Steps
-- ---------------------------------------------------------------------------

/-- The place of the parent; the root has none. -/
def above? : Place → Option Place
  | [] => none
  | i :: p => some (i :: p).dropLast

theorem above?_concat (p : Place) (i : Nat) : above? (p ++ [i]) = some p := by
  cases p with
  | nil => rfl
  | cons j p => rw [List.cons_append, above?, ← List.cons_append, List.dropLast_concat]

theorem bind_above? (tree : Node) (p : Place) : (above? p).bind tree.at? = tree.parentAt? p := by
  cases p <;> rfl

/-- The node at a place and what stands below it, in document order. -/
def nodesAt (tree : Node) (p : Place) : List Visit := ((tree.at? p).map (placed p)).getD []

theorem nodesAt_eq {tree n : Node} {p : Place} (h : tree.at? p = some n) : nodesAt tree p = n.placed p := by
  rw [nodesAt, h, Option.map_some, Option.getD_some]

theorem flatMap_nodesAt {tree : Node} {p : Place} {ns : List Node} {k : Nat}
    (h : ∀ i, i < ns.length → tree.at? (p ++ [k + i]) = ns[i]?) :
    (List.range' k ns.length).flatMap (fun i => nodesAt tree (p ++ [i])) = placedEach p k ns := by
  induction ns generalizing k with
  | nil => rfl
  | cons n ns ih =>
    have hn : tree.at? (p ++ [k]) = some n := h 0 (Nat.zero_lt_succ _)
    rw [List.length_cons, List.range'_succ, List.flatMap_cons, nodesAt_eq hn, placedEach, ih fun i hi => ?_]
    rw [Nat.add_assoc, Nat.add_comm 1 i]
    exact h (i + 1) (Nat.succ_lt_succ hi)

namespace Walk

/-- A walk has these nodes before it: they stand at its pending places and below them, and the pending places come with
those of their parents. -/
structure Faces (w : Walk σ) (vs : List Visit) : Prop where
  ahead : (w.pending.flatMap fun q => nodesAt w.tree q.1) = vs
  present : ∀ q ∈ w.pending, (w.tree.at? q.1).isSome
  above : ∀ q ∈ w.pending, q.2 = above? q.1
  reads : Reads w.tree vs

theorem faces_start (tree : Node) (notes : σ) : (start tree notes).Faces (tree.placed []) where
  ahead := by
    rw [start, List.flatMap_singleton]
    exact nodesAt_eq rfl
  present q hq := by
    cases List.mem_singleton.1 hq
    rfl
  above q hq := by
    cases List.mem_singleton.1 hq
    rfl
  reads := reads_placed tree

/-- A step comes to the first place that is pending and puts those of the children there in front. -/
theorem step_eq {p : Place} {n : Node} {tree : Node} (hn : tree.at? p = some n) (notes : σ)
    (pending : List (Place × Option Place)) :
    step predicate callback ⟨(p, above? p) :: pending, tree, notes⟩
      = let r := meet predicate callback (tree, notes) ⟨p, n⟩
        let below := ((r.1.at? p).map Node.children).getD []
        ⟨(List.range below.length).map (fun i => (p ++ [i], some p)) ++ pending, r.1, r.2⟩ := by
  rw [step]
  dsimp only
  rw [hn, bind_above?]
  rfl

/-- The next place of a walk is that of the first node before it, and what else is pending comes later. -/
theorem Faces.exists_pending {w : Walk σ} {v : Visit} {vs : List Visit} (h : w.Faces (v :: vs)) :
    ∃ pending, w.pending = (v.place, above? v.place) :: pending ∧ w.tree.at? v.place = some v.node
      ∧ (placedEach v.place 0 v.node.children ++ pending.flatMap fun q => nodesAt w.tree q.1) = vs
      ∧ ∀ q ∈ pending, v.place < q.1 := by
  obtain ⟨ahead, present, above, reads⟩ := h
  cases hpending : w.pending with
  | nil =>
    rw [hpending] at ahead
    cases ahead
  | cons q pending =>
    obtain ⟨p, up⟩ := q
    rw [hpending] at ahead present above
    obtain rfl : up = above? p := above _ List.mem_cons_self
    obtain ⟨n, hn⟩ := Option.isSome_iff_exists.1 (present _ List.mem_cons_self)
    rw [List.flatMap_cons, nodesAt_eq hn, placed_eq, List.cons_append] at ahead
    obtain ⟨rfl, hvs⟩ := List.cons_eq_cons.1 ahead
    refine ⟨pending, rfl, hn, hvs, fun q hq => ?_⟩
    obtain ⟨c, hc⟩ := Option.isSome_iff_exists.1 (present q (List.mem_cons_of_mem _ hq))
    have hmem : (⟨q.1, c⟩ : Visit) ∈ vs := by
      rw [← hvs]
      refine List.mem_append_right _ (List.mem_flatMap.2 ⟨q, hq, ?_⟩)
      rw [nodesAt_eq hc, placed_eq]
      exact List.mem_cons_self
    exact (List.pairwise_cons.1 reads.ordered).1 _ hmem

variable (predicate : Predicate)

/-- A step takes the first node off what a walk has before it. -/
theorem Faces.step (hkeeps : KeepsChildren callback) {w : Walk σ} {v : Visit} {vs : List Visit}
    (h : w.Faces (v :: vs)) : (w.step predicate callback).Faces vs
      ∧ ((w.step predicate callback).tree, (w.step predicate callback).notes)
        = meet predicate callback (w.tree, w.notes) v := by
  obtain ⟨pending, hpending, hv, hvs, hlater⟩ := h.exists_pending
  obtain ⟨_, tree, notes⟩ := w
  obtain ⟨-, present, above, reads⟩ := h
  cases hpending
  dsimp only at hv hvs present above reads ⊢
  obtain ⟨m, hm, hchildren⟩ := reads.exists_at?_meet hkeeps predicate notes
  -- Whatever else is pending comes later, so the step changes nothing there.
  have hrest := fun q hq => reads.at?_meet hkeeps predicate notes (hlater q hq)
  have hreads := reads.meet hkeeps predicate notes
  rw [step_eq hv]
  generalize meet predicate callback (tree, notes) v = r at hm hrest hreads ⊢
  dsimp only
  rw [hm, Option.map_some, Option.getD_some, hchildren]
  have hchild : ∀ i, r.1.at? (v.place ++ [i]) = v.node.children[i]? := fun i => by rw [at?_child hm, hchildren]
  refine ⟨⟨?ahead, ?present, ?above, hreads⟩, rfl⟩
  case ahead =>
    rw [List.flatMap_append, List.flatMap_map, ← hvs, List.range_eq_range']
    congr 1
    · exact flatMap_nodesAt fun i _ => by rw [Nat.zero_add, hchild]
    · exact List.flatMap_congr fun q hq => by rw [nodesAt, nodesAt, hrest q hq]
  case present =>
    intro q hq
    rcases List.mem_append.1 hq with hq | hq
    · obtain ⟨i, hi, rfl⟩ := List.mem_map.1 hq
      rw [hchild, List.getElem?_eq_getElem (List.mem_range.1 hi)]
      rfl
    · rw [hrest q hq]
      exact present q (List.mem_cons_of_mem _ hq)
  case above =>
    intro q hq
    rcases List.mem_append.1 hq with hq | hq
    · obtain ⟨i, -, rfl⟩ := List.mem_map.1 hq
      exact (above?_concat v.place i).symm
    · exact above q (List.mem_cons_of_mem _ hq)

/-- A walk that has nothing before it has come to its end. -/
theorem Faces.pending_eq_nil {w : Walk σ} (h : w.Faces []) : w.pending = [] := by
  refine List.eq_nil_iff_forall_not_mem.2 fun q hq => ?_
  obtain ⟨n, hn⟩ := Option.isSome_iff_exists.1 (h.present q hq)
  have hnil := List.flatMap_eq_nil_iff.1 h.ahead q hq
  rw [nodesAt_eq hn, placed_eq] at hnil
  cases hnil

theorem run_of_pending_eq_nil {w : Walk σ} (h : w.pending = []) (limit : Nat) : w.run predicate callback limit = w := by
  induction limit with
  | zero => rfl
  | succ limit ih =>
    have hstep : w.step predicate callback = w := by rw [step, h]
    rw [run, hstep, ih]

/-- A walk calls back for the nodes that it has before it, and then nothing is pending, however far it may go. -/
theorem Faces.run (hkeeps : KeepsChildren callback) {w : Walk σ} {vs : List Visit} (h : w.Faces vs) (limit : Nat) :
    (w.run predicate callback (vs.length + limit)).pending = []
      ∧ ((w.run predicate callback (vs.length + limit)).tree, (w.run predicate callback (vs.length + limit)).notes)
        = (vs.filter fun v => predicate.matches v.node).foldl (call callback) (w.tree, w.notes) := by
  induction vs generalizing w with
  | nil =>
    rw [run_of_pending_eq_nil predicate h.pending_eq_nil]
    exact ⟨h.pending_eq_nil, rfl⟩
  | cons v vs ih =>
    obtain ⟨hfaces, hstep⟩ := h.step predicate hkeeps
    obtain ⟨hend, hrun⟩ := ih hfaces
    rw [List.length_cons, Nat.add_right_comm, Walk.run]
    refine ⟨hend, hrun.trans ?_⟩
    rw [hstep, meet]
    by_cases hv : predicate.matches v.node = true
    · rw [if_pos hv, List.filter_cons, if_pos hv, List.foldl_cons]
    · rw [if_neg hv, List.filter_cons, if_neg hv]

end Walk

-- ---------------------------------------------------------------------------
-- Walks
-- ---------------------------------------------------------------------------

/-- The nodes of a tree that are asked for, in document order, each with its place. -/
def found (predicate : Predicate) (tree : Node) : List Visit :=
  (tree.placed []).filter fun v => predicate.matches v.node

theorem reads_found (predicate : Predicate) (tree : Node) : Reads tree (found predicate tree) where
  ordered := (reads_placed tree).ordered.filter _
  at? v hv := (reads_placed tree).at? v (List.mem_of_mem_filter hv)

theorem mem_found_iff {tree : Node} {v : Visit} :
    v ∈ found predicate tree ↔ tree.at? v.place = some v.node ∧ predicate.matches v.node = true := by
  rw [found, List.mem_filter, mem_placed_iff]
  simp

theorem pending_run_start (hkeeps : KeepsChildren callback) (tree : Node) (notes : σ) (limit : Nat) :
    ((Walk.start tree notes).run predicate callback (tree.size + limit)).pending = [] := by
  rw [← length_placed tree []]
  exact ((Walk.faces_start tree notes).run predicate hkeeps limit).1

/-- A walk over a tree calls back for the nodes asked for, one after the other in document order. -/
theorem visit_eq (hkeeps : KeepsChildren callback) (tree : Node) (notes : σ) :
    tree.visit predicate callback notes = (found predicate tree).foldl (call callback) (tree, notes) := by
  rw [visit, ← length_placed tree []]
  exact ((Walk.faces_start tree notes).run predicate hkeeps 0).2

theorem foldl_call_snd {α : Type} {note : Visit → α} {callback : Callback (List α)}
    (hnote : ∀ v parent notes, (callback v parent notes).2 = notes ++ [note v]) (vs : List Visit)
    (r : Node × List α) : (vs.foldl (call callback) r).2 = r.2 ++ vs.map note := by
  induction vs generalizing r with
  | nil => rw [List.foldl_nil, List.map_nil, List.append_nil]
  | cons v vs ih => rw [List.foldl_cons, ih, call, hnote, List.append_assoc, List.map_cons, List.singleton_append]

theorem map_node_found (predicate : Predicate) (tree : Node) :
    (found predicate tree).map Visit.node = tree.nodes.filter predicate.matches := by
  rw [found, ← map_node_placed tree [], List.filter_map]
  rfl

/-- What is collected are the nodes asked for in document order. -/
theorem collect_eq (predicate : Predicate) (tree : Node) : tree.collect predicate = tree.nodes.filter predicate.matches := by
  rw [collect, visit_eq fun _ _ _ => rfl, foldl_call_snd fun _ _ _ => rfl, List.nil_append, map_node_found]

/-- A walk over a tree meets the selected nodes in document order and revises all of them. -/
theorem walk_eq (hrevise : ∀ n, (revise n).children = n.children) (tree : Node) :
    walk select revise tree = (found (.test select) tree, reviseAll select revise tree) := by
  have hkeeps : KeepsChildren fun v _ seen => (revise v.node, seen ++ [v]) := fun v _ _ => hrevise v.node
  have hreads := reads_found (.test select) tree
  rw [walk, visit_eq hkeeps]
  refine Prod.ext ?_ (eq_of_heldAt? _ _ fun p => ?_)
  · rw [foldl_call_snd (fun _ _ _ => rfl), List.nil_append, List.map_id']
  · rw [heldAt?_reviseAll_eq]
    by_cases hp : ∃ v ∈ found (.test select) tree, v.place = p
    · obtain ⟨v, hv, rfl⟩ := hp
      obtain ⟨hat, (hs : select v.node = true)⟩ := mem_found_iff.1 hv
      obtain ⟨done, rest, hfound⟩ := List.append_of_mem hv
      rw [hfound] at hreads ⊢
      rw [hat, Option.map_some, if_pos hs]
      exact hreads.heldAt?_place hkeeps []
    · rw [hreads.heldAt?_of_ne hkeeps [] fun v hv heq => hp ⟨v, hv, heq⟩, heldAt?]
      exact Option.map_congr fun n hn => (if_neg fun hs => hp ⟨⟨p, n⟩, mem_found_iff.2 ⟨hn, hs⟩, rfl⟩).symm

-- ---------------------------------------------------------------------------
-- Walks that find nothing
-- ---------------------------------------------------------------------------

/-- A walk meets nothing just if no node is selected. -/
theorem walk_fst_eq_nil_iff (hrevise : ∀ n, (revise n).children = n.children) (tree : Node) :
    (walk select revise tree).1 = [] ↔ ∀ n ∈ tree.nodes, select n = false := by
  rw [walk_eq hrevise, ← List.map_eq_nil_iff, map_node_found, List.filter_eq_nil_iff]
  simp [Predicate.matches]

/-- A walk that meets nothing leaves the tree alone. -/
theorem walk_snd_eq_self (hrevise : ∀ n, (revise n).children = n.children) {tree : Node}
    (h : ∀ n ∈ tree.nodes, select n = false) : (walk select revise tree).2 = tree := by
  rw [walk_eq hrevise]
  exact reviseAll_eq_self h

-- ---------------------------------------------------------------------------
-- The whole walk
-- ---------------------------------------------------------------------------

/-- A walk comes to its end and calls back once for each node asked for, in document order: that of the places, in which a
node comes before what stands below it. The callback is given the node as it was, the parent at the place above as it is by
then, and the notes of the calls before. In the end each of these nodes is what its call made of it, and every other place
holds what it held. The nodes collected are the nodes asked for in this order. -/
theorem visit_calls (predicate : Predicate) (hkeeps : KeepsChildren callback) (tree : Node) (notes : σ) :
    (∀ v, v ∈ found predicate tree ↔ tree.at? v.place = some v.node ∧ predicate.matches v.node = true)
      ∧ ((found predicate tree).Pairwise fun v w => v.place < w.place)
      ∧ (∀ limit, ((Walk.start tree notes).run predicate callback (tree.size + limit)).pending = [])
      ∧ tree.visit predicate callback notes = (found predicate tree).foldl (call callback) (tree, notes)
      ∧ (∀ done v rest, found predicate tree = done ++ v :: rest →
        let r := done.foldl (call callback) (tree, notes)
        (tree.visit predicate callback notes).1.heldAt? v.place
          = some (callback v (r.1.parentAt? v.place) r.2).1.own)
      ∧ (∀ p, (∀ v ∈ found predicate tree, v.place ≠ p) →
        (tree.visit predicate callback notes).1.heldAt? p = tree.heldAt? p)
      ∧ tree.collect predicate = (found predicate tree).map Visit.node := by
  have hreads := reads_found predicate tree
  refine ⟨fun v => mem_found_iff, hreads.ordered, pending_run_start hkeeps tree notes, visit_eq hkeeps tree notes, ?_, ?_, ?_⟩
  · intro done v rest hfound
    rw [visit_eq hkeeps, hfound]
    rw [hfound] at hreads
    exact hreads.heldAt?_place hkeeps notes
  · intro p hp
    rw [visit_eq hkeeps]
    exact hreads.heldAt?_of_ne hkeeps notes hp
  · rw [collect_eq, map_node_found]

/-- A callback that counts its calls, and writes before what the parent holds by then as many marks as there were calls. -/
theorem visit_calls_count :
    let mark : Callback Nat := fun v parent calls =>
      ({ v.node with value := some (List.replicate calls '*' ++ (parent.map payload).getD "-".toList) }, calls + 1)
    let tree : Node := { kind := .strong, children := [{ kind := .text }, { kind := .link, children := [{ kind := .text }] }] }
    KeepsChildren mark ∧ tree.visit (.kinds [.strong, .text]) mark 0
      = ({ kind := .strong, value := some "-".toList, children := [{ kind := .text, value := some "*-".toList },
            { kind := .link, children := [{ kind := .text, value := some "**".toList }] }] }, 3) := by
  intro mark tree
  have hkeeps : KeepsChildren mark := fun v parent calls => rfl
  exact ⟨hkeeps, (visit_calls (.kinds [.strong, .text]) hkeeps tree 0).2.2.2.1⟩

end MdxSafe.Node
