-- SUMMARY: What a run of passes makes of each node by itself, and what the passes report.
import MdxSafe.Proofs.Tree.Walk
import MdxSafe.Rewrite.Pass

/-!
# Runs of passes

A pass looks at nothing but the node at hand, so a run of passes treats every node by itself, wherever it stands
(`heldAt?_run`), and only the passes for its kind matter to it (`treat_filter`). If no pass runs twice, there is one
report of each pass, about the tree that the passes before it left (`mem_results_run_iff`). A tree is settled for some
passes when none of them has anything to do at any of its nodes; exactly then they all report that they changed nothing
(`results_run_iff`).
-/

namespace MdxSafe

variable {s : Settings}

-- ---------------------------------------------------------------------------
-- One pass
-- ---------------------------------------------------------------------------

namespace Pass

theorem children_reviseNode (p : Pass) (n : Node) : (p.reviseNode s n).children = n.children := by
  cases p <;> rfl

theorem kind_reviseNode (p : Pass) (n : Node) : (p.reviseNode s n).kind = n.kind := by
  cases p <;> rfl

theorem payload_reviseNode (p : Pass) (n : Node) : p.payload (p.reviseNode s n) = p.rewrite s (p.payload n) := by
  cases p <;> rfl

theorem own_reviseNode (p : Pass) (n : Node) : (p.reviseNode s n).own = p.reviseNode s n.own := by
  cases p <;> rfl

theorem changes_own (p : Pass) (n : Node) : p.changes s n.own = p.changes s n := by
  cases p <;> rfl

theorem changes_eq_false_iff {p : Pass} {n : Node} :
    p.changes s n = false ↔ (n.kind = p.target → p.rewrite s (p.payload n) = p.payload n) := by
  simp [changes]

theorem changes_eq_true_iff {p : Pass} {n : Node} :
    p.changes s n = true ↔ n.kind = p.target ∧ p.rewrite s (p.payload n) ≠ p.payload n := by
  simp [changes]

theorem changes_of_kind_ne {p : Pass} {n : Node} (h : p.target ≠ n.kind) : p.changes s n = false :=
  changes_eq_false_iff.2 fun hkind => absurd hkind.symm h

/-- What a pass makes of a node. -/
def treat (s : Settings) (p : Pass) (n : Node) : Node := if p.changes s n then p.reviseNode s n else n

theorem treat_of_unchanged {p : Pass} {n : Node} (h : p.changes s n = false) : p.treat s n = n := by
  rw [treat, if_neg (by rw [h]; exact Bool.false_ne_true)]

theorem treat_of_kind_ne {p : Pass} {n : Node} (h : p.target ≠ n.kind) : p.treat s n = n :=
  treat_of_unchanged (changes_of_kind_ne h)

theorem kind_treat (p : Pass) (n : Node) : (p.treat s n).kind = n.kind := by
  rw [treat]
  split
  · exact p.kind_reviseNode n
  · rfl

theorem payload_treat {p : Pass} {n : Node} (h : n.kind = p.target) :
    p.payload (p.treat s n) = p.rewrite s (p.payload n) := by
  cases hchanges : p.changes s n with
  | true => rw [treat, if_pos hchanges, payload_reviseNode]
  | false => rw [treat_of_unchanged hchanges, changes_eq_false_iff.1 hchanges h]

theorem tree_run (p : Pass) (tree : Node) :
    (p.run s tree).tree = Node.reviseAll (p.changes s) (p.reviseNode s) tree := by
  simp only [run, Node.walk_eq p.children_reviseNode]

theorem heldAt?_run (p : Pass) (tree : Node) (q : Place) :
    (p.run s tree).tree.heldAt? q = (tree.heldAt? q).map (p.treat s) := by
  rw [tree_run]
  refine Node.heldAt?_reviseAll (fun n => ?_) tree q
  rw [treat, changes_own, own_reviseNode]

/-- A pass reports no change just if it has nothing to do at any node. -/
theorem changed_run_iff (p : Pass) (tree : Node) :
    (p.run s tree).changed = false ↔ ∀ n ∈ tree.nodes, p.changes s n = false := by
  rw [← Node.walk_fst_eq_nil_iff (p.children_reviseNode (s := s)) tree]
  simp [run]

/-- A pass that reports no change made none. -/
theorem tree_run_of_unchanged {p : Pass} {tree : Node} (h : (p.run s tree).changed = false) :
    (p.run s tree).tree = tree :=
  Node.walk_snd_eq_self p.children_reviseNode ((p.changed_run_iff tree).1 h)

end Pass

namespace Rewrite

variable {p : Pass} {passes : List Pass} {tree : Node}

-- ---------------------------------------------------------------------------
-- Trees
-- ---------------------------------------------------------------------------

theorem tree_foldl (passes : List Pass) (o : Outcome) :
    (passes.foldl (Outcome.step s) o).tree = (run s passes o.tree).tree := by
  rw [run]
  generalize ho : (⟨[], o.tree, []⟩ : Outcome) = o'
  have htree : o.tree = o'.tree := by rw [← ho]
  clear ho
  induction passes generalizing o o' with
  | nil => exact htree
  | cons p passes ih =>
    refine ih _ _ ?_
    rw [Outcome.step, Outcome.step, htree]

theorem tree_run_append (before after : List Pass) (tree : Node) :
    (run s (before ++ after) tree).tree = (run s after (run s before tree).tree).tree := by
  rw [run, List.foldl_append, tree_foldl]
  rfl

theorem tree_run_cons (p : Pass) (passes : List Pass) (tree : Node) :
    (run s (p :: passes) tree).tree = (run s passes (p.run s tree).tree).tree :=
  tree_run_append [p] passes tree

/-- What passes make of a node, one after the other. -/
def treat (s : Settings) (passes : List Pass) (n : Node) : Node := passes.foldl (fun n p => p.treat s n) n

theorem treat_cons (p : Pass) (passes : List Pass) (n : Node) :
    treat s (p :: passes) n = treat s passes (p.treat s n) := rfl

theorem treat_append (before after : List Pass) (n : Node) :
    treat s (before ++ after) n = treat s after (treat s before n) := List.foldl_append

theorem kind_treat (passes : List Pass) (n : Node) : (treat s passes n).kind = n.kind := by
  induction passes generalizing n with
  | nil => rfl
  | cons p passes ih => rw [treat_cons, ih, Pass.kind_treat]

theorem changes_treat_of_kind_ne {n : Node} (h : p.target ≠ n.kind) (passes : List Pass) :
    p.changes s (treat s passes n) = false :=
  Pass.changes_of_kind_ne (by rwa [kind_treat])

/-- Only the passes for the kind of a node matter to it. -/
theorem treat_filter (passes : List Pass) (n : Node) :
    treat s (passes.filter fun p => p.target = n.kind) n = treat s passes n := by
  induction passes generalizing n with
  | nil => rfl
  | cons p passes ih =>
    by_cases h : p.target = n.kind
    · rw [List.filter_cons_of_pos (by simpa using h), treat_cons, treat_cons, ← ih, Pass.kind_treat]
    · rw [List.filter_cons_of_neg (by simpa using h), treat_cons, Pass.treat_of_kind_ne h, ih]

/-- A run treats what stands at each place by itself. -/
theorem heldAt?_run (passes : List Pass) (tree : Node) (q : Place) :
    (run s passes tree).tree.heldAt? q = (tree.heldAt? q).map (treat s passes) := by
  induction passes generalizing tree with
  | nil => exact Option.map_id'.symm
  | cons p passes ih =>
    rw [tree_run_cons, ih, Pass.heldAt?_run, Option.map_map]
    rfl

theorem heldAt?_run_eq_some_iff {q : Place} {held : Node} :
    (run s passes tree).tree.heldAt? q = some held ↔ ∃ n, tree.heldAt? q = some n ∧ treat s passes n = held := by
  rw [heldAt?_run, Option.map_eq_some_iff]

/-- Two runs end with the same tree just if they make the same of every node. -/
theorem tree_run_eq_iff {passes' : List Pass} :
    (run s passes tree).tree = (run s passes' tree).tree
      ↔ ∀ q n, tree.heldAt? q = some n → treat s passes n = treat s passes' n := by
  constructor
  · intro h q n hn
    have hheld := congrArg (fun tree => Node.heldAt? tree q) h
    rwa [heldAt?_run, heldAt?_run, hn, Option.map_some, Option.map_some, Option.some_inj] at hheld
  · intro h
    refine Node.eq_of_heldAt? _ _ fun q => ?_
    rw [heldAt?_run, heldAt?_run]
    exact Option.map_congr fun n hn => h q n hn

-- ---------------------------------------------------------------------------
-- Reports
-- ---------------------------------------------------------------------------

/-- What passes report, each about the tree that the ones before it left. -/
def reports (s : Settings) : List Pass → Node → Results
  | [], _ => []
  | p :: passes, tree => (p, (p.run s tree).changed) :: reports s passes (p.run s tree).tree

theorem map_fst_reports (passes : List Pass) (tree : Node) : (reports s passes tree).map Prod.fst = passes := by
  induction passes generalizing tree with
  | nil => rfl
  | cons p passes ih => rw [reports, List.map_cons, ih]

theorem mem_reports_iff {changed : Bool} : (p, changed) ∈ reports s passes tree
    ↔ ∃ before after, passes = before ++ p :: after ∧ changed = (p.run s (run s before tree).tree).changed := by
  induction passes generalizing tree with
  | nil => simp [reports]
  | cons q passes ih =>
    rw [reports, List.mem_cons, ih]
    constructor
    · rintro (h | ⟨before, after, rfl, rfl⟩)
      · obtain ⟨rfl, rfl⟩ := Prod.mk.inj h
        exact ⟨[], passes, rfl, rfl⟩
      · exact ⟨q :: before, after, rfl, by rw [tree_run_cons]⟩
    · rintro ⟨before, after, heq, rfl⟩
      cases before with
      | nil =>
        obtain ⟨rfl, rfl⟩ := List.cons_eq_cons.1 heq
        exact .inl rfl
      | cons q' before =>
        obtain ⟨rfl, rfl⟩ := List.cons_eq_cons.1 heq
        exact .inr ⟨before, after, rfl, by rw [tree_run_cons]⟩

theorem Results.set_of_notMem {changed : Bool} {rs : Results} (h : p ∉ rs.map Prod.fst) :
    rs.set p changed = rs ++ [(p, changed)] := by
  induction rs with
  | nil => rfl
  | cons r rs ih =>
    rw [List.map_cons, List.mem_cons, not_or] at h
    rw [Results.set, if_neg (Ne.symm h.1), ih h.2, List.cons_append]

theorem results_foldl (passes : List Pass) (o : Outcome) (hnodup : passes.Nodup)
    (hnew : ∀ p ∈ passes, p ∉ o.results.map Prod.fst) :
    (passes.foldl (Outcome.step s) o).results = o.results ++ reports s passes o.tree := by
  induction passes generalizing o with
  | nil => exact (List.append_nil _).symm
  | cons p passes ih =>
    rw [List.nodup_cons] at hnodup
    rw [List.forall_mem_cons] at hnew
    have hset : (o.step s p).results = o.results ++ [(p, (p.run s o.tree).changed)] :=
      Results.set_of_notMem hnew.1
    have hnew' : ∀ q ∈ passes, q ∉ (o.step s p).results.map Prod.fst := by
      intro q hq
      have hne : q ≠ p := fun h => hnodup.1 (h ▸ hq)
      rw [hset, List.map_append, List.mem_append, not_or]
      exact ⟨hnew.2 q hq, by simpa using hne⟩
    rw [List.foldl_cons, ih _ hnodup.2 hnew', hset, List.append_assoc]
    rfl

/-- When no pass runs twice, the results are the reports in order. -/
theorem results_run (hnodup : passes.Nodup) (tree : Node) : (run s passes tree).results = reports s passes tree := by
  rw [run, results_foldl passes _ hnodup (by simp), List.nil_append]

/-- Each pass reports about the tree that the passes before it left. -/
theorem mem_results_run_iff (hnodup : passes.Nodup) {changed : Bool} :
    (p, changed) ∈ (run s passes tree).results
      ↔ ∃ before after, passes = before ++ p :: after ∧ changed = (p.run s (run s before tree).tree).changed := by
  rw [results_run hnodup, mem_reports_iff]

/-- A pass that others ran before reports no change just if it has nothing to do at any node that they treated. -/
theorem changed_run_run_iff {before : List Pass} : (p.run s (run s before tree).tree).changed = false
    ↔ ∀ q n, tree.heldAt? q = some n → p.changes s (treat s before n) = false := by
  rw [Pass.changed_run_iff, Node.forall_mem_nodes_iff fun n => by rw [Pass.changes_own]]
  simp only [heldAt?_run_eq_some_iff]
  constructor
  · exact fun h q n hn => h q _ ⟨n, hn, rfl⟩
  · rintro h q _ ⟨n, hn, rfl⟩
    exact h q n hn

-- ---------------------------------------------------------------------------
-- Settled trees
-- ---------------------------------------------------------------------------

/-- Whether no pass has anything to do at any node of a tree. -/
def Settled (s : Settings) (passes : List Pass) (tree : Node) : Prop :=
  ∀ p ∈ passes, ∀ n ∈ tree.nodes, p.changes s n = false

instance (passes : List Pass) (tree : Node) : Decidable (Settled s passes tree) := by
  unfold Settled
  infer_instance

theorem settled_cons {p : Pass} {passes : List Pass} {tree : Node} :
    Settled s (p :: passes) tree ↔ (p.run s tree).changed = false ∧ Settled s passes tree := by
  rw [Settled, List.forall_mem_cons, Pass.changed_run_iff]
  rfl

/-- Passes run one after the other all report no change just if the tree is settled. -/
theorem results_run_iff {passes : List Pass} (hnodup : passes.Nodup) (tree : Node) :
    (∀ r ∈ (run s passes tree).results, r.2 = false) ↔ Settled s passes tree := by
  rw [results_run hnodup]
  clear hnodup
  induction passes generalizing tree with
  | nil => simp [reports, Settled]
  | cons p passes ih =>
    rw [reports, List.forall_mem_cons, ih, settled_cons]
    refine and_congr_right fun hchanged => ?_
    rw [Pass.tree_run_of_unchanged hchanged]

/-- Passes leave a settled tree as it is. -/
theorem tree_run_of_settled {passes : List Pass} {tree : Node} (h : Settled s passes tree) :
    (run s passes tree).tree = tree := by
  induction passes with
  | nil => rfl
  | cons p passes ih =>
    rw [settled_cons] at h
    rw [tree_run_cons, Pass.tree_run_of_unchanged h.1, ih h.2]

theorem nodup_all : Pass.all.Nodup := by decide

end Rewrite
end MdxSafe
