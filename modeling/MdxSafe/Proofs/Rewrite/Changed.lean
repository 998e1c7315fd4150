-- SUMMARY: What passes report is exact: a change is reported just if there is one, and no later pass takes it back.
import MdxSafe.Document
import MdxSafe.Proofs.Rewrite.Payload
import MdxSafe.Proofs.Rewrite.Run

/-!
# Exact reports

A node that a pass changes loses weight, and only closing void tags leaves the weight as it is. So passes of which
none runs twice cannot lead a node back to what it was: they would have to close void tags twice. A run leaves a
tree as it is just if no pass has anything to do in it (`tree_run_eq_self_iff`).
-/

namespace MdxSafe

variable {s : Settings}

-- ---------------------------------------------------------------------------
-- One pass
-- ---------------------------------------------------------------------------

/-- What a node has for passes to take away. -/
def Node.weight (n : Node) : Nat := n.payload.count '<' + n.target.length

namespace Pass

variable {p : Pass} {n : Node}

/-- A pass that has something to do at a node makes it another one. -/
theorem treat_eq_self_iff : p.treat s n = n ↔ p.changes s n = false := by
  refine ⟨fun h => changes_eq_false_iff.2 fun hkind => ?_, treat_of_unchanged⟩
  rw [← payload_treat hkind, h]

theorem weight_treat_lt (hp : p ≠ closeVoidTags) (h : p.changes s n = true) :
    (p.treat s n).weight < n.weight := by
  have hlt := weight_rewrite_lt hp (changes_eq_true_iff.1 h).2
  rw [treat, if_pos h]
  cases p with
  | escapeText => exact Nat.add_lt_add_right hlt n.target.length
  | convertComments => exact Nat.add_lt_add_right hlt n.target.length
  | closeVoidTags => exact absurd rfl hp
  | rewriteLinks => exact Nat.add_lt_add_left hlt (n.payload.count '<')

theorem weight_treat_closeVoidTags (n : Node) : (closeVoidTags.treat s n).weight = n.weight := by
  rw [treat]
  split
  · exact congrArg (· + n.target.length) (count_rewrite_closeVoidTags s n.payload)
  · rfl

/-- A pass leaves a node as it is, or takes some of its weight, unless it closes void tags. -/
theorem treat_eq_self_or_weight_lt (hp : p ≠ closeVoidTags) (n : Node) :
    p.treat s n = n ∨ (p.treat s n).weight < n.weight := by
  cases h : p.changes s n with
  | false => exact .inl (treat_of_unchanged h)
  | true => exact .inr (weight_treat_lt hp h)

theorem weight_treat_le (p : Pass) (n : Node) : (p.treat s n).weight ≤ n.weight := by
  by_cases hp : p = closeVoidTags
  · rw [hp, weight_treat_closeVoidTags]
  · rcases treat_eq_self_or_weight_lt hp n with h | h
    · rw [h]
    · exact Nat.le_of_lt h

end Pass

-- ---------------------------------------------------------------------------
-- Several passes
-- ---------------------------------------------------------------------------

namespace Rewrite

variable {passes : List Pass} {tree : Node}

theorem weight_treat_le (passes : List Pass) (n : Node) : (treat s passes n).weight ≤ n.weight := by
  induction passes generalizing n with
  | nil => exact Nat.le_refl _
  | cons p passes ih => exact (ih _).trans (p.weight_treat_le n)

theorem treat_eq_self_or_weight_lt (h : Pass.closeVoidTags ∉ passes) (n : Node) :
    treat s passes n = n ∨ (treat s passes n).weight < n.weight := by
  induction passes generalizing n with
  | nil => exact .inl rfl
  | cons p passes ih =>
    rw [List.mem_cons, not_or] at h
    rw [treat_cons]
    rcases Pass.treat_eq_self_or_weight_lt (Ne.symm h.1) n with hself | hlt
    · rw [hself]
      exact ih h.2 n
    · exact .inr ((weight_treat_le passes _).trans_lt hlt)

/-- Passes of which none runs twice leave a node as it is just if none has anything to do at it. -/
theorem treat_eq_self_iff (hnodup : passes.Nodup) {n : Node} :
    treat s passes n = n ↔ ∀ p ∈ passes, p.changes s n = false := by
  induction passes with
  | nil => simp [treat]
  | cons p passes ih =>
    rw [List.nodup_cons] at hnodup
    rw [List.forall_mem_cons, treat_cons]
    constructor
    · intro h
      have hself : p.treat s n = n := by
        by_cases hp : p = .closeVoidTags
        · -- what closing void tags made of the node has its weight, so no other pass did anything to that
          subst hp
          rcases treat_eq_self_or_weight_lt (s := s) hnodup.1 (Pass.closeVoidTags.treat s n) with hrest | hlt
          · exact hrest.symm.trans h
          · rw [h, Pass.weight_treat_closeVoidTags] at hlt
            exact absurd hlt (Nat.lt_irrefl _)
        · rcases Pass.treat_eq_self_or_weight_lt (s := s) hp n with hself | hlt
          · exact hself
          · have hle := weight_treat_le (s := s) passes (p.treat s n)
            rw [h] at hle
            exact absurd hlt (Nat.not_lt_of_le hle)
      rw [hself] at h
      exact ⟨Pass.treat_eq_self_iff.1 hself, (ih hnodup.2).1 h⟩
    · rintro ⟨hself, h⟩
      rw [Pass.treat_of_unchanged hself]
      exact (ih hnodup.2).2 h

/-- Passes of which none runs twice leave a tree as it is just if it is settled for them. -/
theorem tree_run_eq_self_iff (hnodup : passes.Nodup) : (run s passes tree).tree = tree ↔ Settled s passes tree := by
  have hnil : tree = (run s [] tree).tree := rfl
  have hheld : Settled s passes tree
      ↔ ∀ q held, tree.heldAt? q = some held → ∀ p ∈ passes, p.changes s held = false := by
    rw [← Node.forall_mem_nodes_iff (fun n => by simp only [Pass.changes_own]) tree]
    exact ⟨fun h n hn p hp => h p hp n hn, fun h p hp n hn => h n hn p hp⟩
  rw [hheld]
  nth_rewrite 2 [hnil]
  rw [tree_run_eq_iff]
  exact forall₃_congr fun q held _ => treat_eq_self_iff hnodup

/-- A pass reports a change just if it makes one. -/
theorem changed_run_eq_true_iff (p : Pass) (tree : Node) : (p.run s tree).changed = true ↔ (p.run s tree).tree ≠ tree := by
  have hsingle : (run s [p] tree).tree = (p.run s tree).tree := rfl
  rw [← hsingle, ne_eq, tree_run_eq_self_iff (List.pairwise_singleton _ p), settled_cons, ← Bool.not_eq_false]
  simp [Settled]

/-- Some pass reports a change just if the tree ends up another one. -/
theorem results_changed_iff (hnodup : passes.Nodup) :
    (run s passes tree).results.changed = true ↔ (run s passes tree).tree ≠ tree := by
  rw [ne_eq, tree_run_eq_self_iff hnodup, ← results_run_iff hnodup, Results.changed, List.any_eq_true]
  simp

/-- What passes changed at a place, others that run after them do not change back. -/
theorem heldAt?_run_append_ne {before after : List Pass} (hnodup : (before ++ after).Nodup) {q : Place}
    (h : (run s before tree).tree.heldAt? q ≠ tree.heldAt? q) :
    (run s (before ++ after) tree).tree.heldAt? q ≠ tree.heldAt? q := by
  rw [heldAt?_run] at h ⊢
  cases hheld : tree.heldAt? q with
  | none =>
    rw [hheld] at h
    exact absurd rfl h
  | some n =>
    rw [hheld, Option.map_some, ne_eq, Option.some_inj, treat_eq_self_iff (List.nodup_append.1 hnodup).1] at h
    rw [Option.map_some, ne_eq, Option.some_inj, treat_eq_self_iff hnodup]
    exact fun hall => h fun p hp => hall p (List.mem_append_left after hp)

/-- Passes of which none runs twice report once each, and exactly: a pass that it changed the tree if it did, all of
them together that some did if the tree ends up another one. What passes have changed at a place is never changed back
by others that follow. So a document counts as changed just if the passes changed its tree. -/
theorem reports_exact (s : Settings) {passes : List Pass} (hnodup : passes.Nodup) (tree : Node) :
    (run s passes tree).results.map Prod.fst = passes
      ∧ (∀ before p after, passes = before ++ p :: after → ∃ changed, (p, changed) ∈ (run s passes tree).results
          ∧ (changed = true ↔ (run s (before ++ [p]) tree).tree ≠ (run s before tree).tree))
      ∧ ((run s passes tree).results.changed = true ↔ (run s passes tree).tree ≠ tree)
      ∧ (∀ before mid after, passes = before ++ (mid ++ after) → ∀ q,
          (run s (before ++ mid) tree).tree.heldAt? q ≠ (run s before tree).tree.heldAt? q →
          (run s passes tree).tree.heldAt? q ≠ (run s before tree).tree.heldAt? q)
      ∧ ∀ d : Document, (d.runPasses s).1.changed = true ↔ (d.runPasses s).1.tree ≠ d.tree := by
  refine ⟨?_, fun before p after h => ?_, results_changed_iff hnodup, fun before mid after h q hne => ?_, fun d => ?_⟩
  · rw [results_run hnodup, map_fst_reports]
  · refine ⟨_, (mem_results_run_iff hnodup).2 ⟨before, after, h, rfl⟩, ?_⟩
    rw [changed_run_eq_true_iff, tree_run_append]
    rfl
  · subst h
    rw [tree_run_append] at hne ⊢
    exact heldAt?_run_append_ne (List.nodup_append.1 hnodup).2.1 hne
  · exact results_changed_iff nodup_all

/-- Closing a tag lengthens what converting a comment shortens; both are reported, and the tree is another one. -/
theorem reports_exact_html :
    let tree : Node := { kind := .html, value := some "<br><!-- a -->".toList }
    let after := run {} [.closeVoidTags, .convertComments, .rewriteLinks] tree
    after.results = [(.closeVoidTags, true), (.convertComments, true), (.rewriteLinks, false)] ∧ after.tree ≠ tree := by
  intro tree after
  have hresults : after.results = [(.closeVoidTags, true), (.convertComments, true), (.rewriteLinks, false)] := by
    decide +kernel
  have hnodup : [Pass.closeVoidTags, .convertComments, .rewriteLinks].Nodup := by decide
  exact ⟨hresults, (reports_exact {} hnodup tree).2.2.1.1 (by rw [hresults]; rfl)⟩

end Rewrite
end MdxSafe
