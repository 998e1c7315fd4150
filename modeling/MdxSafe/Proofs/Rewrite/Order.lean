-- SUMMARY: The order of passes matters only among those for one kind of nodes.
import Mathlib.Data.List.Nodup
import MdxSafe.Proofs.Rewrite.Run
import MdxSafe.Registry

/-!
# Orders of passes

A node is treated by the passes for its kind alone. So two runs whose passes for each kind come in the same order end
with the same tree, and each pass reports the same in both. Only HTML has more than one pass.
-/

namespace MdxSafe.Rewrite

variable {s : Settings} {p : Pass} {passes passes' : List Pass} {tree : Node}

/-- The passes for each kind come in the same order. -/
def SameOrder (passes passes' : List Pass) : Prop :=
  ∀ k : Kind, passes.filter (fun p => p.target = k) = passes'.filter fun p => p.target = k

theorem SameOrder.symm (h : SameOrder passes passes') : SameOrder passes' passes := fun k => (h k).symm

theorem SameOrder.mem (h : SameOrder passes passes') (hp : p ∈ passes) : p ∈ passes' := by
  have hmem : p ∈ passes.filter fun q => q.target = p.target := List.mem_filter.2 ⟨hp, by simp⟩
  rw [h p.target] at hmem
  exact (List.mem_filter.1 hmem).1

theorem tree_run_of_sameOrder (h : SameOrder passes passes') (tree : Node) :
    (run s passes tree).tree = (run s passes' tree).tree :=
  tree_run_eq_iff.2 fun _ n _ => by rw [← treat_filter, ← treat_filter passes', h n.kind]

/-- What a pass reports depends on the passes for its kind alone that ran before it. -/
theorem changed_run_run_congr {before before' : List Pass}
    (h : before.filter (fun q => q.target = p.target) = before'.filter fun q => q.target = p.target) :
    (p.run s (run s before tree).tree).changed = (p.run s (run s before' tree).tree).changed := by
  rw [Bool.eq_iff_iff, ← not_iff_not, Bool.not_eq_true, Bool.not_eq_true, changed_run_run_iff, changed_run_run_iff]
  refine forall₃_congr fun q n _ => ?_
  by_cases hkind : p.target = n.kind
  · rw [hkind] at h
    rw [← treat_filter, ← treat_filter before', h]
  · rw [changes_treat_of_kind_ne hkind, changes_treat_of_kind_ne hkind]

/-- The first pass for a kind reports about the tree that the run starts with. -/
theorem mem_results_of_first (before after : List Pass) (hnodup : (before ++ p :: after).Nodup)
    (hfirst : (before.filter fun q => q.target = p.target) = []) (tree : Node) :
    (p, (p.run s tree).changed) ∈ (run s (before ++ p :: after) tree).results := by
  have hchanged : (p.run s (run s before tree).tree).changed = (p.run s (run s [] tree).tree).changed :=
    changed_run_run_congr hfirst
  exact (mem_results_run_iff hnodup).2 ⟨before, after, rfl, hchanged.symm⟩

theorem mem_results_of_sameOrder (h : SameOrder passes passes') (hnodup : passes.Nodup) (hnodup' : passes'.Nodup)
    {changed : Bool} (hmem : (p, changed) ∈ (run s passes tree).results) :
    (p, changed) ∈ (run s passes' tree).results := by
  obtain ⟨before, after, rfl, rfl⟩ := (mem_results_run_iff hnodup).1 hmem
  obtain ⟨before', after', rfl⟩ := List.append_of_mem (h.mem (List.mem_append_right before List.mem_cons_self))
  refine (mem_results_run_iff hnodup').2 ⟨before', after', rfl, changed_run_run_congr ?_⟩
  -- among the passes for its kind the pass stands behind the same ones
  have hsplit := h p.target
  simp only [List.filter_append, List.filter_cons_of_pos, decide_true] at hsplit
  have hnotMem : p ∉ before'.filter fun q => q.target = p.target := fun hin =>
    (List.nodup_append.1 hnodup').2.2 p (List.mem_filter.1 hin).1 p List.mem_cons_self rfl
  have hnotMemAfter : p ∉ after'.filter fun q => q.target = p.target := fun hin =>
    (List.nodup_cons.1 (List.nodup_append.1 hnodup').2.1).1 (List.mem_filter.1 hin).1
  exact ((List.append_cons_inj_of_notMem hnotMem hnotMemAfter).1 hsplit.symm).1.symm

theorem nodup_results (hnodup : passes.Nodup) (tree : Node) : (run s passes tree).results.Nodup := by
  rw [results_run hnodup]
  exact List.Nodup.of_map Prod.fst (by rwa [map_fst_reports])

theorem results_perm_of_sameOrder (h : SameOrder passes passes') (hnodup : passes.Nodup) (hnodup' : passes'.Nodup)
    (tree : Node) : (run s passes tree).results.Perm (run s passes' tree).results :=
  (List.perm_ext_iff_of_nodup (nodup_results hnodup tree) (nodup_results hnodup' tree)).2 fun _ =>
    ⟨mem_results_of_sameOrder h hnodup hnodup', mem_results_of_sameOrder h.symm hnodup' hnodup⟩

/-- All passes in an order in which comments are converted before tags are closed. -/
theorem sameOrder_all (hperm : passes.Perm Pass.all)
    (hhtml : [Pass.convertComments, .closeVoidTags].Sublist passes) : SameOrder passes Pass.all := by
  intro k
  have hsublist : (Pass.all.filter fun p => p.target = k).Sublist passes := by
    cases k with
    | text => exact List.singleton_sublist.2 (hperm.mem_iff.2 (by decide))
    | html => exact hhtml
    | link => exact List.singleton_sublist.2 (hperm.mem_iff.2 (by decide))
    | _ => exact List.nil_sublist passes
  have hfilter := hsublist.filter fun p => p.target = k
  simp only [List.filter_filter, Bool.and_self] at hfilter
  exact (hfilter.eq_of_length (hperm.filter _).length_eq.symm).symm

/-- The passes of the built-in rules, in pipeline order, are all passes. -/
theorem passes_builtIn : Registry.builtIn.passes = Pass.all.map Rule.ofPass := by
  have hsorted : Registry.builtIn.definitions = Rule.builtIn := List.mergeSort_of_pairwise (by decide +kernel)
  rw [Registry.passes, hsorted]
  decide +kernel

/-- All passes may run in any order in which comments are converted before tags are closed, the pipeline order being
one: the tree ends up the same, and each pass reports the same. -/
theorem order_irrelevant (s : Settings) {passes : List Pass} (hperm : passes.Perm Pass.all)
    (hhtml : [Pass.convertComments, .closeVoidTags].Sublist passes) (tree : Node) :
    Registry.builtIn.passes = Pass.all.map Rule.ofPass
      ∧ (run s passes tree).tree = (run s Pass.all tree).tree
      ∧ (run s passes tree).results.Perm (run s Pass.all tree).results :=
  ⟨passes_builtIn, tree_run_of_sameOrder (sameOrder_all hperm hhtml) tree,
    results_perm_of_sameOrder (sameOrder_all hperm hhtml) (hperm.nodup_iff.2 nodup_all) nodup_all tree⟩

/-- Links first and texts in between: the same tree, and the same three of four passes report a change. -/
theorem order_irrelevant_links_first :
    let tree : Node := { kind := .paragraph, children := [
      { kind := .html, value := some "<!-- <br> -->".toList }, { kind := .link, url := some "docs/a".toList },
      { kind := .text, value := some "a".toList }] }
    let after := run {} [.rewriteLinks, .convertComments, .escapeText, .closeVoidTags] tree
    after.tree = (run {} Pass.all tree).tree ∧ after.results.Perm (run {} Pass.all tree).results
      ∧ after.results = [(.rewriteLinks, true), (.convertComments, true), (.escapeText, false), (.closeVoidTags, true)] := by
  intro tree after
  have hperm : [Pass.rewriteLinks, .convertComments, .escapeText, .closeVoidTags].Perm Pass.all := by decide
  have horder := order_irrelevant {} hperm (by decide) tree
  exact ⟨horder.2.1, horder.2.2, by decide +kernel⟩

-- closing tags first may take a comment its closer
example :
    let tree : Node := { kind := .html, value := some "<!-- <br -->".toList }
    (run {} [.closeVoidTags, .convertComments] tree).tree.payload = "<!-- <br -- />".toList
      ∧ (run {} [.convertComments, .closeVoidTags] tree).tree.payload = "\x7b/* <br */\x7d".toList := by
  decide +kernel

end MdxSafe.Rewrite
