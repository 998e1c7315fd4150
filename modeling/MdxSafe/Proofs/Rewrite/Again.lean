-- SUMMARY: What a second run of all passes still finds to do: comments left in HTML, and nothing else.
import MdxSafe.Proofs.Rewrite.Order
import MdxSafe.Proofs.Rewrite.Payload

/-!
# All passes again

Where the names of void elements are plain, every pass but one leaves payloads in which it has nothing left to do, and
no later pass gives it anything to do. Only converting comments may leave a comment, of an opener inside a comment and
a closer after it, so that a second run changes a tree just if its HTML holds a comment after the first
(`again_silent_iff`).
-/

namespace MdxSafe

variable {s : Settings} {p : Pass}

/-- A pass other than converting comments has nothing to do at a node that it treated. -/
theorem Pass.changes_treat (hnames : ∀ name ∈ s.voidElements, VoidTag.IsPlain name) (hp : p ≠ convertComments)
    (n : Node) : p.changes s (p.treat s n) = false := by
  refine changes_eq_false_iff.2 fun hkind => ?_
  rw [kind_treat] at hkind
  rw [payload_treat hkind, rewrite_rewrite hp hnames]

namespace Rewrite

variable {tree : Node}

/-- A pass other than converting comments is the last one for its kind. -/
theorem exists_filter_all (hp : p ≠ .convertComments) :
    ∃ before, Pass.all.filter (fun q => q.target = p.target) = before ++ [p] := by
  cases p with
  | escapeText => exact ⟨[], rfl⟩
  | convertComments => exact absurd rfl hp
  | closeVoidTags => exact ⟨[.convertComments], rfl⟩
  | rewriteLinks => exact ⟨[], rfl⟩

theorem changes_treat_all (hnames : ∀ name ∈ s.voidElements, VoidTag.IsPlain name) (hp : p ≠ .convertComments)
    (n : Node) : p.changes s (treat s Pass.all n) = false := by
  by_cases hkind : p.target = n.kind
  · obtain ⟨before, hfilter⟩ := exists_filter_all hp
    rw [← treat_filter, ← hkind, hfilter, treat_append]
    exact Pass.changes_treat hnames hp _
  · exact changes_treat_of_kind_ne hkind Pass.all

/-- In HTML, comments are converted and then tags are closed. -/
theorem payload_treat_all {n : Node} (hkind : n.kind = .html) :
    (treat s Pass.all n).payload = Pass.closeVoidTags.rewrite s (Comment.convert n.payload) := by
  have hfilter : treat s Pass.all n = Pass.closeVoidTags.treat s (Pass.convertComments.treat s n) := by
    rw [← treat_filter, hkind]
    rfl
  have hconvert : (Pass.convertComments.treat s n).payload = Comment.convert n.payload :=
    Pass.payload_treat (p := .convertComments) hkind
  have hclose : (Pass.closeVoidTags.treat s (Pass.convertComments.treat s n)).payload
      = Pass.closeVoidTags.rewrite s (Pass.convertComments.treat s n).payload :=
    Pass.payload_treat (p := .closeVoidTags) ((Pass.kind_treat .convertComments n).trans hkind)
  rw [hfilter, hclose, hconvert]

/-- What all passes left is settled for all but converting comments. -/
theorem changes_eq_false_of_mem_run_all (hnames : ∀ name ∈ s.voidElements, VoidTag.IsPlain name)
    (hp : p ≠ .convertComments) : ∀ n ∈ (run s Pass.all tree).tree.nodes, p.changes s n = false := by
  rw [Node.forall_mem_nodes_iff fun n => by rw [Pass.changes_own]]
  intro q held hheld
  obtain ⟨n, -, rfl⟩ := heldAt?_run_eq_some_iff.1 hheld
  exact changes_treat_all hnames hp n

theorem settled_run_all_iff (hnames : ∀ name ∈ s.voidElements, VoidTag.IsPlain name) :
    Settled s Pass.all (run s Pass.all tree).tree
      ↔ ∀ n ∈ (run s Pass.all tree).tree.nodes, n.kind = .html → ¬ Comment.Occurs n.payload := by
  have hcomment : ∀ n : Node, Pass.convertComments.changes s n = false ↔ (n.kind = .html → ¬ Comment.Occurs n.payload) :=
    fun n => Pass.changes_eq_false_iff.trans (imp_congr_right fun _ => Comment.convert_eq_self_iff)
  constructor
  · exact fun h n hn => (hcomment n).1 (h .convertComments (by decide) n hn)
  · intro h p _ n hn
    by_cases hp : p = .convertComments
    · rw [hp]
      exact (hcomment n).2 (h n hn)
    · exact changes_eq_false_of_mem_run_all hnames hp n hn

/-- Where no comment of the HTML has another one opened in it, none is left. -/
theorem not_occurs_of_mem_run_all (h : ∀ n ∈ tree.nodes, n.kind = .html → ¬ Comment.Nested n.payload) :
    ∀ n ∈ (run s Pass.all tree).tree.nodes, n.kind = .html → ¬ Comment.Occurs n.payload := by
  rw [Node.forall_mem_nodes_iff fun n => Iff.rfl] at h ⊢
  intro q held hheld hkind
  obtain ⟨n, hn, rfl⟩ := heldAt?_run_eq_some_iff.1 hheld
  rw [kind_treat] at hkind
  rw [payload_treat_all hkind]
  exact Pass.not_occurs_rewrite_closeVoidTags (Comment.not_occurs_convert (h q n hn hkind))

/-- If the names of void elements are plain, all passes run again report no change and make none just if the HTML that
the first run left holds no comment. That is so if no comment was opened inside another one. Texts and links have
nothing left to do in any case. -/
theorem again_silent_iff (s : Settings) (hnames : ∀ name ∈ s.voidElements, VoidTag.IsPlain name) (tree : Node) :
    let once := (run s Pass.all tree).tree
    let again := run s Pass.all once
    ((∀ r ∈ again.results, r.2 = false) ∧ again.tree = once
        ↔ ∀ n ∈ once.nodes, n.kind = .html → ¬ Comment.Occurs n.payload)
      ∧ ((∀ n ∈ tree.nodes, n.kind = .html → ¬ Comment.Nested n.payload) →
        (∀ r ∈ again.results, r.2 = false) ∧ again.tree = once)
      ∧ (.escapeText, false) ∈ again.results ∧ (.rewriteLinks, false) ∈ again.results := by
  intro once again
  have hsettled : (∀ r ∈ again.results, r.2 = false) ∧ again.tree = once ↔ Settled s Pass.all once := by
    rw [results_run_iff nodup_all]
    exact and_iff_left_of_imp tree_run_of_settled
  have hunchanged : ∀ p : Pass, p ≠ .convertComments → (p.run s once).changed = false := fun p hp =>
    (p.changed_run_iff once).2 (changes_eq_false_of_mem_run_all hnames hp)
  refine ⟨hsettled.trans (settled_run_all_iff hnames), fun h => ?_, ?_, ?_⟩
  · exact hsettled.2 ((settled_run_all_iff hnames).2 (not_occurs_of_mem_run_all h))
  · rw [← hunchanged .escapeText (by decide)]
    exact mem_results_of_first [] [.convertComments, .closeVoidTags, .rewriteLinks] nodup_all rfl once
  · rw [← hunchanged .rewriteLinks (by decide)]
    exact mem_results_of_first [.escapeText, .convertComments, .closeVoidTags] [] nodup_all rfl once

/-- With the void elements of the default settings, a comment around a tag is converted, the tag closed, and that is
that. -/
theorem again_silent_comment :
    let tree : Node := { kind := .html, value := some "<!-- <br> -->".toList }
    let once := (run {} Pass.all tree).tree
    (∀ name ∈ ({} : Settings).voidElements, VoidTag.IsPlain name)
      ∧ (∀ n ∈ tree.nodes, n.kind = .html → ¬ Comment.Nested n.payload)
      ∧ once.payload = "\x7b/* <br /> */\x7d".toList ∧ (run {} Pass.all once).tree = once := by
  intro tree once
  have hnames : ∀ name ∈ ({} : Settings).voidElements, VoidTag.IsPlain name := by decide +kernel
  have hnested : ∀ n ∈ tree.nodes, n.kind = .html → ¬ Comment.Nested n.payload := by
    intro n hn _ h
    obtain rfl : n = tree := List.mem_singleton.1 hn
    exact absurd h.two_le_count (by decide)
  exact ⟨hnames, hnested, by decide +kernel, ((again_silent_iff {} hnames tree).2.1 hnested).2⟩

/-- A comment opened inside a comment is left by the first run, and converted by the second. -/
theorem again_converts_comment :
    let tree : Node := { kind := .html, value := some "<!-- <!-- x --> -->".toList }
    let once := (run {} Pass.all tree).tree
    let again := run {} Pass.all once
    (∀ name ∈ ({} : Settings).voidElements, VoidTag.IsPlain name)
      ∧ once.payload = "\x7b/* <!-- x */\x7d -->".toList
      ∧ (.convertComments, true) ∈ again.results ∧ again.tree.payload = "\x7b/* \x7b/* x */\x7d */\x7d".toList
      ∧ again.tree ≠ once := by
  intro tree once again
  have hagain : again.tree.payload = "\x7b/* \x7b/* x */\x7d */\x7d".toList := by decide +kernel
  have honce : once.payload = "\x7b/* <!-- x */\x7d -->".toList := by decide +kernel
  refine ⟨by decide +kernel, honce, by decide +kernel, hagain, fun h => ?_⟩
  rw [h, honce] at hagain
  exact absurd hagain (by decide)

end Rewrite
end MdxSafe
