-- SUMMARY: What removing the root does to the targets of all links of a tree, and when a tree counts as changed by it.
import MdxSafe.Proofs.Rewrite.LinkRoot
import MdxSafe.Proofs.Rewrite.Run

/-!
# Links without the root

Rewriting links takes the root from the target of every link of a tree, wherever it stands, and does nothing else to the
tree (`Pass.heldAt?_run_rewriteLinks`). It reports a change just if some target did start with the root
(`Pass.changed_run_rewriteLinks_iff`). A link without a target stays without one.
-/

namespace MdxSafe

open LinkRoot

variable {s : Settings} {n : Node} {root : Text}

namespace Node

/-- The node with the root removed from its target, if it is a link and has one. -/
def withoutRoot (root : Text) (n : Node) : Node :=
  if n.kind = .link then { n with url := n.url.map (strip root) } else n

/-- The node is a link to a target that starts with the root. -/
def StartsWithRoot (root : Text) (n : Node) : Prop := n.kind = .link ∧ ∃ url, n.url = some url ∧ root <+: url

theorem startsWithRoot_iff (hroot : root ≠ []) : n.StartsWithRoot root ↔ n.kind = .link ∧ root <+: n.target := by
  refine and_congr_right fun _ => ?_
  unfold target
  cases n.url with
  | some url => simp
  | none => exact iff_of_false (fun ⟨_, h, _⟩ => nomatch h) fun h => hroot (List.prefix_nil.1 h)

/-- Taking the root from a target of a link sets it to what is left. -/
theorem withoutRoot_of_link (hkind : n.kind = .link) {url : Text} (hurl : n.url = some url) :
    n.withoutRoot root = { n with url := some (strip root url) } := by
  rw [withoutRoot, if_pos hkind, hurl, Option.map_some]

theorem withoutRoot_eq_self (h : n.kind = .link → strip root n.target = n.target) : n.withoutRoot root = n := by
  unfold withoutRoot
  split
  · next hkind =>
    have hself : n.url.map (strip root) = n.url := by
      have htarget := h hkind
      unfold target at htarget
      cases hurl : n.url with
      | none => rfl
      | some url =>
        rw [hurl] at htarget
        exact congrArg some htarget
    rw [hself]
    cases n
    rfl
  · rfl

theorem not_startsWithRoot_withoutRoot (hroot : root ≠ []) (n : Node) : ¬ (n.withoutRoot root).StartsWithRoot root := by
  unfold withoutRoot
  split
  · rintro ⟨-, url, hurl, hprefix⟩
    obtain ⟨old, -, rfl⟩ := Option.map_eq_some_iff.1 hurl
    exact not_prefix_strip hroot old hprefix
  · next hkind => exact fun h => hkind h.1

end Node

namespace Pass

theorem changes_rewriteLinks_iff : rewriteLinks.changes s n = true ↔ s.linkRoot ≠ [] ∧ n.StartsWithRoot s.linkRoot := by
  rw [changes_eq_true_iff]
  have hstrip : rewriteLinks.rewrite s (rewriteLinks.payload n) ≠ rewriteLinks.payload n
      ↔ s.linkRoot ≠ [] ∧ s.linkRoot <+: n.target := strip_ne_self_iff
  rw [hstrip, and_left_comm]
  exact and_congr_right fun hroot => (Node.startsWithRoot_iff hroot).symm

theorem treat_rewriteLinks (n : Node) : rewriteLinks.treat s n = n.withoutRoot s.linkRoot := by
  cases h : rewriteLinks.changes s n with
  | false => rw [treat_of_unchanged h, Node.withoutRoot_eq_self (changes_eq_false_iff.1 h)]
  | true =>
    obtain ⟨-, hkind, url, hurl, -⟩ := changes_rewriteLinks_iff.1 h
    have htarget : n.target = url := by rw [Node.target, hurl, Option.getD_some]
    rw [treat, if_pos h, Node.withoutRoot_of_link hkind hurl, ← htarget]
    rfl

/-- Rewriting links takes the root from the targets of links, at each place by itself, and does nothing else. -/
theorem heldAt?_run_rewriteLinks (tree : Node) (q : Place) :
    (rewriteLinks.run s tree).tree.heldAt? q = (tree.heldAt? q).map (Node.withoutRoot s.linkRoot) := by
  rw [heldAt?_run, funext treat_rewriteLinks]

theorem changed_run_rewriteLinks_iff (tree : Node) : (rewriteLinks.run s tree).changed = true
    ↔ s.linkRoot ≠ [] ∧ ∃ n ∈ tree.nodes, n.StartsWithRoot s.linkRoot := by
  have hfound : (rewriteLinks.run s tree).changed = true ↔ ∃ n ∈ tree.nodes, rewriteLinks.changes s n = true := by
    rw [← Bool.not_eq_false, changed_run_iff]
    simp
  rw [hfound]
  simp only [changes_rewriteLinks_iff]
  exact ⟨fun ⟨n, hn, hroot, h⟩ => ⟨hroot, n, hn, h⟩, fun ⟨hroot, n, hn, h⟩ => ⟨n, hn, hroot, h⟩⟩

/-- After links were rewritten, no target of a link starts with the root. -/
theorem not_startsWithRoot_of_mem_run (hroot : s.linkRoot ≠ []) {tree : Node}
    (hn : n ∈ (rewriteLinks.run s tree).tree.nodes) : ¬ n.StartsWithRoot s.linkRoot := by
  revert n
  rw [Node.forall_mem_nodes_iff fun n => Iff.rfl]
  intro q held hheld
  rw [heldAt?_run_rewriteLinks] at hheld
  obtain ⟨n, -, rfl⟩ := Option.map_eq_some_iff.1 hheld
  exact Node.not_startsWithRoot_withoutRoot hroot n

end Pass

/-- Removing a root comes to an end and leaves the one text without the root at its start that follows copies of the root.
Rewriting links does that to the target of every link of a tree, wherever it stands, and nothing else. No link leads to a
target that starts with the root afterwards, and a change is reported just if one did before. -/
theorem links_stripped (s : Settings) (tree : Node) (root url : Text) :
    strip [] url = url
      ∧ (root ≠ [] → (∃ k, Strips root k url (strip root url))
        ∧ ∀ rest, rest = strip root url ↔ (∃ k, url = (List.replicate k root).flatten ++ rest) ∧ ¬ root <+: rest)
      ∧ (∀ q, (Pass.rewriteLinks.run s tree).tree.heldAt? q = (tree.heldAt? q).map (Node.withoutRoot s.linkRoot))
      ∧ (s.linkRoot ≠ [] → ∀ n ∈ (Pass.rewriteLinks.run s tree).tree.nodes, ¬ n.StartsWithRoot s.linkRoot)
      ∧ ((Pass.rewriteLinks.run s tree).changed = true
        ↔ s.linkRoot ≠ [] ∧ ∃ n ∈ tree.nodes, n.StartsWithRoot s.linkRoot) := by
  refine ⟨strip_nil url, fun hroot => ⟨exists_strips hroot url, fun rest => eq_strip_iff hroot⟩, ?_, ?_, ?_⟩
  · exact Pass.heldAt?_run_rewriteLinks tree
  · exact fun hroot n hn => Pass.not_startsWithRoot_of_mem_run hroot hn
  · exact Pass.changed_run_rewriteLinks_iff tree

/-- A root that overlaps with itself is removed once from a target with three halves of it, and a link below another node
loses it while one without a target stays. -/
theorem links_stripped_overlap :
    let inner : Node := { kind := .link, url := some "aaab".toList }
    let empty : Node := { kind := .link }
    let tree : Node := { kind := .paragraph, children := [{ kind := .strong, children := [inner] }, empty] }
    let after := Pass.rewriteLinks.run { linkRoot := "aa".toList } tree
    after.changed = true ∧ after.tree.heldAt? [0, 0] = some { inner with url := some "ab".toList }
      ∧ after.tree.heldAt? [1] = some empty ∧ strip "aa".toList "aaab".toList = "ab".toList := by
  intro inner empty tree after
  have hroot : "aa".toList ≠ [] := by decide
  obtain ⟨-, hstrip, hheld, -, hchanged⟩ := links_stripped { linkRoot := "aa".toList } tree "aa".toList "aaab".toList
  have hab : strip "aa".toList "aaab".toList = "ab".toList :=
    (((hstrip hroot).2 "ab".toList).2 ⟨⟨1, rfl⟩, by decide⟩).symm
  refine ⟨hchanged.2 ⟨hroot, inner, Node.mem_nodes_iff.2 ⟨[0, 0], rfl⟩, rfl, _, rfl, ⟨_, rfl⟩⟩, ?_, hheld [1], hab⟩
  have hinner := hheld [0, 0]
  rw [← hab]
  exact hinner

end MdxSafe
