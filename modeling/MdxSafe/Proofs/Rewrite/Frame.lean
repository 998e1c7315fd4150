-- SUMMARY: What no run of passes touches: the shape of a tree, and all that its nodes hold except three payloads.
import Mathlib.Data.Option.Defs
import MdxSafe.Proofs.Rewrite.Run
import MdxSafe.Registry

/-!
# What passes leave alone

A pass may set the value of texts and HTML and the url of links. `SameFrame` says that a node differs from another one
in these at most; one pass keeps it, so a run of any passes does, and at every place of a tree.
-/

namespace MdxSafe

variable {s : Settings}

/-- A node has the frame of another one: they differ in payloads that passes rewrite, and below, at most. -/
structure SameFrame (n m : Node) : Prop where
  kind : m.kind = n.kind
  title : m.title = n.title
  markup : m.markup = n.markup
  info : m.info = n.info
  attrs : m.attrs = n.attrs
  children : m.children.length = n.children.length
  value : n.kind ≠ .text → n.kind ≠ .html → m.value = n.value
  url : n.kind ≠ .link → m.url = n.url

namespace SameFrame

variable {n m k : Node}

theorem refl (n : Node) : SameFrame n n := ⟨rfl, rfl, rfl, rfl, rfl, rfl, fun _ _ => rfl, fun _ => rfl⟩

theorem trans (h : SameFrame n m) (h' : SameFrame m k) : SameFrame n k where
  kind := h'.kind.trans h.kind
  title := h'.title.trans h.title
  markup := h'.markup.trans h.markup
  info := h'.info.trans h.info
  attrs := h'.attrs.trans h.attrs
  children := h'.children.trans h.children
  value htext hhtml := (h'.value (h.kind ▸ htext) (h.kind ▸ hhtml)).trans (h.value htext hhtml)
  url hlink := (h'.url (h.kind ▸ hlink)).trans (h.url hlink)

/-- What a node holds by itself and how many children it has decide whether it has a frame. -/
theorem of_own (h : SameFrame n k) (hown : m.own = k.own) (hchildren : m.children.length = n.children.length) :
    SameFrame n m := by
  simp only [Node.own, Node.mk.injEq, and_true] at hown
  obtain ⟨hkind, hvalue, hurl, htitle, hmarkup, hinfo, hattrs⟩ := hown
  exact {
    kind := hkind.trans h.kind
    title := htitle.trans h.title
    markup := hmarkup.trans h.markup
    info := hinfo.trans h.info
    attrs := hattrs.trans h.attrs
    children := hchildren
    value := fun htext hhtml => hvalue.trans (h.value htext hhtml)
    url := fun hlink => hurl.trans (h.url hlink) }

/-- A node of a kind that passes leave alone holds just the same. -/
theorem own_eq (h : SameFrame n m) (hkind : n.kind ∉ Registry.mutableKinds) : m.own = n.own := by
  simp only [Registry.mutableKinds, List.mem_cons, List.not_mem_nil, or_false, not_or] at hkind
  rw [Node.own, Node.own, h.kind, h.title, h.markup, h.info, h.attrs, h.value hkind.1 hkind.2.1, h.url hkind.2.2]

end SameFrame

-- ---------------------------------------------------------------------------
-- One pass
-- ---------------------------------------------------------------------------

namespace Pass

theorem target_mem_mutableKinds (p : Pass) : p.target ∈ Registry.mutableKinds := by
  cases p <;> decide

theorem sameFrame_treat (p : Pass) (n : Node) : SameFrame n (p.treat s n) := by
  rw [treat]
  split
  · next hchanges =>
    have hkind : n.kind = p.target := (changes_eq_true_iff.1 hchanges).1
    cases p with
    | escapeText => exact { SameFrame.refl n with value := fun htext _ => absurd hkind htext }
    | convertComments => exact { SameFrame.refl n with value := fun _ hhtml => absurd hkind hhtml }
    | closeVoidTags => exact { SameFrame.refl n with value := fun _ hhtml => absurd hkind hhtml }
    | rewriteLinks => exact { SameFrame.refl n with url := fun hlink => absurd hkind hlink }
  · exact SameFrame.refl n

theorem children_run (p : Pass) (n : Node) :
    (p.run s n).tree.children = n.children.map fun c => (p.run s c).tree := by
  simp only [tree_run, Node.children_reviseAll]

theorem at?_run (p : Pass) (tree : Node) (q : Place) :
    (p.run s tree).tree.at? q = (tree.at? q).map fun n => (p.run s n).tree := by
  simp only [tree_run, Node.at?_reviseAll]

/-- A pass keeps the frame of the node that it starts with. -/
theorem sameFrame_run (p : Pass) (n : Node) : SameFrame n (p.run s n).tree := by
  refine (p.sameFrame_treat (s := s) n).of_own ?_ (by rw [children_run, List.length_map])
  rw [tree_run, Node.own_reviseAll, treat]
  split <;> rfl

end Pass

-- ---------------------------------------------------------------------------
-- Several passes
-- ---------------------------------------------------------------------------

namespace Rewrite

theorem sameFrame_run (passes : List Pass) (n : Node) : SameFrame n (run s passes n).tree := by
  induction passes generalizing n with
  | nil => exact SameFrame.refl n
  | cons p passes ih =>
    rw [tree_run_cons]
    exact (p.sameFrame_run n).trans (ih _)

/-- What a run leaves at a place is what a run over the tree there leaves. -/
theorem at?_run (passes : List Pass) (tree : Node) (q : Place) :
    (run s passes tree).tree.at? q = (tree.at? q).map fun n => (run s passes n).tree := by
  induction passes generalizing tree with
  | nil => exact Option.map_id'.symm
  | cons p passes ih =>
    simp only [tree_run_cons]
    rw [ih, Pass.at?_run, Option.map_map]
    rfl

/-- A tree without texts, HTML and links stays as it is. -/
theorem tree_run_of_notMem (passes : List Pass) {n : Node} (h : ∀ m ∈ n.nodes, m.kind ∉ Registry.mutableKinds) :
    (run s passes n).tree = n :=
  tree_run_of_settled fun p _ m hm =>
    Pass.changes_eq_false_iff.2 fun hkind => absurd (hkind ▸ p.target_mem_mutableKinds) (h m hm)

/-- Whatever passes run, in whatever order and however often: a tree keeps its places and the frames of all nodes;
nodes other than texts, HTML and links hold just the same, and so does all of a tree with none of these in it. -/
theorem frame_preserved (s : Settings) (passes : List Pass) (tree : Node) (q : Place) :
    Option.Rel SameFrame (tree.at? q) ((run s passes tree).tree.at? q)
      ∧ (∀ n, tree.at? q = some n → n.kind ∉ Registry.mutableKinds →
        (run s passes tree).tree.heldAt? q = tree.heldAt? q)
      ∧ ∀ n, tree.at? q = some n → (∀ m ∈ n.nodes, m.kind ∉ Registry.mutableKinds) →
        (run s passes tree).tree.at? q = tree.at? q := by
  simp only [Node.heldAt?, at?_run]
  refine ⟨?_, fun n hn hkind => ?_, fun n hn hkinds => ?_⟩
  · cases tree.at? q with
    | none => exact .none
    | some n => exact .some (sameFrame_run passes n)
  · simp only [hn, Option.map_some, (sameFrame_run passes n).own_eq hkind]
  · simp only [hn, Option.map_some, tree_run_of_notMem passes hkinds]

/-- An image keeps its target and its title while the text below it is escaped; code stays. -/
theorem frame_preserved_image :
    let text : Node := { kind := .text, value := some "<".toList }
    let code : Node := { kind := .inlineCode, value := some "<".toList, markup := "`".toList }
    let image : Node := { kind := .image, url := some "docs/a".toList, title := some "<".toList, children := [text, code] }
    let tree : Node := { kind := .paragraph, children := [image] }
    let after := (run {} [.rewriteLinks, .escapeText, .escapeText] tree).tree
    after.heldAt? [0] = some image.own ∧ after.at? [0, 1] = some code
      ∧ (after.at? [0, 0]).map Node.payload = some "&lt;".toList := by
  intro text code image tree after
  have himage := (frame_preserved {} [.rewriteLinks, .escapeText, .escapeText] tree [0]).2.1 image rfl (by decide)
  have hcode := (frame_preserved {} [.rewriteLinks, .escapeText, .escapeText] tree [0, 1]).2.2 code rfl (by decide)
  exact ⟨himage, hcode, by decide +kernel⟩

end Rewrite
end MdxSafe
