-- SUMMARY: When the conventions that a document is written with make no difference to the tree it is read as.
import MdxSafe.Proofs.Document.RoundTrip
import MdxSafe.Proofs.Outline.Relaid
import MdxSafe.Proofs.Tree.Place

/-!
# Conventions

Conventions are a matter of presentation: what is written under two of them is read as the same tree, but for the
fences that the nodes of code remember. This needs an outline that is laid at all, and a fence of tildes must not run
into an info text that starts with one (`reread_agrees`).
-/

namespace MdxSafe

open Outline

variable {opts opts' : Layout.Options}

-- ---------------------------------------------------------------------------
-- Trees
-- ---------------------------------------------------------------------------

namespace Node

/-- The tree with no fence remembered. -/
def withoutFences (n : Node) : Node := reviseAll (fun n => n.kind = .code) (fun n => { n with markup := [] }) n

theorem withoutFences_congr {n m : Node} (hown : n.own = m.own)
    (hchildren : n.children.map withoutFences = m.children.map withoutFences) :
    n.withoutFences = m.withoutFences := by
  refine eq_of_own_of_children ?_ ?_
  · obtain ⟨kind, value, url, title, markup, info, attrs, children⟩ := n
    obtain ⟨kind', value', url', title', markup', info', attrs', children'⟩ := m
    cases hown
    rw [withoutFences, withoutFences, own_reviseAll, own_reviseAll]
    rfl
  · rw [withoutFences, withoutFences, children_reviseAll, children_reviseAll]
    exact hchildren

end Node

namespace Outline

variable {refs : List Reference}

theorem withoutFences_leaf (hidden : Bool) (l : Leaf) :
    (l.node opts refs hidden).withoutFences = (l.node opts' refs hidden).withoutFences := by
  cases l <;> rfl

mutual
/-- The trees of a block under two conventions differ in no more than fences. -/
theorem withoutFences_node : (b : Block) → ∀ hidden : Bool,
    (b.node opts refs hidden).withoutFences = (b.node opts' refs hidden).withoutFences
  | .leaf l, hidden => by
    rw [Block.node, Block.node]
    exact withoutFences_leaf hidden l
  | .quote bs, hidden => by
    rw [Block.node, Block.node]
    exact Node.withoutFences_congr rfl (withoutFences_nodes bs false)
  | .list mark tight its, hidden => by
    rw [Block.node, Block.node]
    refine Node.withoutFences_congr ?_ (withoutFences_itemNodes mark tight its)
    dsimp only [Node.own]
    rw [hidesParagraphs_eq ⟨.list, _, _, _, _, _, _, itemNodes opts refs mark tight its⟩ rfl,
      hidesParagraphs_eq ⟨.list, _, _, _, _, _, _, itemNodes opts' refs mark tight its⟩ rfl]
termination_by structural b => b

theorem withoutFences_nodes : (bs : List Block) → ∀ hidden : Bool,
    (nodes opts refs hidden bs).map Node.withoutFences = (nodes opts' refs hidden bs).map Node.withoutFences
  | [], hidden => rfl
  | b :: bs, hidden => by
    rw [nodes, nodes, List.map_cons, List.map_cons, withoutFences_node b hidden, withoutFences_nodes bs hidden]
termination_by structural bs => bs

theorem withoutFences_itemNode (mark : Char) (hidden : Bool) : (it : Item) →
    (it.node opts refs mark hidden).withoutFences = (it.node opts' refs mark hidden).withoutFences
  | .mk digits bs => by
    rw [Item.node, Item.node]
    exact Node.withoutFences_congr rfl (withoutFences_nodes bs hidden)
termination_by structural it => it

theorem withoutFences_itemNodes (mark : Char) (hidden : Bool) : (its : List Item) →
    (itemNodes opts refs mark hidden its).map Node.withoutFences
      = (itemNodes opts' refs mark hidden its).map Node.withoutFences
  | [] => rfl
  | it :: its => by
    rw [itemNodes, itemNodes, List.map_cons, List.map_cons, withoutFences_itemNode mark hidden it,
      withoutFences_itemNodes mark hidden its]
termination_by structural its => its
end

theorem withoutFences_tree (p : Page) : (p.tree opts).withoutFences = (p.tree opts').withoutFences := by
  refine Node.withoutFences_congr rfl ?_
  simp only [Page.tree, List.map_append]
  rw [withoutFences_nodes p.body false]

end Outline

-- ---------------------------------------------------------------------------
-- Documents
-- ---------------------------------------------------------------------------

/-- A text read, written under conventions, and read again, if it can be. -/
def reread (opts : Layout.Options) (t : Text) : Option Node := do
  let tree ← (Node.parse t).toOption
  let out ← (Layout.render opts tree).toOption
  (Node.parse out).toOption

theorem reread_eq {t : Text} {p : Page} (hp : outlineOf? t = some p) (hopts : opts.Readable) (hlaid : p.isLaid opts) :
    reread opts t = some (p.tree opts) := by
  simp only [outlineOf?, Option.bind_eq_bind, Option.bind_eq_some_iff] at hp
  obtain ⟨tree, hparse, htree⟩ := hp
  simp only [reread, Option.bind_eq_bind, hparse, Option.bind_some, render_of_ofTree? htree]
  have hagain : Node.parse (p.text opts) = .ok (p.tree opts) := Node.parse_page hopts hlaid
  simp only [Except.toOption, Option.bind_some, hagain]

/-- A document that is laid under the default conventions is laid under all, if no info text goes on with a fence of
tildes. -/
theorem isLaid_of_default {p : Page} (hlaid : p.isLaid {}) (hopts : opts.Readable)
    (htildes : opts.fence = .tildes → ∀ info payload, .code info payload ∈ blockLeaves p.body → info.head? ≠ some '~') :
    p.isLaid opts := by
  refine relaid_page Layout.Options.readable_default hopts hlaid fun l hl => ?_
  cases hfence : opts.fence with
  | tildes =>
    refine keepsInfo_tildes hfence fun info payload heq => htildes hfence info payload ?_
    rwa [← heq]
  | backticks =>
    have hkeeps : l.keepsInfo {} :=
      keepsInfo_of_isLaid (isLaid_of_mem_blockLeaves p.body (Page.isLaid_iff.1 hlaid).blocks l hl)
    have hdefault : opts.fence = ({} : Layout.Options).fence := hfence
    rwa [keepsInfo_congr hdefault l]

/-- A text that is written as a laid document under the default conventions is read as the same tree under any two, up
to the fences of code, if they do not set a fence of tildes before an info text that starts with one. -/
theorem reread_agrees {t : Text} {p : Page} (hp : outlineOf? t = some p) (hlaid : p.isLaid {})
    (hopts : opts.Readable) (hopts' : opts'.Readable)
    (htildes : opts.fence = .tildes ∨ opts'.fence = .tildes →
      ∀ info payload, .code info payload ∈ blockLeaves p.body → info.head? ≠ some '~') :
    ∃ tree tree', reread opts t = some tree ∧ reread opts' t = some tree' ∧ tree.withoutFences = tree'.withoutFences :=
  ⟨p.tree opts, p.tree opts', reread_eq hp hopts (isLaid_of_default hlaid hopts fun h => htildes (.inl h)),
    reread_eq hp hopts' (isLaid_of_default hlaid hopts' fun h => htildes (.inr h)), withoutFences_tree p⟩

/-- A code block with an info text, in an item of a list in a quote, is read as the same tree under either fence and
with any gap after the bullet. -/
theorem reread_agrees_sample :
    ∃ tree tree', reread {} "> * ``` a~\n>   ~~~\n>   ```\n> * b\n" = some tree
      ∧ reread { fence := .tildes, itemIndent := 3 } "> * ``` a~\n>   ~~~\n>   ```\n> * b\n" = some tree'
      ∧ tree.withoutFences = tree'.withoutFences := by
  have h : (outlineOf? "> * ``` a~\n>   ~~~\n>   ```\n> * b\n").any fun p =>
      p.isLaid {} && decide (blockLeaves p.body = [.code " a~".toList "~~~\n".toList, .paragraph ['b']]) := by
    decide +kernel
  obtain ⟨p, hp, hcond⟩ := (Option.any_eq_true _ _).1 h
  rw [Bool.and_eq_true, decide_eq_true_eq] at hcond
  obtain ⟨hlaid, hleaves⟩ := hcond
  refine reread_agrees hp hlaid Layout.Options.readable_default ⟨by decide, by decide, rfl⟩ ?_
  intro _ info payload hmem
  rw [hleaves, List.mem_cons, List.mem_singleton] at hmem
  rcases hmem with hcode | hparagraph
  · cases hcode
    decide
  · cases hparagraph

/-- An info text that starts with a tilde lengthens a fence of tildes, which the one below then does not close. -/
theorem reread_tilde_info :
    ¬ ∃ tree tree', reread {} "```~a\nx\n```\n" = some tree
      ∧ reread { fence := .tildes } "```~a\nx\n```\n" = some tree' ∧ tree.withoutFences = tree'.withoutFences := by
  have hpayloads : (reread {} "```~a\nx\n```\n").map (fun n => n.withoutFences.children.map Node.payload)
      ≠ (reread { fence := .tildes } "```~a\nx\n```\n").map fun n => n.withoutFences.children.map Node.payload := by
    decide +kernel
  rintro ⟨tree, tree', htree, htree', heq⟩
  rw [htree, htree', Option.map_some, Option.map_some, heq] at hpayloads
  exact hpayloads rfl

end MdxSafe
