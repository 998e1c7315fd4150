-- SUMMARY: What holds of every node that a stream files, and how many of them are links.
import Mathlib.Algebra.Ring.Nat
import MdxSafe.Proofs.Tree.Standing

/-!
# Invariants of filing

Nodes are filed before they are complete: an open element is filed when it is closed, or at the end. `Sound` says of
the open elements that a property holds of all that is filed in them and will hold of each of them once it is filed.
The tokens of a stream preserve that one by one (`Preserves`), so that the property holds of the nodes that the stream
gives in the end (`Preserves.of_assemble`).

How many of all the nodes are links can be read off the tokens (`links_assemble`).
-/

namespace MdxSafe

namespace Assembly

variable {P : Node → Prop}

-- ---------------------------------------------------------------------------
-- Open elements
-- ---------------------------------------------------------------------------

/-- The property holds of an element with any nodes that it holds of, whether a token closes it or the stream ends. -/
def Frame.Keeps (P : Node → Prop) (f : Frame) : Prop :=
  ∀ ns : List Node, (∀ n ∈ ns, P n) → P { f with filed := ns }.close ∧ P { f with filed := ns }.finish

/-- An element other than a list is filed as it stands, however it ends. -/
theorem Frame.Keeps.of_node {f : Frame} (hlist : f.node.kind ≠ .list)
    (h : ∀ ns : List Node, (∀ n ∈ ns, P n) → P { f.node with children := f.node.children ++ ns }) : f.Keeps P := by
  intro ns hns
  have hclose := h ns.reverse fun n hn => hns n (List.mem_reverse.1 hn)
  exact ⟨hclose, by simpa [finish, close, hlist] using hclose⟩

/-- The property holds of all nodes filed in the open elements, and the elements keep it. The container is no node of
the stream. -/
inductive Sound (P : Node → Prop) : Frame → List Frame → Prop
  | container {f : Frame} (hfiled : ∀ n ∈ f.filed, P n) : Sound P f []
  | element {f g : Frame} {gs : List Frame} (hfiled : ∀ n ∈ f.filed, P n) (hkeeps : f.Keeps P) (houter : Sound P g gs) :
    Sound P f (g :: gs)

namespace Sound

variable {f g : Frame} {gs : List Frame} {n : Node}

theorem filed (h : Sound P f gs) : ∀ n ∈ f.filed, P n := by
  cases h with
  | container hfiled => exact hfiled
  | element hfiled => exact hfiled

theorem file (h : Sound P f gs) (hn : P n) : Sound P (f.file n) gs := by
  have hall : ∀ m ∈ (f.file n).filed, P m := List.forall_mem_cons.2 ⟨hn, h.filed⟩
  cases h with
  | container => exact .container hall
  | element _ hkeeps houter => exact .element hall hkeeps houter

theorem fileAll {s : State} {ns : List Node} (h : Sound P s.top s.outer) (hns : ∀ n ∈ ns, P n) :
    Sound P (s.fileAll ns).top (s.fileAll ns).outer := by
  have hall : ∀ n ∈ (s.fileAll ns).top.filed, P n := by
    intro n hn
    rcases List.mem_append.1 hn with hn | hn
    · exact hns n (List.mem_reverse.1 hn)
    · exact h.filed n hn
  obtain ⟨top, outer, inHead⟩ := s
  cases h with
  | container => exact .container hall
  | element _ hkeeps houter => exact .element hall hkeeps houter

/-- At the end of the stream the property holds of all that is filed in the container. -/
theorem collapse (h : Sound P f gs) : ∀ n ∈ (collapse f gs).filed, P n := by
  induction gs generalizing f with
  | nil => exact h.filed
  | cons g gs ih =>
    cases h with
    | element hfiled hkeeps houter => exact ih (houter.file (hkeeps _ hfiled).1)

end Sound

/-- A stream that starts with the property for all that is filed ends with it. -/
def Preserves (P : Node → Prop) (ts : List Token) : Prop :=
  ∀ s s' : State, steps s ts = .ok s' → Sound P s.top s.outer → Sound P s'.top s'.outer

namespace Preserves

variable {t : Token} {ts us : List Token}

theorem nil : Preserves P [] := by
  intro s s' h hs
  cases h
  exact hs

theorem append (h : Preserves P ts) (h' : Preserves P us) : Preserves P (ts ++ us) := by
  intro s s' hsteps hs
  rw [steps_append] at hsteps
  obtain ⟨s₁, hfirst, hrest⟩ := exists_of_bind_eq_ok hsteps
  exact h' _ _ hrest (h _ _ hfirst hs)

theorem cons (h : ∀ {s s' : State}, Does s t s' → Sound P s.top s.outer → Sound P s'.top s'.outer)
    (h' : Preserves P ts) : Preserves P (t :: ts) := by
  intro s s' hsteps hs
  obtain ⟨s₁, hfirst, hrest⟩ := exists_of_bind_eq_ok hsteps
  exact h' _ _ hrest (h (does_of_step hfirst) hs)

/-- A stream that files nodes with the property, and leaves all else as it was. -/
theorem of_fileAll {ns : List Node} (h : ∀ s, steps s ts = .ok (s.fileAll ns)) (hns : ∀ n ∈ ns, P n) :
    Preserves P ts := by
  intro s s' hsteps hs
  rw [h s, Except.ok.injEq] at hsteps
  exact hsteps ▸ hs.fileAll hns

/-- The property holds of the nodes that a stream gives. -/
theorem of_assemble (h : Preserves P ts) {n : Node} (hassemble : Node.emptyRoot.assemble ts = .ok n) :
    ∀ m ∈ n.children, P m := by
  obtain ⟨s, hsteps, hclose⟩ := exists_of_bind_eq_ok hassemble
  cases hclose
  have hsound := h _ _ hsteps (.container (by simp [State.of]))
  intro m hm
  rw [Frame.close, node_container hsteps] at hm
  exact hsound.collapse m (by simpa [Node.emptyRoot, State.container] using hm)

end Preserves

theorem sound_close {s : State} (h : Sound P s.top s.outer) : Sound P s.close.top s.close.outer := by
  obtain ⟨top, outer, inHead⟩ := s
  cases h with
  | container hfiled => exact .container hfiled
  | element hfiled hkeeps houter => exact houter.file (hkeeps _ hfiled).2

theorem sound_open {s : State} {n : Node} (h : Sound P s.top s.outer) (hn : ({ node := n } : Frame).Keeps P) :
    Sound P (s.open n).top (s.open n).outer := .element (by simp [State.open]) hn h

end Assembly

-- ---------------------------------------------------------------------------
-- Links
-- ---------------------------------------------------------------------------

mutual
/-- The number of links that a token opens, or that the tokens in it open. -/
def Token.links : Token → Nat
  | ⟨kind, nesting, _, _, _, _, _, _, children⟩ =>
    match kind, nesting with
    | .linkOpen, .opens => 1
    | .inline, .stands | .image, .stands => Token.linksIn children
    | _, _ => 0
termination_by structural t => t

/-- The number of links that a stream opens. -/
def Token.linksIn : List Token → Nat
  | [] => 0
  | t :: ts => t.links + Token.linksIn ts
termination_by structural ts => ts
end

namespace Token

variable {t : Token}

theorem links_of_kind (h : t.kind ∉ [.linkOpen, .inline, .image]) : t.links = 0 := by
  obtain ⟨kind, nesting, tag, attrs, content, markup, info, hidden, children⟩ := t
  cases kind <;> first | rfl | simp at h

theorem links_of_linkOpen (h : t.kind = .linkOpen) (hopens : t.nesting = .opens) : t.links = 1 := by
  obtain ⟨kind, nesting, tag, attrs, content, markup, info, hidden, children⟩ := t
  cases h
  cases hopens
  rfl

theorem linksIn_eq_sum (ts : List Token) : linksIn ts = (ts.map links).sum := by
  induction ts with
  | nil => rfl
  | cons t ts ih => rw [linksIn, ih, List.map_cons, List.sum_cons]

theorem kind_openedNode {n : Node} {inHead : Bool} (h : t.openedNode inHead = .ok n) : n.kind = t.kind.container := by
  unfold openedNode at h
  dsimp only at h
  cases hkind : t.kind.container <;> simp only [hkind] at h
  case heading =>
    obtain ⟨level, -, h⟩ := exists_of_bind_eq_ok h
    cases h
    rfl
  case list =>
    split at h
    · obtain ⟨first, -, h⟩ := exists_of_bind_eq_ok h
      cases h
      rfl
    · cases h
      rfl
  all_goals
    cases h
    rfl

end Token

/-- Whether a token opens a link. -/
def Standing.isLink (x : Standing) : Bool := x.token.kind = .linkOpen && x.token.nesting = .opens

theorem Standing.isLink_eq {x : Standing} {n : Node} (h : x.node = .ok n) : x.isLink = decide (n.kind = .link) := by
  obtain ⟨inHead, t⟩ := x
  rw [node] at h
  split at h
  · next hopens =>
    have hopens : t.nesting = .opens := hopens
    have hlink : t.kind.container = .link ↔ t.kind = .linkOpen := by cases t.kind <;> simp [TokenKind.container]
    simp [isLink, hopens, Token.kind_openedNode h, hlink]
  · next hopens =>
    cases h
    have hopens : t.nesting ≠ .opens := hopens
    have hleaf : t.leafNode.kind ≠ .link := by
      unfold Token.leafNode
      cases t.kind <;> simp
    simp [isLink, hopens, hleaf]

namespace Assembly

mutual
theorem countP_standings : (t : Token) → (inHead : Bool) → (standings inHead t).countP Standing.isLink = t.links
  | ⟨kind, nesting, tag, attrs, content, markup, info, hidden, children⟩, inHead => by
    have hchildren := countP_standingsAll children false
    by_cases hsection : kind.isTableSection = true
    · have hkind : kind ∉ [.linkOpen, .inline, .image] := by cases kind <;> simp_all [TokenKind.isTableSection]
      rw [Token.links_of_kind hkind]
      simp only [standings, hsection, if_true, List.countP_nil]
    cases nesting with
    | opens | closes =>
      simp only [standings, hsection]
      cases kind <;> rfl
    | stands =>
      simp only [standings, hsection]
      cases kind <;> simp [Token.links, Standing.isLink, hchildren]
termination_by structural t => t

theorem countP_standingsAll : (ts : List Token) → (inHead : Bool) →
    (standingsAll inHead ts).countP Standing.isLink = Token.linksIn ts
  | [], inHead => rfl
  | t :: ts, inHead => by
    rw [standingsAll, List.countP_append, countP_standings t, countP_standingsAll ts, Token.linksIn]
termination_by structural ts => ts
end

theorem countP_of_standFor {xs : List Standing} {ns : List Node} (h : StandFor xs ns) :
    xs.countP Standing.isLink = ns.countP fun n => n.kind = .link := by
  induction h with
  | nil => rfl
  | cons hnode _ ih => rw [List.countP_cons, List.countP_cons, ih, Standing.isLink_eq hnode]

end Assembly

/-- Of the nodes of a tree, so many are links as the tokens open. -/
theorem Node.links_assemble {ts : List Token} {n : Node} (h : emptyRoot.assemble ts = .ok n) :
    ((n.children.flatMap nodes).countP fun m => m.kind = .link) = Token.linksIn ts := by
  have hstand := Assembly.standFor_assemble h (Assembly.rows_steps ts)
  rw [← Assembly.countP_standingsAll ts false, Assembly.countP_of_standFor hstand, Assembly.rows, List.countP_map]
  rfl

end MdxSafe
