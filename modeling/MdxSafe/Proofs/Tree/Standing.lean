-- SUMMARY: Which tokens the nodes of an assembled tree stand for, and how elements that are closed in order nest.
import Mathlib.Data.List.Forall2
import MdxSafe.Proofs.Outcome
import MdxSafe.Proofs.Tree.Assembly
import MdxSafe.Proofs.Tree.Place

/-!
# Tokens that nodes stand for

Nodes stand for the tokens that open an element or stand alone, running text for what is in it, and nothing for the
sections of a table (`standingsAll`). At any time the nodes below the container, in document order, are those of the
tokens read so far: the open elements are the right edge of the tree, so whatever is filed or opened comes last, and
what is closed stays where it is (`rows_steps`). This holds for any stream, whatever it leaves open or closes too
often.

In a stream that closes every element it opens (`Nests`), nodes stand in each other as the tokens do.
-/

namespace MdxSafe

-- ---------------------------------------------------------------------------
-- Nodes as their tokens make them
-- ---------------------------------------------------------------------------

/-- A node by itself, as its token made it: a list does not know yet whether it is tight. -/
def Node.asOpened (n : Node) : Node :=
  { n.own with attrs := if n.kind = .list then n.attrs.filter fun f => f.1 ≠ "tight".toList else n.attrs }

namespace Node

/-- What a node is opened as does not depend on what stands below it. -/
theorem asOpened_children (n : Node) (ns : List Node) : { n with children := ns }.asOpened = n.asOpened := rfl

end Node

theorem Fields.filter_set (fs : Fields) (key : Text) (v : Value) :
    (fs.set key v).filter (fun f => f.1 ≠ key) = fs.filter fun f => f.1 ≠ key := by
  induction fs with
  | nil => simp [set]
  | cons f fs ih =>
    rw [set]
    by_cases hkey : f.1 = key
    · rw [if_pos hkey, List.filter_cons_of_neg (by simp), List.filter_cons_of_neg (by simp [hkey])]
    · rw [if_neg hkey, List.filter_cons_of_pos (by simp [hkey]), List.filter_cons_of_pos (by simp [hkey]), ih]

namespace Assembly

/-- Closing an element changes nothing about it but whether it is a tight list. -/
theorem Frame.asOpened_finish (f : Frame) : f.finish.asOpened = f.node.asOpened := by
  unfold finish close
  dsimp only
  split
  · next hlist =>
    simp only [Node.asOpened, Node.own, hlist, if_true]
    rw [Fields.filter_set]
  · rfl

theorem Frame.children_finish (f : Frame) : f.finish.children = f.node.children ++ f.filed.reverse := by
  unfold finish close
  dsimp only
  split <;> rfl

end Assembly

/-- A token that a node stands for, and whether a table head is open there. -/
structure Standing where
  inHead : Bool
  token : Token

/-- The node that stands for a token. -/
def Standing.node (x : Standing) : Except ConversionError Node :=
  if x.token.nesting = .opens then x.token.openedNode x.inHead else .ok x.token.leafNode

namespace Token

variable {t : Token} {n : Node} {inHead : Bool}

/-- A node that is opened has nothing below it, and does not tell whether it is tight. -/
theorem openedNode_spec (h : t.openedNode inHead = .ok n) :
    n.children = [] ∧ (n.kind = .list → ∀ f ∈ n.attrs, f.1 ≠ "tight".toList) := by
  unfold openedNode at h
  dsimp only at h
  cases hkind : t.kind.container <;> simp only [hkind] at h
  case heading =>
    obtain ⟨level, -, h⟩ := exists_of_bind_eq_ok h
    cases h
    exact ⟨rfl, nofun⟩
  case list =>
    split at h
    · obtain ⟨first, -, h⟩ := exists_of_bind_eq_ok h
      cases h
      exact ⟨rfl, fun _ => by simp⟩
    · cases h
      exact ⟨rfl, fun _ => by simp⟩
  all_goals
    cases h
    exact ⟨rfl, fun hlist => by cases hlist⟩

theorem asOpened_openedNode (h : t.openedNode inHead = .ok n) : n.asOpened = n := by
  obtain ⟨hchildren, htight⟩ := openedNode_spec h
  obtain ⟨kind, value, url, title, markup, info, attrs, children⟩ := n
  obtain rfl : children = [] := hchildren
  unfold Node.asOpened
  split
  · next hlist =>
    have hattrs : attrs.filter (fun f => f.1 ≠ "tight".toList) = attrs :=
      List.filter_eq_self.2 fun f hf => decide_eq_true (htight hlist f hf)
    simp only [Node.own, hattrs]
  · rfl

theorem asOpened_leafNode (t : Token) : t.leafNode.asOpened = t.leafNode := by
  unfold leafNode
  cases t.kind <;> rfl

theorem children_leafNode (t : Token) : t.leafNode.children = [] := by
  unfold leafNode
  cases t.kind <;> rfl

/-- Whether a table head is open after a token. -/
def headAfter (inHead : Bool) (t : Token) : Bool :=
  if t.kind.isTableSection then t.kind = .theadOpen else inHead

end Token

namespace Assembly

mutual
/-- The tokens in a token that nodes stand for. -/
def standings (inHead : Bool) : Token → List Standing
  | ⟨kind, nesting, tag, attrs, content, markup, info, hidden, children⟩ =>
    let t : Token := ⟨kind, nesting, tag, attrs, content, markup, info, hidden, children⟩
    if kind.isTableSection then []
    else match nesting with
      | .opens => [⟨inHead, t⟩]
      | .closes => []
      | .stands =>
        match kind with
        | .inline => standingsAll false children
        | .image => ⟨inHead, t⟩ :: standingsAll false children
        | _ => [⟨inHead, t⟩]
termination_by structural t => t

/-- The tokens of a stream that nodes stand for, in order. -/
def standingsAll (inHead : Bool) : List Token → List Standing
  | [] => []
  | t :: ts => standings inHead t ++ standingsAll (t.headAfter inHead) ts
termination_by structural ts => ts
end

-- ---------------------------------------------------------------------------
-- What a token does
-- ---------------------------------------------------------------------------

/-- What a stream files does not depend on the element that it is read in. -/
theorem assemble_of_steps {ts : List Token} {f : Frame} {s : State} (h : steps (.of f) ts = .ok s) :
    ∃ n, Node.emptyRoot.assemble ts = .ok n ∧ s.container = { f with filed := n.children.reverse ++ f.filed } := by
  have hover : steps (.of f) ts = (steps (.of { node := Node.emptyRoot }) ts).map (State.over f) :=
    steps_over f ts (.of { node := Node.emptyRoot })
  cases hempty : steps (.of { node := Node.emptyRoot }) ts with
  | error e =>
    rw [h, hempty] at hover
    cases hover
  | ok inside =>
    have hassemble : Node.emptyRoot.assemble ts = .ok inside.container.close := by
      rw [Node.assemble, hempty]
      rfl
    obtain ⟨s', hs', hcontainer⟩ := steps_of hassemble f
    rw [h] at hs'
    cases hs'
    exact ⟨_, hassemble, hcontainer⟩

/-- A container keeps its children, and gets those that an empty one gets. -/
theorem assemble_eq {container n : Node} {ts : List Token} (h : container.assemble ts = .ok n) :
    ∃ m, Node.emptyRoot.assemble ts = .ok m ∧ n = { container with children := container.children ++ m.children } := by
  obtain ⟨s, hsteps, h⟩ := exists_of_bind_eq_ok h
  cases h
  obtain ⟨m, hm, hcontainer⟩ := assemble_of_steps hsteps
  refine ⟨m, hm, ?_⟩
  rw [hcontainer, Frame.close, List.append_nil, List.reverse_reverse]

theorem node_container {ts : List Token} {s : State} (h : steps (.of { node := Node.emptyRoot }) ts = .ok s) :
    s.container.node = Node.emptyRoot := by
  obtain ⟨_, -, hcontainer⟩ := assemble_of_steps h
  rw [hcontainer]

/-- What reading a token does to the open elements. -/
inductive Does (s : State) (t : Token) : State → Prop where
  | ofSection (hsection : t.kind.isTableSection = true) : Does s t { s with inHead := t.kind = .theadOpen }
  | opens (hplain : t.kind.isTableSection = false) (hnesting : t.nesting = .opens) {n : Node}
    (hopen : t.openedNode s.inHead = .ok n) : Does s t (s.open n)
  | closes (hplain : t.kind.isTableSection = false) (hnesting : t.nesting = .closes) : Does s t s.close
  /-- Running text files what its own stream gives. -/
  | running (hkind : t.kind = .inline) (hnesting : t.nesting = .stands) {n : Node}
    (hinside : Node.emptyRoot.assemble t.children = .ok n) : Does s t (s.fileAll n.children)
  /-- An image holds what the stream of its description gives. -/
  | image (hkind : t.kind = .image) (hnesting : t.nesting = .stands) {n : Node}
    (hinside : Node.emptyRoot.assemble t.children = .ok n) :
    Does s t (s.file { t.leafNode with children := n.children })
  | leaf (hplain : isPlain t) (himage : t.kind ≠ .image) (hnesting : t.nesting = .stands) :
    Does s t (s.file t.leafNode)

theorem does_of_step {s s' : State} {t : Token} (h : step s t = .ok s') : Does s t s' := by
  by_cases hsection : t.kind.isTableSection = true
  · rw [step_section s hsection] at h
    cases h
    exact .ofSection hsection
  have hplain : t.kind.isTableSection = false := Bool.eq_false_iff.2 hsection
  cases hnesting : t.nesting with
  | opens =>
    rw [step_opens s hplain hnesting] at h
    obtain ⟨n, hopen, rfl⟩ := exists_of_map_eq_ok h
    exact .opens hplain hnesting hopen
  | closes =>
    rw [step_closes s hplain hnesting] at h
    cases h
    exact .closes hplain hnesting
  | stands =>
    by_cases hinline : t.kind = .inline
    · rw [step_running s hinline hnesting] at h
      obtain ⟨inside, hinside, rfl⟩ := exists_of_map_eq_ok h
      obtain ⟨n, hn, hcontainer⟩ := assemble_of_steps hinside
      rw [hcontainer]
      exact .running hinline hnesting hn
    by_cases himage : t.kind = .image
    · rw [step_image s himage hnesting] at h
      obtain ⟨inside, hinside, rfl⟩ := exists_of_map_eq_ok h
      obtain ⟨n, hn, hcontainer⟩ := assemble_of_steps hinside
      rw [hcontainer, Frame.close, List.append_nil, List.reverse_reverse, Token.children_leafNode]
      exact .image himage hnesting hn
    have hleaf : isPlain t := by simp [isPlain, hplain, hinline]
    rw [step_leaf s hleaf himage hnesting] at h
    cases h
    exact .leaf hleaf himage hnesting

-- ---------------------------------------------------------------------------
-- Nodes in document order
-- ---------------------------------------------------------------------------

/-- The nodes of trees in document order, each as its token made it. -/
def rows (ns : List Node) : List Node := (ns.flatMap Node.nodes).map Node.asOpened

theorem rows_append (ns ms : List Node) : rows (ns ++ ms) = rows ns ++ rows ms := by
  rw [rows, List.flatMap_append, List.map_append, rows, rows]

theorem rows_singleton (n : Node) : rows [n] = n.asOpened :: rows n.children := by
  rw [rows, List.flatMap_singleton, Node.nodes_eq, List.map_cons, rows]

/-- The nodes below the container, with all that is open filed as it stands. -/
def State.rows (s : State) : List Node := Assembly.rows s.container.filed.reverse

/-- What is filed last comes last, however many elements are open. -/
theorem rows_collapse_file (n : Node) (top : Frame) (outer : List Frame) :
    rows (collapse (top.file n) outer).filed.reverse = rows (collapse top outer).filed.reverse ++ rows [n] := by
  induction outer generalizing top n with
  | nil => rw [collapse, collapse, Frame.file, List.reverse_cons, rows_append]
  | cons f outer ih =>
    have hclose : rows [(top.file n).close] = rows [top.close] ++ rows [n] := by
      rw [rows_singleton, rows_singleton, List.cons_append, ← rows_append]
      simp [Frame.close, Frame.file, Node.asOpened_children]
    rw [collapse, collapse, ih, ih, hclose, List.append_assoc]

namespace State

variable (s : State)

theorem rows_file (n : Node) : (s.file n).rows = s.rows ++ Assembly.rows [n] := rows_collapse_file n s.top s.outer

theorem rows_fileAll (ns : List Node) : (s.fileAll ns).rows = s.rows ++ Assembly.rows ns := by
  induction ns generalizing s with
  | nil => exact (List.append_nil _).symm
  | cons n ns ih =>
    have hfirst : s.fileAll (n :: ns) = (s.file n).fileAll ns := (s.fileAll_fileAll [n] ns).symm
    rw [hfirst, ih, rows_file, List.append_assoc, ← rows_append, List.singleton_append]

theorem rows_open (n : Node) : (s.open n).rows = s.rows ++ Assembly.rows [n] := by
  have hclose : ({ node := n } : Frame).close = n := by
    cases n
    simp [Frame.close]
  calc (s.open n).rows
      = Assembly.rows (collapse (s.top.file ({ node := n } : Frame).close) s.outer).filed.reverse := rfl
    _ = s.rows ++ Assembly.rows [n] := by rw [hclose, rows_collapse_file, rows, container]

theorem rows_close : s.close.rows = s.rows := by
  obtain ⟨top, outer, inHead⟩ := s
  cases outer with
  | nil => rfl
  | cons f outer =>
    have hfinish : Assembly.rows [top.finish] = Assembly.rows [top.close] := by
      rw [rows_singleton, rows_singleton, top.asOpened_finish, top.children_finish]
      rfl
    calc (⟨top, f :: outer, inHead⟩ : State).close.rows
        = Assembly.rows (collapse (f.file top.finish) outer).filed.reverse := rfl
      _ = Assembly.rows (collapse (f.file top.close) outer).filed.reverse := by
          rw [rows_collapse_file, rows_collapse_file, hfinish]

end State

-- ---------------------------------------------------------------------------
-- Any stream
-- ---------------------------------------------------------------------------

theorem inHead_of_does {s s' : State} {t : Token} (h : Does s t s') : s'.inHead = t.headAfter s.inHead := by
  cases h with
  | ofSection hsection => rw [Token.headAfter, if_pos hsection]
  | opens hplain =>
    rw [Token.headAfter, hplain]
    rfl
  | closes hplain =>
    rw [Token.headAfter, hplain]
    obtain ⟨top, outer, inHead⟩ := s
    cases outer <;> rfl
  | running hkind =>
    rw [Token.headAfter, hkind]
    rfl
  | image hkind =>
    rw [Token.headAfter, hkind]
    rfl
  | leaf hplain =>
    rw [Token.headAfter, isTableSection_of_isPlain hplain]
    rfl

/-- The nodes are those that the tokens stand for. -/
abbrev StandFor : List Standing → List Node → Prop := List.Forall₂ fun x n => x.node = .ok n

theorem standings_leaf {t : Token} (hstands : t.nesting = .stands) (hplain : isPlain t) (himage : t.kind ≠ .image)
    (inHead : Bool) : standings inHead t = [⟨inHead, t⟩] := by
  obtain ⟨kind, nesting, tag, attrs, content, markup, info, hidden, children⟩ := t
  cases hstands
  cases kind
  case inline => cases hplain
  case image => exact absurd rfl himage
  case theadOpen | theadClose | tbodyOpen | tbodyClose => cases hplain
  all_goals rfl

/-- If a stream adds the nodes for its tokens, so it does when it is read by itself. -/
theorem standFor_assemble {ts : List Token} {n : Node} (h : Node.emptyRoot.assemble ts = .ok n)
    (hrows : ∀ {s s'}, steps s ts = .ok s' →
      ∃ added, s'.rows = s.rows ++ added ∧ StandFor (standingsAll s.inHead ts) added) :
    StandFor (standingsAll false ts) (rows n.children) := by
  obtain ⟨s, hsteps, h⟩ := exists_of_bind_eq_ok h
  cases h
  obtain ⟨added, hadded, hstand⟩ := hrows hsteps
  have hchildren : s.container.close.children = s.container.filed.reverse := by
    rw [Frame.close, node_container hsteps]
    rfl
  rw [hchildren, ← State.rows, hadded]
  exact hstand

mutual
/-- A token adds the nodes that stand for it after those that are there. -/
theorem rows_step : (t : Token) → {s s' : State} → step s t = .ok s' →
    ∃ added, s'.rows = s.rows ++ added ∧ StandFor (standings s.inHead t) added
  | ⟨kind, nesting, tag, attrs, content, markup, info, hidden, children⟩, s, s', h => by
    cases does_of_step h with
    | ofSection hsection =>
      refine ⟨[], (List.append_nil _).symm, ?_⟩
      simp only [standings, hsection, if_true]
      exact .nil
    | @opens hplain hnesting n hopen =>
      obtain rfl : nesting = .opens := hnesting
      refine ⟨Assembly.rows [n], s.rows_open n, ?_⟩
      rw [rows_singleton, Token.asOpened_openedNode hopen, (Token.openedNode_spec hopen).1]
      simp only [standings, hplain, Bool.false_eq_true, if_false]
      exact .cons hopen .nil
    | closes hplain hnesting =>
      obtain rfl : nesting = .closes := hnesting
      refine ⟨[], s.rows_close.trans (List.append_nil _).symm, ?_⟩
      simp only [standings, hplain, Bool.false_eq_true, if_false]
      exact .nil
    | @running hkind hnesting n hinside =>
      obtain rfl : kind = .inline := hkind
      obtain rfl : nesting = .stands := hnesting
      exact ⟨Assembly.rows n.children, s.rows_fileAll n.children, standFor_assemble hinside (rows_steps children)⟩
    | @image hkind hnesting n hinside =>
      obtain rfl : kind = .image := hkind
      obtain rfl : nesting = .stands := hnesting
      refine ⟨Assembly.rows [_], s.rows_file _, ?_⟩
      rw [rows_singleton]
      have hbelow : StandFor (standingsAll false children) (Assembly.rows n.children) :=
        standFor_assemble hinside (rows_steps children)
      exact .cons rfl hbelow
    | leaf hplain himage hnesting =>
      refine ⟨Assembly.rows [_], s.rows_file _, ?_⟩
      rw [rows_singleton, Token.asOpened_leafNode, Token.children_leafNode, standings_leaf hnesting hplain himage]
      obtain rfl : nesting = .stands := hnesting
      exact .cons rfl .nil
termination_by structural t => t

/-- A stream adds the nodes that stand for its tokens, in order, after those that are there. -/
theorem rows_steps : (ts : List Token) → {s s' : State} → steps s ts = .ok s' →
    ∃ added, s'.rows = s.rows ++ added ∧ StandFor (standingsAll s.inHead ts) added
  | [], s, s', h => by
    cases h
    exact ⟨[], (List.append_nil _).symm, .nil⟩
  | t :: ts, s, s', h => by
    obtain ⟨s₁, hfirst, hrest⟩ := exists_of_bind_eq_ok h
    obtain ⟨added, hadded, hstand⟩ := rows_step t hfirst
    obtain ⟨later, hlater, hstandLater⟩ := rows_steps ts hrest
    refine ⟨added ++ later, by rw [hlater, hadded, List.append_assoc], ?_⟩
    rw [inHead_of_does (does_of_step hfirst)] at hstandLater
    exact List.rel_append hstand hstandLater
termination_by structural ts => ts

end

-- ---------------------------------------------------------------------------
-- Streams that close what they open
-- ---------------------------------------------------------------------------

/-- A token that a node stands for, with the tokens of this sort that it encloses. -/
inductive Twig where
  | mk (token : Token) (inside : List Twig)

/-- The stream closes every element that it opens, in order; these are its tokens that nodes stand for, each with those
that it encloses. -/
inductive Nests : List Token → List Twig → Prop where
  | nil : Nests [] []
  | ofSection {t : Token} {ts : List Token} {ws : List Twig} (hsection : t.kind.isTableSection = true) :
    Nests ts ws → Nests (t :: ts) ws
  | element {t c : Token} {us ts : List Token} {inside ws : List Twig} (hplain : t.kind.isTableSection = false)
    (hplain' : c.kind.isTableSection = false) (hopens : t.nesting = .opens) (hcloses : c.nesting = .closes) :
    Nests us inside → Nests ts ws → Nests (t :: (us ++ c :: ts)) (.mk t inside :: ws)
  | running {t : Token} {ts : List Token} {inside ws : List Twig} (hkind : t.kind = .inline)
    (hstands : t.nesting = .stands) : Nests t.children inside → Nests ts ws → Nests (t :: ts) (inside ++ ws)
  | image {t : Token} {ts : List Token} {inside ws : List Twig} (hkind : t.kind = .image)
    (hstands : t.nesting = .stands) : Nests t.children inside → Nests ts ws → Nests (t :: ts) (.mk t inside :: ws)
  | leaf {t : Token} {ts : List Token} {ws : List Twig} (hplain : isPlain t) (himage : t.kind ≠ .image)
    (hstands : t.nesting = .stands) : Nests ts ws → Nests (t :: ts) (.mk t [] :: ws)

/-- A node stands for a token, and what is directly below it for what the token encloses. -/
inductive Mirrors : Twig → Node → Prop where
  | mk {t : Token} {inside : List Twig} {n : Node} {inHead : Bool} (hnode : Standing.node ⟨inHead, t⟩ = .ok n.asOpened)
    (hchildren : List.Forall₂ Mirrors inside n.children) : Mirrors (.mk t inside) n

theorem Mirrors.of_opens {t : Token} {n m : Node} {inside : List Twig} {inHead : Bool} (hopens : t.nesting = .opens)
    (hopen : t.openedNode inHead = .ok n) (hm : m.asOpened = n.asOpened)
    (hbelow : List.Forall₂ Mirrors inside m.children) : Mirrors (.mk t inside) m := by
  have hnode : Standing.node ⟨inHead, t⟩ = .ok m.asOpened := by
    rw [Standing.node, if_pos hopens, hopen, hm, Token.asOpened_openedNode hopen]
  exact .mk hnode hbelow

theorem Mirrors.of_stands {t : Token} {m : Node} {inside : List Twig} (hstands : t.nesting = .stands)
    (hm : m.asOpened = t.leafNode.asOpened) (hbelow : List.Forall₂ Mirrors inside m.children) :
    Mirrors (.mk t inside) m := by
  have hnode : Standing.node ⟨false, t⟩ = .ok m.asOpened := by
    rw [hm, Token.asOpened_leafNode, Standing.node, if_neg (by simp [hstands])]
  exact .mk hnode hbelow

/-- A stream that closes what it opens files nodes that stand in each other as its tokens do, and leaves the open
elements as they were. -/
theorem Nests.files {ts : List Token} {ws : List Twig} (h : Nests ts ws) {s s' : State} (hsteps : steps s ts = .ok s') :
    ∃ ns, s' = { s.fileAll ns with inHead := s'.inHead } ∧ List.Forall₂ Mirrors ws ns := by
  induction h generalizing s s' with
  | nil =>
    cases hsteps
    exact ⟨[], rfl, .nil⟩
  | ofSection hsection _ ih =>
    obtain ⟨s₁, hfirst, hrest⟩ := exists_of_bind_eq_ok hsteps
    rw [step_section s hsection] at hfirst
    cases hfirst
    obtain ⟨ns, hs', hmirrors⟩ := ih hrest
    exact ⟨ns, hs', hmirrors⟩
  | @element t c us ts inside ws hplain hplain' hopens hcloses _ _ ihInside ih =>
    obtain ⟨s₁, hfirst, hrest⟩ := exists_of_bind_eq_ok hsteps
    rw [step_opens s hplain hopens] at hfirst
    obtain ⟨n, hopen, rfl⟩ := exists_of_map_eq_ok hfirst
    rw [steps_append] at hrest
    obtain ⟨s₂, hinside, hrest⟩ := exists_of_bind_eq_ok hrest
    obtain ⟨below, hs₂, hbelow⟩ := ihInside hinside
    obtain ⟨s₃, hclose, hrest⟩ := exists_of_bind_eq_ok hrest
    rw [step_closes s₂ hplain' hcloses, Except.ok.injEq] at hclose
    obtain ⟨ns, hs', hmirrors⟩ := ih hrest
    let f : Frame := { node := n, filed := below.reverse }
    have hchildren : f.finish.children = below := by
      rw [f.children_finish, (Token.openedNode_spec hopen).1, List.nil_append, List.reverse_reverse]
    have hmirror : Mirrors (.mk t inside) f.finish := .of_opens hopens hopen f.asOpened_finish (hchildren ▸ hbelow)
    refine ⟨f.finish :: ns, ?_, .cons hmirror hmirrors⟩
    rw [hs', ← hclose, hs₂]
    simp [State.close, State.open, State.fileAll, Frame.file, f]
  | @running t ts inside ws hkind hstands _ _ ihInside ih =>
    obtain ⟨s₁, hfirst, hrest⟩ := exists_of_bind_eq_ok hsteps
    rw [step_running s hkind hstands] at hfirst
    obtain ⟨s₂, hinside, rfl⟩ := exists_of_map_eq_ok hfirst
    obtain ⟨below, hs₂, hbelow⟩ := ihInside hinside
    obtain ⟨ns, hs', hmirrors⟩ := ih hrest
    refine ⟨below ++ ns, ?_, List.rel_append hbelow hmirrors⟩
    rw [hs', hs₂]
    simp [State.container, State.of, State.fileAll, collapse]
  | @image t ts inside ws hkind hstands _ _ ihInside ih =>
    obtain ⟨s₁, hfirst, hrest⟩ := exists_of_bind_eq_ok hsteps
    rw [step_image s hkind hstands] at hfirst
    obtain ⟨s₂, hinside, rfl⟩ := exists_of_map_eq_ok hfirst
    obtain ⟨below, hs₂, hbelow⟩ := ihInside hinside
    obtain ⟨ns, hs', hmirrors⟩ := ih hrest
    have hclose : s₂.container.close = { t.leafNode with children := below } := by
      rw [hs₂]
      simp [State.container, State.of, State.fileAll, collapse, Frame.close, Token.children_leafNode]
    have hmirror : Mirrors (.mk t inside) { t.leafNode with children := below } :=
      .of_stands hstands (Node.asOpened_children ..) hbelow
    refine ⟨_ :: ns, ?_, .cons hmirror hmirrors⟩
    rw [hs', hclose]
    simp [State.file, State.fileAll, Frame.file]
  | @leaf t ts ws hplain himage hstands _ ih =>
    obtain ⟨s₁, hfirst, hrest⟩ := exists_of_bind_eq_ok hsteps
    rw [step_leaf s hplain himage hstands] at hfirst
    cases hfirst
    obtain ⟨ns, hs', hmirrors⟩ := ih hrest
    have hbelow : List.Forall₂ Mirrors [] t.leafNode.children := by
      rw [Token.children_leafNode]
      exact .nil
    refine ⟨t.leafNode :: ns, ?_, .cons (.of_stands hstands rfl hbelow) hmirrors⟩
    rw [hs']
    simp [State.file, State.fileAll, Frame.file]

end Assembly

open Assembly

/-- A stream, balanced or not, adds nodes after the children of the container: in document order, one for each token
that opens an element or stands alone. In a stream that closes what it opens, each stands in the node of the token that
encloses its own. Running text changes nothing about the open elements around it, but for what it files in the innermost
one. -/
theorem Node.assemble_stands {container n : Node} {ts : List Token} (h : container.assemble ts = .ok n) :
    (∃ added, n = { container with children := container.children ++ added }
      ∧ List.Forall₂ (fun x m => x.node = .ok m.asOpened) (standingsAll false ts) (added.flatMap Node.nodes)
      ∧ ∀ ws, Nests ts ws → List.Forall₂ Mirrors ws added)
    ∧ ∀ s s' t, t.kind = .inline → t.nesting = .stands → step s t = .ok s' → ∃ inside, s' = s.fileAll inside := by
  constructor
  · obtain ⟨m, hm, rfl⟩ := assemble_eq h
    refine ⟨m.children, rfl, ?_, ?_⟩
    · have hstand := standFor_assemble hm (rows_steps ts)
      exact (List.forall₂_map_right_iff (R := fun (x : Standing) m => x.node = .ok m) (f := Node.asOpened)).1 hstand
    · intro ws hnests
      obtain ⟨s, hsteps, hclose⟩ := exists_of_bind_eq_ok hm
      obtain ⟨ns, hs, hmirrors⟩ := hnests.files hsteps
      have hchildren : s.container.close.children = ns := by
        rw [hs]
        simp [State.container, State.of, State.fileAll, collapse, Frame.close, Node.emptyRoot]
      rwa [← Except.ok.inj hclose, hchildren]
  · intro s s' t hkind hstands hstep
    cases does_of_step hstep with
    | @running _ _ n _ => exact ⟨n.children, rfl⟩
    | ofSection hsection =>
      rw [hkind] at hsection
      cases hsection
    | opens _ hopens =>
      rw [hstands] at hopens
      cases hopens
    | closes _ hcloses =>
      rw [hstands] at hcloses
      cases hcloses
    | image himage =>
      rw [hkind] at himage
      cases himage
    | leaf hplain =>
      rw [isPlain, hkind] at hplain
      cases hplain

/-- In a stream that is not balanced, a closing token too many is passed over, what is still open at the end stays where
it is, and a closing token in running text does not close the list item around it. In one that is, nodes stand in each
other as the tokens do. -/
theorem Node.assemble_stands_sample :
    let image : Token := { kind := .image, children := [.literal "b".toList, .closing .linkClose [], .literal "c".toList] }
    let line : List Token := [.closing .listItemClose [], .literal "a".toList, .opening .emOpen "*".toList, image]
    let unbalanced : List Token := [.closing .emClose "*".toList, .opening .bulletListOpen "-".toList,
      .opening .listItemOpen "-".toList, { Token.running [] with children := line }, .closing .theadClose [],
      { kind := .hr }, .closing .listItemClose "-".toList, .closing .bulletListClose "-".toList, .opening .tableOpen []]
    let container : Node := { kind := .root, children := [{ kind := .definition }] }
    let quote : Token := .opening .blockquoteOpen ">".toList
    let emphasis : Token := .opening .emOpen "*".toList
    let text : Token := .literal "a".toList
    let running : Token := { Token.running [] with children := [text, emphasis, text, .closing .emClose "*".toList] }
    let balanced : List Token := [quote, running, .closing .blockquoteClose ">".toList]
    let twig : Twig := .mk quote [.mk text [], .mk emphasis [.mk text []]]
    (∃ n, container.assemble unbalanced = .ok n
        ∧ n.nodes.map Node.kind
          = [.root, .definition, .list, .listItem, .text, .emphasis, .image, .text, .text, .thematicBreak, .table]
        ∧ ∃ added, n.children = { kind := .definition } :: added ∧ List.Forall₂ (fun x m => x.node = .ok m.asOpened)
          (standingsAll false unbalanced) (added.flatMap Node.nodes))
      ∧ Nests balanced [twig]
      ∧ ∃ n added, container.assemble balanced = .ok n ∧ n.children = { kind := .definition } :: added
        ∧ List.Forall₂ Mirrors [twig] added := by
  intro image line unbalanced container quote emphasis text running balanced twig
  have hemphasis : Nests (emphasis :: ([text] ++ [.closing .emClose "*".toList])) [.mk emphasis [.mk text []]] :=
    .element rfl rfl rfl rfl (.leaf rfl nofun rfl .nil) .nil
  have hrunning : Nests [running] ([.mk text [], .mk emphasis [.mk text []]] ++ []) :=
    .running rfl rfl (.leaf rfl nofun rfl hemphasis) .nil
  have hnests : Nests (quote :: ([running] ++ [.closing .blockquoteClose ">".toList])) [twig] :=
    .element rfl rfl rfl rfl hrunning .nil
  refine ⟨⟨_, rfl, by decide, ?_⟩, hnests, ?_⟩
  · obtain ⟨⟨added, hn, hstand, -⟩, -⟩ := Node.assemble_stands (show container.assemble unbalanced = .ok _ from rfl)
    exact ⟨added, congrArg Node.children hn, hstand⟩
  · obtain ⟨n, hassemble⟩ : ∃ n, container.assemble balanced = .ok n := ⟨_, rfl⟩
    obtain ⟨⟨added, hn, -, hmirrors⟩, -⟩ := Node.assemble_stands hassemble
    exact ⟨n, added, hassemble, congrArg Node.children hn, hmirrors [twig] hnests⟩

end MdxSafe
