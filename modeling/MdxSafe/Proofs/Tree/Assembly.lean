-- SUMMARY: What token streams file: the nodes of elements, leaves and running text.
import MdxSafe.Tree.Reader

/-!
# Filing nodes

`Files` says of a stream of tokens that it files a row of nodes into whatever element is open and leaves
everything else as it was. Streams one after the other file their nodes one after the other, and a stream
between the tokens of an element files one node with the nodes of the stream inside.

Running text is a stream of its own that files into the element around it. What it files does not depend on
that element (`steps_over`), so it can be computed in an empty one.
-/

namespace MdxSafe.Assembly

-- ---------------------------------------------------------------------------
-- Filing several nodes
-- ---------------------------------------------------------------------------

/-- File nodes one after the other. -/
def State.fileAll (s : State) (ns : List Node) : State :=
  { s with top := { s.top with filed := ns.reverse ++ s.top.filed } }

theorem State.fileAll_fileAll (s : State) (ns ms : List Node) : (s.fileAll ns).fileAll ms = s.fileAll (ns ++ ms) := by
  simp [fileAll]

theorem steps_append (s : State) (ts us : List Token) :
    steps s (ts ++ us) = (steps s ts).bind fun s => steps s us := by
  induction ts generalizing s with
  | nil => rfl
  | cons t ts ih =>
    rw [List.cons_append, steps, steps]
    cases step s t with
    | error e => rfl
    | ok s => exact ih s

-- ---------------------------------------------------------------------------
-- What a token does
-- ---------------------------------------------------------------------------

/-- Whether a token is neither running text nor part of the frame of a table. -/
def isPlain (t : Token) : Bool := !t.kind.isTableSection && t.kind != .inline

theorem isTableSection_of_isPlain {t : Token} (h : isPlain t) : t.kind.isTableSection = false := by
  rw [isPlain, Bool.and_eq_true, Bool.not_eq_true'] at h
  exact h.1

section Step

variable (s : State) {t : Token}

theorem step_section (hsection : t.kind.isTableSection = true) :
    step s t = .ok { s with inHead := t.kind = .theadOpen } := by
  obtain ⟨kind, nesting, tag, attrs, content, markup, info, hidden, children⟩ := t
  have hkind : kind.isTableSection = true := hsection
  simp only [step, hkind, if_true]

theorem step_opens (hplain : t.kind.isTableSection = false) (hopens : t.nesting = .opens) :
    step s t = (t.openedNode s.inHead).map s.open := by
  obtain ⟨kind, nesting, tag, attrs, content, markup, info, hidden, children⟩ := t
  have hkind : kind.isTableSection = false := hplain
  cases hopens
  simp only [step, hkind, Bool.false_eq_true, if_false]
  rfl

theorem step_closes (hplain : t.kind.isTableSection = false) (hcloses : t.nesting = .closes) :
    step s t = .ok s.close := by
  obtain ⟨kind, nesting, tag, attrs, content, markup, info, hidden, children⟩ := t
  have hkind : kind.isTableSection = false := hplain
  cases hcloses
  simp only [step, hkind, Bool.false_eq_true, if_false]

theorem step_running (hkind : t.kind = .inline) (hstands : t.nesting = .stands) :
    step s t = (steps (.of s.top) t.children).map fun inside => { s with top := inside.container } := by
  obtain ⟨kind, nesting, tag, attrs, content, markup, info, hidden, children⟩ := t
  cases hkind
  cases hstands
  rfl

theorem step_image (hkind : t.kind = .image) (hstands : t.nesting = .stands) :
    step s t
      = (steps (.of { node := t.leafNode }) t.children).map fun inside => s.file inside.container.close := by
  obtain ⟨kind, nesting, tag, attrs, content, markup, info, hidden, children⟩ := t
  cases hkind
  cases hstands
  rfl

theorem step_leaf (hplain : isPlain t) (himage : t.kind ≠ .image) (hstands : t.nesting = .stands) :
    step s t = .ok (s.file t.leafNode) := by
  obtain ⟨kind, nesting, tag, attrs, content, markup, info, hidden, children⟩ := t
  cases hstands
  cases kind
  case inline => cases hplain
  case image => exact absurd rfl himage
  case theadOpen | theadClose | tbodyOpen | tbodyClose => cases hplain
  all_goals rfl

end Step

-- ---------------------------------------------------------------------------
-- What a stream files
-- ---------------------------------------------------------------------------

/-- The tokens file the nodes into the innermost element; `inHead` says whether a table head is open. -/
def Files (inHead : Bool) (ts : List Token) (ns : List Node) : Prop :=
  ∀ s : State, s.inHead = inHead → steps s ts = .ok (s.fileAll ns)

/-- The tokens around an element, and the node that is opened for it. -/
structure Encloses (inHead : Bool) (t c : Token) (n : Node) : Prop where
  opens : t.nesting = .opens
  closes : c.nesting = .closes
  plain : isPlain t
  plain' : isPlain c
  opened : t.openedNode inHead = .ok n

namespace Files

variable {inHead : Bool} {ts us : List Token} {ns ms : List Node}

theorem nil : Files inHead [] [] := fun _ _ => rfl

theorem append (h : Files inHead ts ns) (h' : Files inHead us ms) : Files inHead (ts ++ us) (ns ++ ms) := by
  intro s hs
  rw [steps_append, h s hs, ← State.fileAll_fileAll]
  exact h' (s.fileAll ns) hs

/-- The tokens of an element file its node. -/
theorem element {t c : Token} {n : Node} (hencloses : Encloses inHead t c n) (h : Files inHead ts ns) :
    Files inHead (t :: ts ++ [c]) [({ node := n, filed := ns.reverse } : Frame).finish] := by
  intro s hs
  obtain ⟨ht, hc, hplain, hplain', hopen⟩ := hencloses
  have hstart : step s t = .ok (s.open n) := by
    rw [step_opens s (isTableSection_of_isPlain hplain) ht, hs, hopen]
    rfl
  have hend : step ((s.open n).fileAll ns) c = .ok (s.file ({ node := n, filed := ns.reverse } : Frame).finish) := by
    rw [step_closes _ (isTableSection_of_isPlain hplain') hc]
    simp [State.close, State.open, State.fileAll, State.file]
  have hinside := h (s.open n) hs
  rw [List.cons_append, steps, hstart]
  simp only [bind, Except.bind]
  rw [steps_append, hinside]
  simp only [Except.bind, steps, hend]
  rfl

/-- A token that stands alone files its node. -/
theorem leaf {t : Token} (hstands : t.nesting = .stands) (hplain : isPlain t) (himage : (t.kind == .image) = false) :
    Files inHead [t] [{ t with children := [] : Token }.leafNode] := by
  intro s hs
  rw [steps, step_leaf s hplain (beq_eq_false_iff_ne.1 himage) hstands]
  rfl

/-- The tokens around the head of a table file nothing of their own. -/
theorem head (h : Files true ts ns) :
    Files false (.opening .theadOpen [] :: ts ++ [.closing .theadClose []]) ns := by
  intro s hs
  have hin : steps { s with inHead := true } ts = .ok ({ s with inHead := true }.fileAll ns) := h _ rfl
  have hend : steps ({ s with inHead := true }.fileAll ns) [.closing .theadClose []] = .ok (s.fileAll ns) := by
    obtain ⟨top, outer, inHead⟩ := s
    cases hs
    rfl
  rw [List.cons_append, steps]
  exact (steps_append { s with inHead := true } ts _).trans (by rw [hin]; exact hend)

/-- Nor do those around its body. -/
theorem body (h : Files false ts ns) :
    Files false (.opening .tbodyOpen [] :: ts ++ [.closing .tbodyClose []]) ns := by
  intro s hs
  have hin : steps { s with inHead := false } ts = .ok ({ s with inHead := false }.fileAll ns) := h _ rfl
  have hend : steps ({ s with inHead := false }.fileAll ns) [.closing .tbodyClose []] = .ok (s.fileAll ns) := by
    obtain ⟨top, outer, inHead⟩ := s
    cases hs
    rfl
  rw [List.cons_append, steps]
  exact (steps_append { s with inHead := false } ts _).trans (by rw [hin]; exact hend)

end Files

-- ---------------------------------------------------------------------------
-- Streams inside an element
-- ---------------------------------------------------------------------------

/-- A frame with another one's node and filed nodes below its own. -/
def Frame.over (base f : Frame) : Frame := { node := base.node, filed := f.filed ++ base.filed }

/-- Open elements with a base below the outermost one. -/
def overLast (base : Frame) : List Frame → List Frame
  | [] => []
  | [f] => [base.over f]
  | f :: g :: fs => f :: overLast base (g :: fs)

/-- A state with a base below its container. -/
def State.over (base : Frame) (s : State) : State :=
  match s.outer with
  | [] => { s with top := base.over s.top }
  | f :: fs => { s with outer := overLast base (f :: fs) }

variable {base : Frame}

theorem over_file (s : State) (n : Node) : (s.over base).file n = (s.file n).over base := by
  obtain ⟨top, outer, inHead⟩ := s
  cases outer <;> rfl

theorem over_open (s : State) (n : Node) : (s.over base).open n = (s.open n).over base := by
  obtain ⟨top, outer, inHead⟩ := s
  cases outer <;> rfl

theorem over_close (s : State) : (s.over base).close = s.close.over base := by
  obtain ⟨top, outer, inHead⟩ := s
  match outer with
  | [] | [f] | f :: g :: fs => rfl

theorem over_inHead (s : State) : (s.over base).inHead = s.inHead := by
  obtain ⟨top, outer, inHead⟩ := s
  cases outer <;> rfl

theorem over_setHead (s : State) (b : Bool) : { s.over base with inHead := b } = { s with inHead := b }.over base := by
  obtain ⟨top, outer, inHead⟩ := s
  cases outer <;> rfl

theorem over_container (s : State) : (s.over base).container = base.over s.container := by
  obtain ⟨top, outer, inHead⟩ := s
  induction outer generalizing top with
  | nil => rfl
  | cons f fs ih =>
    have h := ih (f.file top.close)
    cases fs with
    | nil => rfl
    | cons g fs => exact h

mutual
/-- What a token does does not depend on what lies below the container. -/
theorem step_over (base : Frame) : (t : Token) → (s : State) → step (s.over base) t = (step s t).map (State.over base)
  | ⟨kind, nesting, tag, attrs, content, markup, info, hidden, children⟩, s => by
    simp only [step]
    by_cases hsection : kind.isTableSection
    · simp only [hsection, if_true, over_setHead]
      rfl
    · simp only [hsection, if_false, over_inHead, Bool.false_eq_true]
      cases nesting with
      | opens =>
        cases Token.openedNode s.inHead ⟨kind, .opens, tag, attrs, content, markup, info, hidden, []⟩ with
        | error e => rfl
        | ok n => exact congrArg Except.ok (over_open s n)
      | closes => exact congrArg Except.ok (over_close s)
      | stands =>
        cases kind
        case inline =>
          obtain ⟨top, outer, inHead⟩ := s
          cases outer with
          | nil =>
            have hinside : steps (State.of (base.over top)) children = _ := steps_over base children (State.of top)
            simp only [State.over, hinside]
            cases steps (State.of top) children with
            | error e => rfl
            | ok s => exact congrArg (fun f => Except.ok ({ top := f, inHead } : State)) (over_container s)
          | cons f fs =>
            simp only [State.over]
            cases steps (State.of top) children <;> rfl
        case image =>
          cases steps (State.of { node := Token.leafNode ⟨.image, .stands, tag, attrs, content, markup, info, hidden, []⟩ })
            children with
          | error e => rfl
          | ok inside => exact congrArg Except.ok (over_file s _)
        all_goals exact congrArg Except.ok (over_file s _)
termination_by structural t => t

theorem steps_over (base : Frame) : (ts : List Token) → (s : State) →
    steps (s.over base) ts = (steps s ts).map (State.over base)
  | [], s => rfl
  | t :: ts, s => by
    rw [steps, steps, step_over base t s]
    cases step s t with
    | error e => rfl
    | ok s => exact steps_over base ts s
termination_by structural ts => ts
end

/-- A stream files into any element what it files into an empty tree. -/
theorem steps_of {ts : List Token} {n : Node} (h : Node.emptyRoot.assemble ts = .ok n) (f : Frame) :
    ∃ s, steps (.of f) ts = .ok s ∧ s.container = { f with filed := n.children.reverse ++ f.filed } := by
  cases hsteps : steps (.of { node := Node.emptyRoot }) ts with
  | error e =>
    simp only [Node.assemble, hsteps] at h
    cases h
  | ok s =>
    simp only [Node.assemble, hsteps] at h
    cases h
    have hover : ∀ f : Frame, steps (.of f) ts = .ok (s.over f) := by
      intro f
      have := steps_over f ts (.of { node := Node.emptyRoot })
      rwa [hsteps] at this
    -- the empty tree is a base of the stream as well, so its node is still there at the end
    have hnode : s.container.node = Node.emptyRoot := by
      have hself := hover { node := Node.emptyRoot }
      rw [hsteps, Except.ok.injEq] at hself
      rw [hself, over_container]
      rfl
    refine ⟨s.over f, hover f, ?_⟩
    rw [over_container]
    simp [Frame.over, Frame.close, hnode, Node.emptyRoot]

/-- Running text files the nodes of its own stream. -/
theorem Files.running {inHead : Bool} {ts : List Token} {n : Node} (h : Node.emptyRoot.assemble ts = .ok n)
    (content : Text) : Files inHead [{ Token.running content with children := ts }] n.children := by
  intro s hs
  obtain ⟨inside, hsteps, hcontainer⟩ := steps_of h s.top
  have hstep : step s { Token.running content with children := ts } = .ok (s.fileAll n.children) := by
    simp only [Token.running, step, hsteps]
    exact congrArg (fun f => Except.ok { s with top := f }) hcontainer
  rw [steps, hstep]
  rfl

end MdxSafe.Assembly
