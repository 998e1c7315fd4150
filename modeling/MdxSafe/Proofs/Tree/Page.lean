-- SUMMARY: The text of a laid document is parsed to the tree of that document.
import MdxSafe.Proofs.Markdown.Headings
import MdxSafe.Proofs.Markdown.Page
import MdxSafe.Proofs.Markdown.Running

/-!
# Parsing documents

The tokens of a block, with running text read, file the node of the block. Together with `Markdown.read_page` this
gives the tree that the text of a laid document is parsed to (`Node.parse_page`).
-/

namespace MdxSafe

open Assembly Outline

variable {opts : Layout.Options} {refs : List Reference} {inHead : Bool}

/-- Tokens with their running text read. -/
def readAll (refs : List Reference) (ts : List Token) : List Token := ts.map (Markdown.readRunning refs)

@[simp] theorem readAll_nil (refs : List Reference) : readAll refs [] = [] := rfl

@[simp] theorem readAll_append (refs : List Reference) (ts us : List Token) :
    readAll refs (ts ++ us) = readAll refs ts ++ readAll refs us :=
  List.map_append

theorem readAll_cons (refs : List Reference) (t : Token) (ts : List Token) :
    readAll refs (t :: ts) = Markdown.readRunning refs t :: readAll refs ts := rfl

-- ---------------------------------------------------------------------------
-- Elements
-- ---------------------------------------------------------------------------

theorem Assembly.Frame.finish_eq {n : Node} (hkind : n.kind ≠ .list) (hchildren : n.children = []) (ns : List Node) :
    ({ node := n, filed := ns.reverse } : Frame).finish = { n with children := ns } := by
  simp [Frame.finish, Frame.close, hkind, hchildren]

/-- Running text files the nodes that it is read as. -/
theorem files_running (refs : List Reference) (u : Text) :
    Files inHead (readAll refs [.running u]) (runningNodes refs u) := by
  obtain ⟨n, hn⟩ := Node.assemble_ok (Inline.allAssemble_parse refs u) Node.emptyRoot
  have h : Files inHead [{ Token.running u with children := Inline.parse refs u }] n.children := Files.running hn u
  rw [runningNodes, hn]
  exact h

theorem readRunning_eq {t : Token} (h : isPlain t) : Markdown.readRunning refs t = t := by
  rw [isPlain, Bool.and_eq_true, bne_iff_ne] at h
  rw [Markdown.readRunning, if_neg h.2]

/-- An element other than a list files its node with the nodes of what stands inside. -/
theorem files_element {t c : Token} {ts : List Token} {n : Node} {ns : List Node} (hencloses : Encloses inHead t c n)
    (hlist : (n.kind == .list) = false) (hchildren : n.children = []) (h : Files inHead (readAll refs ts) ns) :
    Files inHead (readAll refs (t :: ts ++ [c])) [{ n with children := ns }] := by
  rw [readAll_append, readAll_cons, readAll_cons, readRunning_eq hencloses.plain, readRunning_eq hencloses.plain',
    readAll_nil, ← Frame.finish_eq (beq_eq_false_iff_ne.1 hlist) hchildren]
  exact h.element hencloses

/-- A token that stands alone files its node. -/
theorem files_leafToken {t : Token} (hstands : t.nesting = .stands) (hplain : isPlain t)
    (himage : (t.kind == .image) = false) : Files inHead (readAll refs [t]) [{ t with children := [] : Token }.leafNode] := by
  rw [readAll_cons, readRunning_eq hplain, readAll_nil]
  exact Files.leaf hstands hplain himage

-- ---------------------------------------------------------------------------
-- Blocks without blocks inside
-- ---------------------------------------------------------------------------

theorem headingLevel_eq {level : Nat} (h1 : 1 ≤ level) (h6 : level ≤ 6) (markup : Text) :
    ({ Token.opening .headingOpen markup with tag := 'h' :: Text.ofNat level } : Token).headingLevel = .ok level := by
  have hall : ∀ n, n < 6 →
      ({ Token.opening .headingOpen markup with tag := 'h' :: Text.ofNat (n + 1) } : Token).headingLevel
        = .ok ((n + 1 : Nat) : Int) := by
    intro n hn
    match n, hn with
    | 0, _ | 1, _ | 2, _ | 3, _ | 4, _ | 5, _ => rfl
  obtain ⟨n, rfl⟩ : ∃ n, level = n + 1 := ⟨level - 1, by omega⟩
  exact hall n (by omega)

theorem alignment_eq (a : Table.Align) (kind : TokenKind) :
    ({ Token.opening kind [] with attrs := a.style?.toList.map fun s => ("style".toList, .text s) } : Token).alignment
      = alignValue a := by
  cases a <;> rfl

theorem files_paragraph (u : Text) (hidden : Bool) :
    Files inHead (readAll refs ((Leaf.paragraph u).tokens opts hidden)) [(Leaf.paragraph u).node opts refs hidden] := by
  have h : Files inHead
      (readAll refs ({ Token.opening .paragraphOpen [] with hidden } :: [.running u]
        ++ [{ Token.closing .paragraphClose [] with hidden }]))
      [{ ({ kind := .paragraph, attrs := [("hidden".toList, .bool hidden)] } : Node) with
        children := runningNodes refs u }] :=
    files_element ⟨rfl, rfl, rfl, rfl, rfl⟩ rfl rfl (files_running refs u)
  exact h

/-- The tokens of a heading file its node. -/
theorem files_headingTokens {level : Nat} (h1 : 1 ≤ level) (h6 : level ≤ 6) (markup u : Text) :
    Files inHead (readAll refs (Block.headingTokens level markup u))
      [{ kind := .heading, markup, attrs := [("level".toList, .int level)], children := runningNodes refs u }] := by
  have hopen : ({ Token.opening .headingOpen markup with tag := 'h' :: Text.ofNat level } : Token).openedNode inHead
      = .ok { kind := .heading, markup, attrs := [("level".toList, .int level)] } := by
    have hlevel := headingLevel_eq h1 h6 markup
    simp only [Token.openedNode, Token.opening, TokenKind.container] at hlevel ⊢
    rw [hlevel]
    rfl
  have h := files_element (t := { Token.opening .headingOpen markup with tag := 'h' :: Text.ofNat level })
    (c := { Token.closing .headingClose markup with tag := 'h' :: Text.ofNat level })
    (n := { kind := .heading, markup, attrs := [("level".toList, .int level)] }) ⟨rfl, rfl, rfl, rfl, hopen⟩ rfl rfl
    (files_running refs u)
  rw [Block.headingTokens]
  exact h

theorem files_heading {level : Nat} (h1 : 1 ≤ level) (h6 : level ≤ 6) (u : Text) (hidden : Bool) :
    Files inHead (readAll refs ((Leaf.heading level u).tokens opts hidden))
      [(Leaf.heading level u).node opts refs hidden] :=
  files_headingTokens h1 h6 (List.replicate level '#') u

-- ---------------------------------------------------------------------------
-- Tables
-- ---------------------------------------------------------------------------

/-- Streams that file one node each file these nodes one after the other. -/
theorem files_flatten {α : Type} {xs : List α} {f : α → List Token} {g : α → Node}
    (h : ∀ x ∈ xs, Files inHead (readAll refs (f x)) [g x]) :
    Files inHead (readAll refs (xs.flatMap f)) (xs.map g) := by
  induction xs with
  | nil => exact Files.nil
  | cons x xs ih =>
    rw [List.flatMap_cons, readAll_append]
    exact (h x List.mem_cons_self).append (ih fun y hy => h y (List.mem_cons_of_mem x hy))

/-- The tokens of a cell between its pipes. -/
def cellTokens (openCell closeCell : TokenKind) (a : Table.Align) (u : Text) : List Token :=
  [{ Token.opening openCell [] with attrs := a.style?.toList.map fun s => ("style".toList, .text s) }, .running u,
   .closing closeCell []]

theorem rowTokens_eq (openCell closeCell : TokenKind) {aligns : List Table.Align} {cells : List Text}
    (h : cells.length = aligns.length) :
    Block.rowTokens openCell closeCell aligns (cells.map readCell)
      = .opening .trOpen [] :: ((aligns.zip cells).flatMap fun c => cellTokens openCell closeCell c.1 (cellText c.2))
        ++ [.closing .trClose []] := by
  have hcells : ∀ g : Table.Align → Text → List Token,
      aligns.mapIdx (fun i a => g a ((cells.map readCell).getD i []))
        = (aligns.zip cells).map fun c => g c.1 (readCell c.2) := by
    intro g
    refine List.ext_getElem (by simp [h]) fun i hi _ => ?_
    rw [List.length_mapIdx] at hi
    simp [List.getElem?_eq_getElem (h ▸ hi)]
  rw [Block.rowTokens, List.flatMap_def]
  exact congrArg (fun c : List (List Token) => .opening .trOpen [] :: c.flatten ++ [.closing .trClose []])
    (hcells fun a u => cellTokens openCell closeCell a (Text.trimMargin u))

/-- A cell of a table files its node. -/
theorem files_cell {openCell closeCell : TokenKind} (hopen : openCell = .thOpen ∨ openCell = .tdOpen)
    (hclose : closeCell = .thClose ∨ closeCell = .tdClose) (a : Table.Align) (u : Text) :
    Files inHead (readAll refs (cellTokens openCell closeCell a u))
      [{ kind := .tableCell, attrs := [("align".toList, alignValue a)], children := runningNodes refs u }] := by
  have hnode : ({ Token.opening openCell [] with
      attrs := a.style?.toList.map fun s => ("style".toList, .text s) } : Token).openedNode inHead
      = .ok { kind := .tableCell, attrs := [("align".toList, alignValue a)] } := by
    have halign := alignment_eq a openCell
    rcases hopen with rfl | rfl <;>
    · simp only [Token.openedNode, Token.opening, TokenKind.container] at halign ⊢
      rw [halign]
  have hplain : isPlain (.opening openCell []) := by
    rcases hopen with rfl | rfl <;> rfl
  have hplain' : isPlain (.closing closeCell []) := by
    rcases hclose with rfl | rfl <;> rfl
  have h : Files inHead
      (readAll refs ({ Token.opening openCell [] with
          attrs := a.style?.toList.map fun s => ("style".toList, .text s) } :: [.running u] ++ [.closing closeCell []]))
      [{ ({ kind := .tableCell, attrs := [("align".toList, alignValue a)] } : Node) with
        children := runningNodes refs u }] :=
    files_element ⟨rfl, rfl, hplain, hplain', hnode⟩ rfl rfl (files_running refs u)
  exact h

/-- A row of a table files its node. -/
theorem files_row {openCell closeCell : TokenKind} (hopen : openCell = .thOpen ∨ openCell = .tdOpen)
    (hclose : closeCell = .thClose ∨ closeCell = .tdClose) {aligns : List Table.Align} {cells : List Text}
    (h : cells.length = aligns.length) :
    Files inHead (readAll refs (Block.rowTokens openCell closeCell aligns (cells.map readCell)))
      [rowNode refs inHead aligns cells] := by
  rw [rowTokens_eq openCell closeCell h]
  have hcells : Files inHead
      (readAll refs ((aligns.zip cells).flatMap fun c => cellTokens openCell closeCell c.1 (cellText c.2))) _ :=
    files_flatten fun c _ => files_cell hopen hclose c.1 (cellText c.2)
  have hrow := files_element (t := .opening .trOpen []) (c := .closing .trClose [])
    (n := { kind := .tableRow, attrs := [("header".toList, .bool inHead)] }) ⟨rfl, rfl, rfl, rfl, rfl⟩ rfl rfl hcells
  rw [List.zip, List.map_zipWith] at hrow
  exact hrow

/-- The tokens of a table file its node. -/
theorem files_table {aligns : List Table.Align} {head : List Text} {rows : List (List Text)}
    (hhead : head.length = aligns.length) (hrows : ∀ r ∈ rows, r.length = aligns.length) (hidden : Bool) :
    Files false (readAll refs ((Leaf.table aligns head rows).tokens opts hidden))
      [(Leaf.table aligns head rows).node opts refs hidden] := by
  have hheadRow : Files false
      (readAll refs (.opening .theadOpen [] :: Block.rowTokens .thOpen .thClose aligns (head.map readCell)
        ++ [.closing .theadClose []])) [rowNode refs true aligns head] := by
    rw [readAll_append, readAll_cons]
    exact Files.head (files_row (.inl rfl) (.inl rfl) hhead)
  have hbody : Files false
      (readAll refs (if rows = [] then [] else
        .opening .tbodyOpen [] :: rows.flatMap (fun r => Block.rowTokens .tdOpen .tdClose aligns (r.map readCell))
          ++ [.closing .tbodyClose []])) (rows.map (rowNode refs false aligns)) := by
    split
    · next h =>
      rw [h]
      exact Files.nil
    · rw [readAll_append, readAll_cons]
      exact Files.body (files_flatten fun r hr => files_row (.inr rfl) (.inr rfl) (hrows r hr))
  have htokens : (Leaf.table aligns head rows).tokens opts hidden
      = .opening .tableOpen []
        :: ((.opening .theadOpen [] :: Block.rowTokens .thOpen .thClose aligns (head.map readCell)
            ++ [.closing .theadClose []])
          ++ if rows = [] then [] else
            .opening .tbodyOpen [] :: rows.flatMap (fun r => Block.rowTokens .tdOpen .tdClose aligns (r.map readCell))
              ++ [.closing .tbodyClose []])
        ++ [.closing .tableClose []] := by
    rw [Leaf.tokens, Block.tableTokens, List.flatMap_map]
    simp only [List.map_eq_nil_iff, List.cons_append, List.nil_append, List.append_assoc]
  rw [htokens]
  have hinside := hheadRow.append hbody
  rw [← readAll_append] at hinside
  exact files_element (t := .opening .tableOpen []) (c := .closing .tableClose []) (n := { kind := .table })
    ⟨rfl, rfl, rfl, rfl, rfl⟩ rfl rfl hinside

theorem files_leaf {l : Leaf} (hl : l.isLaid opts) (hidden : Bool) :
    Files false (readAll refs (l.tokens opts hidden)) [l.node opts refs hidden] := by
  cases l with
  | paragraph u => exact files_paragraph u hidden
  | heading level u =>
    obtain ⟨h1, h6⟩ := Heading.level_of_read? (isLaid_heading_iff.1 hl).1
    exact files_heading h1 h6 u hidden
  | code info payload =>
    exact files_leafToken (t := { kind := .fence, info, markup := fence opts info payload, content := payload })
      rfl rfl rfl
  | html v => exact files_leafToken (t := { kind := .htmlBlock, content := v ++ ['\n'] }) rfl rfl rfl
  | rule => exact files_leafToken (t := { kind := .hr, markup := "****" }) rfl rfl rfl
  | table aligns head rows =>
    replace hl := isLaid_table_iff.1 hl
    exact files_table hl.length_head hl.length_row hidden

-- ---------------------------------------------------------------------------
-- Containers
-- ---------------------------------------------------------------------------

theorem openedNode_list (digits : Text) (mark : Char) :
    ({ Token.opening (listKinds digits).1 [mark] with attrs := listAttrs digits mark } : Token).openedNode inHead
      = .ok { kind := .list, markup := [mark], attrs := listFields digits mark } := by
  by_cases hd : digits = []
  · subst hd
    rfl
  · have hordered : (⟨digits, mark⟩ : ListMarker).isOrdered = true := decide_eq_true hd
    generalize hn : (⟨digits, mark⟩ : ListMarker).number = n
    have hfirst : ({ Token.opening .orderedListOpen [mark] with attrs := listAttrs digits mark } : Token).firstNumber
        = .ok (if n = 0 then 1 else n) := by
      by_cases h1 : n = 1
      · simp [listAttrs, hn, h1, Token.firstNumber, Fields.get, Fields.get?, Value.truthy]
      · by_cases h0 : n = 0
        · simp [listAttrs, hn, h0, hordered, Token.firstNumber, Fields.get, Fields.get?, Value.truthy]
        · simp [listAttrs, hn, h1, h0, hordered, Token.firstNumber, Fields.get, Fields.get?, Value.truthy, Value.toInt]
    simp only [listKinds, listFields, if_pos hd, hn, Token.openedNode, Token.opening, TokenKind.container] at hfirst ⊢
    rw [if_pos trivial, hfirst]
    rfl

/-- A list files its node, which learns whether it is tight. -/
theorem files_list {mark : Char} {tight : Bool} {its : List Item}
    (h : Files inHead (readAll refs (itemTokens opts mark tight its)) (itemNodes opts refs mark tight its)) :
    Files inHead (readAll refs ((Block.list mark tight its).tokens opts false))
      [(Block.list mark tight its).node opts refs false] := by
  have hplain : isPlain
      { Token.opening (listKinds (firstDigits its)).1 [mark] with attrs := listAttrs (firstDigits its) mark } := by
    unfold listKinds
    split <;> rfl
  have hplain' : isPlain (.closing (listKinds (firstDigits its)).2 [mark]) := by
    unfold listKinds
    split <;> rfl
  rw [Block.tokens, Block.node, readAll_append, readAll_cons, readAll_cons, readRunning_eq hplain,
    readRunning_eq hplain', readAll_nil]
  have helement := h.element ⟨rfl, rfl, hplain, hplain', openedNode_list (firstDigits its) mark⟩
  simpa [Frame.finish, Frame.close] using helement

mutual
/-- A laid block files its node. -/
theorem files_block : (b : Block) → ∀ {depth : Nat} (hidden : Bool), b.isLaid opts depth →
    Files false (readAll refs (b.tokens opts hidden)) [b.node opts refs hidden]
  | .leaf l, depth, hidden, h => by
    rw [Block.tokens, Block.node]
    exact files_leaf (isLaid_leaf_iff.1 h).2 hidden
  | .quote bs, depth, hidden, h => by
    rw [Block.tokens, Block.node]
    exact files_element (t := .opening .blockquoteOpen ['>']) (c := .closing .blockquoteClose ['>'])
      (n := { kind := .blockquote, markup := ['>'] }) ⟨rfl, rfl, rfl, rfl, rfl⟩ rfl rfl
      (files_blocks bs false (isLaid_quote_iff.1 h).blocks)
  | .list mark tight its, depth, hidden, h => files_list (files_items its (isLaid_list_iff.1 h).items)
termination_by structural b => b

theorem files_blocks : (bs : List Block) → ∀ {depth : Nat} (hidden : Bool), areLaid opts depth bs →
    Files false (readAll refs (blockTokens opts hidden bs)) (nodes opts refs hidden bs)
  | [], _, _, _ => Files.nil
  | b :: bs, depth, hidden, h => by
    rw [areLaid_cons_iff] at h
    rw [blockTokens, nodes, readAll_append]
    exact (files_block b hidden h.1).append (files_blocks bs hidden h.2)
termination_by structural bs => bs

theorem files_item : (it : Item) → ∀ {depth : Nat} {mark : Char} {tight bullet : Bool},
    it.isLaid opts depth mark tight bullet →
      Files false (readAll refs (it.tokens opts mark tight)) [it.node opts refs mark tight]
  | .mk digits bs, depth, mark, tight, bullet, h => by
    rw [Item.tokens, Item.node]
    exact files_element (t := itemOpening mark digits) (c := .closing .listItemClose [mark])
      (n := { kind := .listItem, markup := [mark], info := digits }) ⟨rfl, rfl, rfl, rfl, rfl⟩ rfl rfl
      (files_blocks bs tight (isLaid_item_iff.1 h).blocks)
termination_by structural it => it

theorem files_items : (its : List Item) → ∀ {depth : Nat} {mark : Char} {tight bullet : Bool},
    itemsLaid opts depth mark tight bullet its →
      Files false (readAll refs (itemTokens opts mark tight its)) (itemNodes opts refs mark tight its)
  | [], _, _, _, _, _ => Files.nil
  | it :: its, depth, mark, tight, bullet, h => by
    rw [itemsLaid_cons_iff] at h
    rw [itemTokens, itemNodes, readAll_append]
    exact (files_item it h.1).append (files_items its h.2)
termination_by structural its => its
end

-- ---------------------------------------------------------------------------
-- Documents
-- ---------------------------------------------------------------------------

/-- The text of a laid document is parsed to the tree of that document. -/
theorem Node.parse_page (hopts : opts.Readable) {p : Page} (h : p.isLaid opts) :
    Node.parse (p.text opts) = .ok (p.tree opts) := by
  have hfront : Files false (readAll p.refs (p.front.map Page.frontToken).toList) (p.front.map Page.frontNode).toList := by
    cases p.front with
    | none => exact Files.nil
    | some content => exact files_leafToken (t := Page.frontToken content) rfl rfl rfl
  have hbody : Files false (readAll p.refs (blockTokens opts false p.body)) (Outline.nodes opts p.refs false p.body) :=
    files_blocks p.body false (Page.isLaid_iff.1 h).blocks
  have hfiles := hfront.append hbody
  rw [← readAll_append] at hfiles
  have hroot : emptyRoot.assemble (readAll p.refs (p.tokens opts))
      = .ok { emptyRoot with children := (p.front.map Page.frontNode).toList ++ Outline.nodes opts p.refs false p.body } := by
    rw [Page.tokens, assemble, hfiles (.of { node := emptyRoot }) rfl]
    simp [State.fileAll, State.of, State.container, collapse, Frame.close, emptyRoot, bind, Except.bind, pure,
      Except.pure]
  rw [Node.parse, Markdown.read_page hopts h]
  have htokens : (p.tokens opts).map (Markdown.readRunning p.refs) = readAll p.refs (p.tokens opts) := rfl
  simp only [htokens, bind, Except.bind, hroot]
  rfl

end MdxSafe
