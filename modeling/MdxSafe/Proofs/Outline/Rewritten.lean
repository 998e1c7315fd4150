-- SUMMARY: The outline of the tree that a laid outline is read as.
import MdxSafe.Proofs.Outline.Layout

/-!
# Rewritten outlines

Reading an outline and taking the outline of the resulting tree writes every running text anew, and the
definitions as well; everything else stays.
-/

namespace MdxSafe.Outline

variable {opts : Layout.Options} {refs : List Reference}

-- ---------------------------------------------------------------------------
-- Running text written anew
-- ---------------------------------------------------------------------------

/-- Running text, read and written again. -/
def rewrittenText (refs : List Reference) (place : Layout.Place) (u : Text) : Text :=
  Layout.inlines place (runningNodes refs u)

/-- A cell, read and written again. -/
def rewrittenCell (refs : List Reference) (w : Text) : Text :=
  Text.trimBlank (rewrittenText refs { inCell := true } (cellText w))

/-- A block without blocks inside, with its running text written anew. -/
def Leaf.rewritten (refs : List Reference) : Leaf → Leaf
  | .paragraph u => .paragraph (rewrittenText refs {} u)
  | .heading level u => .heading level (Text.trimBlank (rewrittenText refs { inHeading := true } u))
  | .table aligns head rows =>
    .table aligns (head.map (rewrittenCell refs)) (rows.map fun r => r.map (rewrittenCell refs))
  | l => l

mutual
/-- A block with all its running text written anew. -/
def Block.rewritten (refs : List Reference) : Block → Block
  | .leaf l => .leaf (l.rewritten refs)
  | .quote bs => .quote (blocksRewritten refs bs)
  | .list mark tight its => .list mark tight (itemsRewritten refs its)
termination_by structural b => b

/-- Blocks with all their running text written anew. -/
def blocksRewritten (refs : List Reference) : List Block → List Block
  | [] => []
  | b :: bs => b.rewritten refs :: blocksRewritten refs bs
termination_by structural bs => bs

/-- An item with all its running text written anew. -/
def Item.rewritten (refs : List Reference) : Item → Item
  | .mk digits bs => .mk digits (blocksRewritten refs bs)
termination_by structural it => it

/-- Items with all their running text written anew. -/
def itemsRewritten (refs : List Reference) : List Item → List Item
  | [] => []
  | it :: its => it.rewritten refs :: itemsRewritten refs its
termination_by structural its => its
end

/-- A document with all its running text and its definitions written anew. -/
def Page.rewritten (p : Page) : Page where
  front := p.front
  body := blocksRewritten p.refs p.body
  defs := p.refs.map fun r => Layout.definition r.toNode

-- ---------------------------------------------------------------------------
-- Blocks without blocks inside
-- ---------------------------------------------------------------------------

theorem chompAll_append {v : Text} (h : v.getLast? ≠ some '\n') : Layout.chompAll (v ++ ['\n']) = v := by
  rw [Layout.chompAll, Text.trimRight, List.reverse_append]
  cases hv : v.reverse with
  | nil => simp [List.reverse_eq_nil_iff.1 hv]
  | cons c u =>
    have hc : v.getLast? = some c := by rw [List.getLast?_eq_head?_reverse, hv]; rfl
    rw [hc, ne_eq, Option.some.injEq] at h
    have hrev : (c :: u).reverse = v := by rw [← hv, List.reverse_reverse]
    simp [h, ← hrev]

theorem alignOf?_alignValue (a : Table.Align) : alignOf? (alignValue a) = some a := by
  cases a <;> rfl

theorem children_rowNode (inHead : Bool) {aligns : List Table.Align} {cells : List Text}
    (h : cells.length = aligns.length) :
    (rowNode refs inHead aligns cells).children.map writtenCell = cells.map (rewrittenCell refs) := by
  rw [rowNode, List.map_zipWith]
  refine List.ext_getElem (by simp [h]) fun i _ _ => ?_
  simp [writtenCell, rewrittenCell, rewrittenText]

theorem aligns_rowNode (inHead : Bool) {aligns : List Table.Align} {cells : List Text}
    (h : cells.length = aligns.length) :
    ((rowNode refs inHead aligns cells).children.mapM fun c => alignOf? (c.attrs.get "align")) = some aligns := by
  rw [rowNode]
  dsimp only
  induction aligns generalizing cells with
  | nil => rfl
  | cons a aligns ih =>
    cases cells with
    | nil => simp at h
    | cons w cells =>
      have ih := ih (by simpa using h)
      have ha : alignOf? (Fields.get [("align".toList, alignValue a)] "align") = some a := alignOf?_alignValue a
      rw [List.zipWith_cons_cons, List.mapM_cons, ih]
      simp only [ha]
      rfl

/-- The last line of an HTML block is not empty, so its text does not end with a line end. -/
theorem getLast?_html (hopts : opts.Readable) {v : Text} (hl : (Leaf.html v).isLaid opts) :
    v.getLast? ≠ some '\n' := by
  intro h
  obtain ⟨u, rfl⟩ := List.getLast?_eq_some_iff.1 h
  have hlines : Text.splitOn '\n' (u ++ ['\n']) = Text.splitOn '\n' u ++ [[]] := by
    rw [← Text.flatMap_splitOn, ← List.append_nil (List.flatMap _ _)]
    exact Text.splitOn_flatMap_append (fun p hp => Text.notMem_of_mem_splitOn hp) (by simp)
  have hframed := (framed_leaf hopts hl).last
  rw [Leaf.lines, Leaf.text, hlines, List.getLast?_concat] at hframed
  obtain ⟨s, hs, hblank⟩ := hframed
  cases hs
  cases hblank

/-- The outline of the node of a laid block without blocks inside. -/
theorem leafOf?_node (hopts : opts.Readable) {l : Leaf} (hl : l.isLaid opts) (hidden : Bool) :
    leafOf? (l.node opts refs hidden) = some (l.rewritten refs) := by
  cases l with
  | paragraph u => simp only [leafOf?, Leaf.node, Leaf.rewritten, rewrittenText]
  | heading level u =>
    have hlevel : Fields.get? [("level".toList, .int level)] "level" = some (.int (.ofNat level)) := rfl
    simp only [leafOf?, Leaf.node, Leaf.rewritten, rewrittenText, hlevel]
  | code info payload =>
    have hended : endedPayload payload = payload := by
      have := (isLaid_code_iff.1 hl).ended
      rw [endedPayload, if_neg]
      tauto
    simp only [leafOf?, Leaf.node, Node.payload, Option.getD_some, hended]
    rfl
  | html v =>
    have hchomp := chompAll_append (getLast?_html hopts hl)
    obtain ⟨s, ss, k, hl⟩ := isLaid_html_iff.1 hl
    have hkind : (HtmlBlock.kind? ((Text.splitOn '\n' v).headD [])).isSome := by
      rw [hl.lines, List.headD_cons, hl.kind]
      rfl
    simp only [leafOf?, Leaf.node, Node.payload, Option.getD_some, hchomp, hkind]
    rfl
  | rule => rfl
  | table aligns head rows =>
    replace hl := isLaid_table_iff.1 hl
    have hfilter : (rowNode refs true aligns head :: rows.map (rowNode refs false aligns)).filter
        (fun c => c.kind = .tableRow) = rowNode refs true aligns head :: rows.map (rowNode refs false aligns) := by
      rw [List.filter_eq_self]
      intro c hc
      rcases List.mem_cons.1 hc with rfl | hc
      · rfl
      · obtain ⟨r, -, rfl⟩ := List.mem_map.1 hc
        rfl
    have hcells : (rows.map (rowNode refs false aligns)).map (fun r => r.children.map writtenCell)
        = rows.map fun r => r.map (rewrittenCell refs) := by
      rw [List.map_map]
      exact List.map_congr_left fun r hr => children_rowNode false (hl.length_row r hr)
    simp only [leafOf?, Leaf.node, hfilter, aligns_rowNode true hl.length_head, children_rowNode true hl.length_head, hcells]
    rfl

-- ---------------------------------------------------------------------------
-- Lists
-- ---------------------------------------------------------------------------

/-- Whether a node does not keep a list around it from being tight. -/
def keepsTight (n : Node) : Bool := n.kind != .paragraph || (n.attrs.get "hidden").truthy

theorem keepsTight_node (hidden : Bool) (b : Block) :
    keepsTight (b.node opts refs hidden) = (hidden || !hasParagraph [b]) := by
  cases b with
  | leaf l =>
    cases l <;> cases hidden <;> rfl
  | quote bs => cases hidden <;> rfl
  | list mark tight its => cases hidden <;> rfl

theorem all_keepsTight (hidden : Bool) (bs : List Block) :
    (nodes opts refs hidden bs).all keepsTight = (hidden || !hasParagraph bs) := by
  induction bs with
  | nil => cases hidden <;> rfl
  | cons b bs ih =>
    rw [nodes, List.all_cons, ih, keepsTight_node]
    cases hidden <;> simp [hasParagraph]

/-- A list hides its paragraphs if it is tight or has none. -/
theorem hidesParagraphs_eq {mark : Char} {tight : Bool} {its : List Item} (n : Node)
    (hn : n.children = itemNodes opts refs mark tight its) :
    n.hidesParagraphs = (tight || !its.any fun it => hasParagraph it.blocks) := by
  have hhides : n.hidesParagraphs = (itemNodes opts refs mark tight its).all fun item =>
      item.children.all keepsTight := by
    rw [← hn]
    rfl
  rw [hhides]
  clear hhides hn
  induction its with
  | nil => cases tight <;> rfl
  | cons it its ih =>
    obtain ⟨digits, bs⟩ := it
    rw [itemNodes, List.all_cons, ih, Item.node, all_keepsTight]
    cases tight <;> simp [Item.blocks]

/-- The node of a list finds out whether the list is tight. -/
theorem hidesParagraphs_node {mark : Char} {tight : Bool} {its : List Item} (h : (tight || isLoose its) = true)
    (n : Node) (hn : n.children = itemNodes opts refs mark tight its) : n.hidesParagraphs = tight := by
  rw [hidesParagraphs_eq n hn]
  cases tight with
  | true => rfl
  | false =>
    simp only [Bool.false_or, isLoose, Bool.and_eq_true] at h
    simp only [h.2, Bool.false_or, Bool.not_true]

theorem listShape?_node {mark : Char} {tight : Bool} {its : List Item} (h : (tight || isLoose its) = true) :
    listShape? ((Block.list mark tight its).node opts refs false)
      = some (mark, decide (firstDigits its ≠ []), tight) := by
  rw [Block.node]
  dsimp only
  rw [hidesParagraphs_node h _ rfl]
  by_cases hd : firstDigits its = []
  · rw [listFields, if_neg (by simpa using hd), hd]
    cases tight <;> rfl
  · rw [listFields, if_pos hd, decide_eq_true hd]
    cases tight <;> rfl

-- ---------------------------------------------------------------------------
-- Blocks
-- ---------------------------------------------------------------------------

theorem outline?_of_leaf {n : Node} {l : Leaf} (h : leafOf? n = some l) : outline? n = some (.leaf l) := by
  obtain ⟨kind, value, url, title, markup, info, attrs, children⟩ := n
  rw [outline?.eq_def]
  dsimp only
  split
  · cases h
  · cases h
  · rw [h]
    rfl

theorem outline?_of_quote {n : Node} {bs : List Block} (hkind : n.kind = .blockquote)
    (h : outlines? n.children = some bs) : outline? n = some (.quote bs) := by
  obtain ⟨kind, value, url, title, markup, info, attrs, children⟩ := n
  cases hkind
  rw [outline?, h]
  rfl

theorem outline?_of_list {n : Node} {mark : Char} {ordered tight : Bool} {its : List Item} (hkind : n.kind = .list)
    (hshape : listShape? n = some (mark, ordered, tight)) (h : itemOutlines? ordered n.children = some its) :
    outline? n = some (.list mark tight its) := by
  obtain ⟨kind, value, url, title, markup, info, attrs, children⟩ := n
  cases hkind
  simp only [outline?, hshape, h]
  rfl

/-- The digits of the first item say of all items whether they have some. -/
theorem bullet_eq {its : List Item} (hne : its ≠ []) :
    decide ((its.map Item.digits).head? = some []) = !decide (firstDigits its ≠ []) := by
  obtain ⟨it, its, rfl⟩ := List.exists_cons_of_ne_nil hne
  by_cases h : it.digits = [] <;> simp [firstDigits, h]

mutual
/-- The outline of the node of a laid block. -/
theorem outline?_node (hopts : opts.Readable) : (b : Block) → ∀ {depth : Nat} (hidden : Bool), b.isLaid opts depth →
    outline? (b.node opts refs hidden) = some (b.rewritten refs)
  | .leaf l, depth, hidden, h => by
    rw [Block.node, Block.rewritten]
    exact outline?_of_leaf (leafOf?_node hopts (isLaid_leaf_iff.1 h).2 hidden)
  | .quote bs, depth, hidden, h => by
    rw [Block.node, Block.rewritten]
    exact outline?_of_quote rfl (outlines?_nodes hopts bs false (isLaid_quote_iff.1 h).blocks)
  | .list mark tight its, depth, hidden, h => by
    obtain ⟨-, hne, hloose, -, hits⟩ := isLaid_list_iff.1 h
    rw [Block.rewritten]
    have hchildren : ((Block.list mark tight its).node opts refs hidden).children
        = itemNodes opts refs mark tight its := by rw [Block.node]
    refine outline?_of_list (by rw [Block.node]) (listShape?_node hloose) ?_
    rw [hchildren]
    rw [bullet_eq hne] at hits
    exact itemOutlines?_nodes hopts its (by simpa using hits)
termination_by structural b => b

theorem outlines?_nodes (hopts : opts.Readable) : (bs : List Block) → ∀ {depth : Nat} (hidden : Bool),
    areLaid opts depth bs → outlines? (nodes opts refs hidden bs) = some (blocksRewritten refs bs)
  | [], depth, hidden, h => rfl
  | b :: bs, depth, hidden, h => by
    rw [areLaid_cons_iff] at h
    rw [nodes, outlines?, outline?_node hopts b hidden h.1, outlines?_nodes hopts bs hidden h.2, blocksRewritten]
termination_by structural bs => bs

theorem itemOutline?_node (hopts : opts.Readable) : (it : Item) → ∀ {depth : Nat} {mark : Char} {tight ordered : Bool},
    it.isLaid opts depth mark tight (!ordered) →
      itemOutline? ordered (it.node opts refs mark tight) = some (it.rewritten refs)
  | .mk digits bs, depth, mark, tight, ordered, h => by
    replace h := isLaid_item_iff.1 h
    have hbullet := h.bullet
    rw [Item.node, itemOutline?, outlines?_nodes hopts bs tight h.blocks, Item.rewritten]
    cases ordered with
    | false =>
      have hd : digits = [] := by simpa using hbullet
      simp [hd]
    | true =>
      have hd : digits ≠ [] := by simpa using hbullet
      simp [hd]
termination_by structural it => it

theorem itemOutlines?_nodes (hopts : opts.Readable) : (its : List Item) →
    ∀ {depth : Nat} {mark : Char} {tight ordered : Bool}, itemsLaid opts depth mark tight (!ordered) its →
      itemOutlines? ordered (itemNodes opts refs mark tight its) = some (itemsRewritten refs its)
  | [], depth, mark, tight, ordered, h => rfl
  | it :: its, depth, mark, tight, ordered, h => by
    rw [itemsLaid_cons_iff] at h
    rw [itemNodes, itemOutlines?, itemOutline?_node hopts it h.1, itemOutlines?_nodes hopts its h.2, itemsRewritten]
termination_by structural its => its
end

-- ---------------------------------------------------------------------------
-- Documents
-- ---------------------------------------------------------------------------

/-- No block is front matter or a definition. -/
theorem kind_node (hidden : Bool) (b : Block) :
    (b.node opts refs hidden).kind ≠ .frontMatter ∧ (b.node opts refs hidden).kind ≠ .definition := by
  cases b with
  | leaf l => cases l <;> exact ⟨nofun, nofun⟩
  | quote bs => exact ⟨nofun, nofun⟩
  | list mark tight its => exact ⟨nofun, nofun⟩

theorem isDefinition_nodes (hidden : Bool) (bs : List Block) :
    ∀ n ∈ nodes opts refs hidden bs, Layout.isDefinition n = false := by
  induction bs with
  | nil => simp [nodes]
  | cons b bs ih =>
    intro n hn
    rw [nodes] at hn
    rcases List.mem_cons.1 hn with rfl | hn
    · exact decide_eq_false (kind_node hidden b).2
    · exact ih n hn

/-- The front matter and the blocks of a document are no definitions. -/
theorem isDefinition_parts (opts : Layout.Options) (p : Page) :
    ∀ n ∈ (p.front.map Page.frontNode).toList ++ nodes opts p.refs false p.body, Layout.isDefinition n = false := by
  intro n hn
  rcases List.mem_append.1 hn with hn | hn
  · simp only [Option.mem_toList, Option.map_eq_some_iff] at hn
    obtain ⟨content, -, rfl⟩ := hn
    rfl
  · exact isDefinition_nodes false p.body n hn

theorem isDefinition_refs (refs : List Reference) : ∀ n ∈ refs.map Reference.toNode, Layout.isDefinition n = true := by
  intro n hn
  obtain ⟨r, -, rfl⟩ := List.mem_map.1 hn
  rfl

theorem definitions_tree (opts : Layout.Options) (p : Page) :
    (p.tree opts).children.filter Layout.isDefinition = p.refs.map Reference.toNode := by
  rw [Page.tree, List.filter_append, List.filter_eq_nil_iff.2 (by simpa using isDefinition_parts opts p), List.nil_append,
    List.filter_eq_self.2 (isDefinition_refs p.refs)]

theorem parts_tree (opts : Layout.Options) (p : Page) :
    (p.tree opts).children.filter (fun n => !Layout.isDefinition n)
      = (p.front.map Page.frontNode).toList ++ nodes opts p.refs false p.body := by
  rw [Page.tree, List.filter_append, List.filter_eq_self.2 (by simpa using isDefinition_parts opts p),
    List.filter_eq_nil_iff.2 (by simpa using isDefinition_refs p.refs), List.append_nil]

/-- The outline of the tree of a laid document. -/
theorem ofTree?_tree (hopts : opts.Readable) {p : Page} (h : p.isLaid opts) :
    Page.ofTree? (p.tree opts) = some p.rewritten := by
  obtain ⟨hfront, -, hlaid, -, -, -, -, -⟩ := Page.isLaid_iff.1 h
  have hbody : outlines? (nodes opts p.refs false p.body) = some (blocksRewritten p.refs p.body) :=
    outlines?_nodes hopts p.body false hlaid
  have hdefLines : (p.refs.map Reference.toNode).map Layout.definition = p.rewritten.defs := by
    rw [List.map_map]
    rfl
  unfold Page.ofTree?
  simp only [definitions_tree, parts_tree, hdefLines]
  cases hp : p.front with
  | some content =>
    rw [hp, Option.all_some, isFront, Bool.and_eq_true, decide_eq_true_eq] at hfront
    simp only [Option.map_some, Option.toList_some, List.singleton_append, Page.frontNode, if_true, hbody,
      Node.payload, Option.getD_some, hfront.1]
    rw [Page.rewritten, hp]
  | none =>
    simp only [Option.map_none, Option.toList_none, List.nil_append]
    cases hb : p.body with
    | nil =>
      simp only [nodes]
      rw [Page.rewritten, hp, hb]
      rfl
    | cons b bs =>
      rw [hb, nodes] at hbody
      simp only [nodes, (kind_node false b).1, if_false, hbody]
      rw [Page.rewritten, hp, hb]
      rfl

end MdxSafe.Outline
