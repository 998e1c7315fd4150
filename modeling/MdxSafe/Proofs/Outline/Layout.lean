-- SUMMARY: A tree is written as the text of its outline.
import MdxSafe.Proofs.Outline.Page

/-!
# Writing outlines

A node that has an outline is written as the text of that outline, whatever it is laid out like. A document tree
has its front matter first, if there is any, and its definitions are written last, wherever they stand.
-/

namespace MdxSafe

namespace Outline

variable {opts : Layout.Options}

-- ---------------------------------------------------------------------------
-- Blocks without blocks inside
-- ---------------------------------------------------------------------------

theorem headingLine_trimBlank (level : Int) (u : Text) :
    Layout.headingLine level (Text.trimBlank u) = Layout.headingLine level u := by
  have htrim : Text.trimBlank (Text.trimBlank u) = Text.trimBlank u := Text.trim_trim isBlank u
  rw [Layout.headingLine, Layout.headingLine, htrim]

theorem fencedCode_endedPayload (info payload : Text) :
    Layout.fencedCode opts info (endedPayload payload) = Layout.fencedCode opts info payload := by
  have hended : ∀ t : Text, (if t ≠ [] ∧ t.getLast? ≠ some '\n' then t ++ ['\n'] else t) = endedPayload t :=
    fun _ => rfl
  have hagain : endedPayload (endedPayload payload) = endedPayload payload := by
    by_cases h : payload ≠ [] ∧ payload.getLast? ≠ some '\n'
    · simp [endedPayload, h]
    · rw [endedPayload, endedPayload, if_neg h, if_neg h]
  rw [Layout.fencedCode, Layout.fencedCode]
  simp only [hended, hagain]

theorem delimiterCell_of_alignOf? {v : Value} {a : Table.Align} (h : alignOf? v = some a) :
    Layout.delimiterCell v = .ok (delimiter a) := by
  cases v with
  | text t =>
    cases h
    simp only [Layout.delimiterCell]
    split_ifs <;> rfl
  | list items => cases h
  | object fields => cases h
  | null | bool | int | float =>
    cases h
    rfl

theorem mapM_delimiterCell {cs : List Node} {aligns : List Table.Align}
    (h : (cs.mapM fun c => alignOf? (c.attrs.get "align")) = some aligns) :
    (cs.mapM fun c => Layout.delimiterCell (c.attrs.get "align")) = .ok (aligns.map delimiter) := by
  induction cs generalizing aligns with
  | nil =>
    rw [List.mapM_nil] at h
    cases h
    rfl
  | cons c cs ih =>
    rw [List.mapM_cons] at h
    simp only [Option.bind_eq_bind, Option.bind_eq_some_iff, Option.pure_def, Option.some.injEq] at h
    obtain ⟨a, ha, as, has, rfl⟩ := h
    rw [List.mapM_cons, delimiterCell_of_alignOf? ha, ih has]
    rfl

/-- A table is written as its rows. -/
theorem table_eq {n : Node} {head : Node} {rows : List Node} {aligns : List Table.Align}
    (hrows : (n.children.filter fun c => c.kind = .tableRow) = head :: rows)
    (haligns : (head.children.mapM fun c => alignOf? (c.attrs.get "align")) = some aligns) :
    Layout.table n = .ok (Text.join ['\n']
      (tableRows aligns (head.children.map writtenCell) (rows.map fun r => r.children.map writtenCell))) := by
  rw [Layout.table, hrows]
  simp only [mapM_delimiterCell haligns]
  have htail : rows.map Layout.tableRow = (rows.map fun r => r.children.map writtenCell).map Layout.row := by
    rw [List.map_map]
    rfl
  rw [htail]
  rfl

theorem heading_eq {n : Node} {level : Nat} (h : n.attrs.get? "level" = some (.int (.ofNat level))) :
    Layout.intAttr n "level" 1 = .ok level := by
  rw [Layout.intAttr, h]
  rfl

/-- A node without blocks inside is written as the text of its outline. -/
theorem block_of_leafOf? {n : Node} {l : Leaf} (h : leafOf? n = some l) : Layout.block opts n = .ok (l.text opts) := by
  obtain ⟨kind, value, url, title, markup, info, attrs, children⟩ := n
  simp only [leafOf?] at h
  split at h
  · cases h
    rfl
  · split at h
    · next level hlevel =>
      cases h
      have hattr := heading_eq (n := ⟨.heading, value, url, title, markup, info, attrs, children⟩) hlevel
      simp only [Layout.block, hattr, Leaf.text, headingLine_trimBlank]
      rfl
    · cases h
  · cases h
    simp only [Layout.block, Leaf.text, fencedCode_endedPayload]
  · cases h
    simp only [Layout.block]
    split <;> rfl
  · cases h
    rfl
  · split at h
    · cases h
    · next head rows hrows =>
      rw [Option.map_eq_some_iff] at h
      obtain ⟨aligns, haligns, rfl⟩ := h
      simp only [Layout.block]
      exact table_eq hrows haligns
  · cases h

-- ---------------------------------------------------------------------------
-- Containers
-- ---------------------------------------------------------------------------

/-- What the layout needs to know of a list. -/
theorem listShape?_eq {n : Node} {mark : Char} {ordered tight : Bool} (h : listShape? n = some (mark, ordered, tight)) :
    n.markup = [mark] ∧ Layout.flagAttr n "ordered" false = ordered ∧ Layout.flagAttr n "tight" true = tight
      ∧ ∃ start, Layout.intAttr n "start" 1 = .ok start := by
  unfold listShape? at h
  split at h
  · next hmarkup hstart =>
    cases h
    exact ⟨hmarkup, rfl, rfl, 1, by rw [Layout.intAttr, hstart]; rfl⟩
  · next start hmarkup hstart =>
    cases h
    exact ⟨hmarkup, rfl, rfl, start, by rw [Layout.intAttr, hstart]; rfl⟩
  · cases h

mutual
/-- A node that has an outline is written as the text of that outline. -/
theorem block_of_outline? : (n : Node) → ∀ {b : Block}, outline? n = some b → Layout.block opts n = .ok (b.text opts)
  | ⟨kind, value, url, title, markup, info, attrs, children⟩, b, h => by
    rw [outline?.eq_def] at h
    dsimp only at h
    split at h
    · rw [Option.map_eq_some_iff] at h
      obtain ⟨bs, hbs, rfl⟩ := h
      simp only [Layout.block, blocks_of_outlines? children hbs]
      rfl
    · split at h
      · next mark ordered tight hshape =>
        rw [Option.map_eq_some_iff] at h
        obtain ⟨its, hits, rfl⟩ := h
        obtain ⟨hmarkup, hordered, htight, start, hstart⟩ := listShape?_eq hshape
        subst hmarkup
        simp only [Layout.block, hordered, htight, hstart, items_of_outlines? children hits]
        rfl
      · cases h
    · rw [Option.map_eq_some_iff] at h
      obtain ⟨l, hl, rfl⟩ := h
      rw [Block.text]
      exact block_of_leafOf? hl
termination_by structural n => n

theorem blocks_of_outlines? : (ns : List Node) → ∀ {bs : List Block}, outlines? ns = some bs →
    Layout.blocks opts ns = .ok (texts opts bs)
  | [], bs, h => by
    cases h
    rfl
  | n :: ns, bs, h => by
    rw [outlines?] at h
    split at h
    · next b bs hb hbs =>
      cases h
      simp only [Layout.blocks, block_of_outline? n hb, blocks_of_outlines? ns hbs]
      rfl
    · cases h
termination_by structural ns => ns

theorem item_of_outline? : (n : Node) → ∀ {ordered : Bool} {it : Item} {mark : Char} {tight : Bool} {start : Int}
    {index : Nat}, itemOutline? ordered n = some it →
      Layout.item opts tight (Layout.itemMarker ordered [mark] start index) n = .ok (it.text opts mark tight)
  | ⟨kind, value, url, title, markup, info, attrs, children⟩, ordered, it, mark, tight, start, index, h => by
    rw [itemOutline?] at h
    split at h
    · cases h
    · next hinfo =>
      rw [Option.map_eq_some_iff] at h
      obtain ⟨bs, hbs, rfl⟩ := h
      simp only [Layout.item, blocks_of_outlines? children hbs]
      have hmarker : Layout.itemMarker ordered [mark] start index ⟨kind, value, url, title, markup, info, attrs, []⟩
          = (if ordered then info else []) ++ [mark] := by
        cases ordered with
        | false => rfl
        | true => simp_all [Layout.itemMarker]
      rw [hmarker]
      rfl
termination_by structural n => n

theorem items_of_outlines? : (ns : List Node) → ∀ {ordered : Bool} {its : List Item} {mark : Char} {tight : Bool}
    {start : Int} {index : Nat}, itemOutlines? ordered ns = some its →
      Layout.items opts tight (Layout.itemMarker ordered [mark] start) index ns = .ok (itemTexts opts mark tight its)
  | [], ordered, its, mark, tight, start, index, h => by
    cases h
    rfl
  | n :: ns, ordered, its, mark, tight, start, index, h => by
    rw [itemOutlines?] at h
    split at h
    · next it its hit hits =>
      cases h
      simp only [Layout.items, item_of_outline? n hit, items_of_outlines? ns hits]
      rfl
    · cases h
termination_by structural ns => ns
end

-- ---------------------------------------------------------------------------
-- Documents
-- ---------------------------------------------------------------------------

theorem block_of_front {n : Node} (hkind : n.kind = .frontMatter) (hmarkup : n.markup = "---".toList) :
    Layout.block opts n = .ok (frontText (Layout.chompAll n.payload)) := by
  obtain ⟨kind, value, url, title, markup, info, attrs, children⟩ := n
  cases hkind
  cases hmarkup
  rfl

/-- A document tree that has an outline is written as the text of that outline. -/
theorem render_of_ofTree? {root : Node} {p : Page} (h : Page.ofTree? root = some p) :
    Layout.render opts root = .ok (p.text opts) := by
  have hrender : ∀ {p : Page}, p.defs = (root.children.filter Layout.isDefinition).map Layout.definition →
      Layout.blocks opts (root.children.filter fun n => !Layout.isDefinition n) = .ok (p.texts opts) →
      Layout.render opts root = .ok (p.text opts) := by
    intro p hdefs hbody
    rw [Layout.render, hbody, Page.text, hdefs]
    rfl
  unfold Page.ofTree? at h
  dsimp only at h
  split at h
  · next hnil =>
    cases h
    exact hrender rfl (by rw [hnil]; rfl)
  · next n ns hcons =>
    split at h
    · next hkind =>
      split at h
      · next hmarkup =>
        rw [Option.map_eq_some_iff] at h
        obtain ⟨body, hbody, rfl⟩ := h
        refine hrender rfl ?_
        rw [hcons, Layout.blocks, block_of_front hkind hmarkup, blocks_of_outlines? ns hbody]
        rfl
      · cases h
    · rw [Option.map_eq_some_iff] at h
      obtain ⟨body, hbody, rfl⟩ := h
      refine hrender rfl ?_
      rw [hcons, blocks_of_outlines? _ hbody]
      rfl

end Outline
end MdxSafe
