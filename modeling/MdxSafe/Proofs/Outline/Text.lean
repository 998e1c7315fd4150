-- SUMMARY: The text of a laid outline is its lines joined.
import MdxSafe.Proofs.Outline.Shape

/-!
# Texts and lines

`Block.text` is put together from the texts of the blocks inside, as the layout does it, `Block.lines` from
their lines. For laid blocks both say the same: no block comes out empty, and cutting a text at its line ends
gives the lines again.
-/

namespace MdxSafe.Outline

variable {opts : Layout.Options}

-- ---------------------------------------------------------------------------
-- Joining groups
-- ---------------------------------------------------------------------------

/-- Lines that a text is cut into. -/
def Unbroken (ss : List Text) : Prop := ∀ s ∈ ss, '\n' ∉ s

theorem unbroken_splitOn (t : Text) : Unbroken (Text.splitOn '\n' t) := fun _ hs => Text.notMem_of_mem_splitOn hs

theorem join_spread (tight : Bool) {groups : List (List Text)} (h : ∀ g ∈ groups, g ≠ []) :
    Text.join ['\n'] (spread (gapLines tight) groups)
      = Text.join (Layout.separator tight) (groups.map (Text.join ['\n'])) := by
  induction groups with
  | nil => rfl
  | cons g gs ih =>
    have hg := h g List.mem_cons_self
    have ih := ih fun g' hg' => h g' (List.mem_cons_of_mem _ hg')
    cases gs with
    | nil => simp
    | cons g' gs =>
      have hrest : spread (gapLines tight) (g' :: gs) ≠ [] := by
        have hg' := h g' (by simp)
        cases gs with
        | nil => simpa using hg'
        | cons g'' gs => simp [spread_cons_cons, hg']
      rw [spread_cons_cons, List.map_cons, List.map_cons, Text.join_cons_cons, ← List.map_cons, ← ih]
      cases tight with
      | true =>
        have hgap : g ++ gapLines true ++ spread (gapLines true) (g' :: gs)
            = g ++ spread (gapLines true) (g' :: gs) := by simp [gapLines]
        rw [hgap, Text.join_append _ hg hrest]
        rfl
      | false =>
        have hgap : g ++ gapLines false ++ spread (gapLines false) (g' :: gs)
            = g ++ [] :: spread (gapLines false) (g' :: gs) := by simp [gapLines]
        rw [hgap, Text.join_append _ hg (by simp), Text.join_cons_of_ne_nil _ _ hrest]
        simp [Layout.separator]

theorem unbroken_spread (tight : Bool) {groups : List (List Text)} (h : ∀ g ∈ groups, Unbroken g) :
    Unbroken (spread (gapLines tight) groups) := by
  induction groups with
  | nil => simp [Unbroken]
  | cons g gs ih =>
    have hg := h g List.mem_cons_self
    have ih := ih fun g' hg' => h g' (List.mem_cons_of_mem _ hg')
    cases gs with
    | nil => rwa [spread_singleton]
    | cons g' gs =>
      rw [spread_cons_cons]
      intro s hs
      rcases List.mem_append.1 hs with hs | hs
      · rcases List.mem_append.1 hs with hs | hs
        · exact hg s hs
        · cases tight with
          | true => cases hs
          | false =>
            rw [gapLines, if_neg (by simp), List.mem_singleton] at hs
            simp [hs]
      · exact ih s hs

/-- The text of lines that start with something is not empty. -/
theorem join_ne_nil {ss : List Text} (h : Framed ss) : Text.join ['\n'] ss ≠ [] := by
  obtain ⟨s, rest, rfl, hflush⟩ := h.exists_cons
  exact Text.join_ne_nil_of_ne_nil (ne_nil_of_flush hflush) rest

/-- Texts of which none is empty are all kept. -/
theorem joinNonempty_eq {sep : Text} {ts : List Text} (h : ∀ t ∈ ts, t ≠ []) :
    Layout.joinNonempty sep ts = Text.join sep ts := by
  rw [Layout.joinNonempty, List.filter_eq_self.2]
  simpa using h

theorem joinNonempty_groups (tight : Bool) {groups : List (List Text)} (h : ∀ g ∈ groups, Framed g) :
    Layout.joinNonempty (Layout.separator tight) (groups.map (Text.join ['\n']))
      = Text.join ['\n'] (spread (gapLines tight) groups) := by
  rw [joinNonempty_eq, join_spread tight fun g hg => (h g hg).ne_nil]
  intro t ht
  obtain ⟨g, hg, rfl⟩ := List.mem_map.1 ht
  exact join_ne_nil (h g hg)

/-- The text of lines is cut into these lines. -/
theorem splitOn_join_framed {ss : List Text} (h : Unbroken ss) (hframed : Framed ss) :
    Text.splitOn '\n' (Text.join ['\n'] ss) = ss :=
  Text.splitOn_join h hframed.ne_nil

-- ---------------------------------------------------------------------------
-- Blocks
-- ---------------------------------------------------------------------------

/-- A quote of something is its lines, each marked. -/
theorem quote_eq_join {content : Text} (h : content ≠ []) :
    Layout.quote content = Text.join ['\n'] ((Text.splitOn '\n' content).map Line.quoted) := by
  rw [Layout.quote, if_neg h]
  rfl

theorem quote_eq {ss : List Text} (h : Unbroken ss) (hframed : Framed ss) :
    Layout.quote (Text.join ['\n'] ss) = Text.join ['\n'] (ss.map Line.quoted) := by
  rw [quote_eq_join (join_ne_nil hframed), splitOn_join_framed h hframed]

theorem unbroken_quoted {ss : List Text} (h : Unbroken ss) : Unbroken (ss.map Line.quoted) := by
  intro t ht
  obtain ⟨s, hs, rfl⟩ := List.mem_map.1 ht
  have := h s hs
  unfold Line.quoted
  split
  · simp
  · simp [this]

/-- An item that holds something is its lines, the first one marked and the others indented. -/
theorem listItem_eq_join {marker content : Text} (h : content ≠ []) :
    Layout.listItem opts marker content = Text.join ['\n'] (itemLines opts marker (Text.splitOn '\n' content)) := by
  obtain ⟨s, rest, hs⟩ := List.exists_cons_of_ne_nil (Text.splitOn_ne_nil '\n' content)
  rw [Layout.listItem, if_neg h, hs]
  rfl

theorem listItem_eq {marker : Text} {ss : List Text} (h : Unbroken ss) (hframed : Framed ss) :
    Layout.listItem opts marker (Text.join ['\n'] ss) = Text.join ['\n'] (itemLines opts marker ss) := by
  rw [listItem_eq_join (join_ne_nil hframed), splitOn_join_framed h hframed]

theorem unbroken_itemLines {marker : Text} (hmarker : '\n' ∉ marker) {ss : List Text} (h : Unbroken ss) :
    Unbroken (itemLines opts marker ss) := by
  have hspaces : ∀ n, '\n' ∉ spaces n := fun n hn => by
    simp [spaces] at hn
  cases ss with
  | nil => simpa [itemLines, Unbroken] using hmarker
  | cons s rest =>
    intro t ht
    rcases List.mem_cons.1 ht with rfl | ht
    · simp [hmarker, hspaces, h s List.mem_cons_self]
    · obtain ⟨u, hu, rfl⟩ := List.mem_map.1 ht
      have := h u (List.mem_cons_of_mem _ hu)
      unfold indented
      split
      · simp
      · simp [this, hspaces]

mutual
/-- The text of a laid block is its lines joined. -/
theorem text_block (hopts : opts.Readable) : (b : Block) → ∀ {depth : Nat}, b.isLaid opts depth →
    b.text opts = Text.join ['\n'] (b.lines opts) ∧ Unbroken (b.lines opts)
  | .leaf l, depth, h =>
    ⟨(Text.join_splitOn '\n' (l.text opts)).symm, unbroken_splitOn (l.text opts)⟩
  | .quote bs, depth, h => by
    replace h := isLaid_quote_iff.1 h
    obtain ⟨htexts, hunbroken⟩ := text_blocks hopts bs h.blocks
    have hgroups := framed_groups hopts bs h.blocks
    have hframed : Framed (spread (gapLines false) (groups opts bs)) :=
      framed_spread (groups_ne_nil h.ne_nil) hgroups
    have hlines := unbroken_spread false hunbroken
    rw [Block.text, Block.lines, htexts, joinNonempty_groups false hgroups]
    exact ⟨quote_eq hlines hframed, unbroken_quoted hlines⟩
  | .list mark tight its, depth, h => by
    replace h := isLaid_list_iff.1 h
    obtain ⟨htexts, hunbroken⟩ := text_items hopts its h.items
    have hgroups := framed_itemGroups hopts its h.items
    rw [Block.text, Block.lines, htexts, join_spread tight fun g hg => (hgroups g hg).ne_nil]
    exact ⟨rfl, unbroken_spread tight hunbroken⟩
termination_by structural b => b

theorem text_blocks (hopts : opts.Readable) : (bs : List Block) → ∀ {depth : Nat}, areLaid opts depth bs →
    texts opts bs = (groups opts bs).map (Text.join ['\n']) ∧ ∀ g ∈ groups opts bs, Unbroken g
  | [], depth, h => ⟨rfl, by simp [groups]⟩
  | b :: bs, depth, h => by
    rw [areLaid_cons_iff] at h
    obtain ⟨htext, hb⟩ := text_block hopts b h.1
    obtain ⟨htexts, hbs⟩ := text_blocks hopts bs h.2
    rw [texts, groups, htext, htexts, List.map_cons, List.forall_mem_cons]
    exact ⟨rfl, hb, hbs⟩
termination_by structural bs => bs

theorem text_item (hopts : opts.Readable) : (it : Item) → ∀ {depth : Nat} {mark : Char} {tight bullet : Bool},
    it.isLaid opts depth mark tight bullet →
      it.text opts mark tight = Text.join ['\n'] (it.lines opts mark tight) ∧ Unbroken (it.lines opts mark tight)
  | .mk digits bs, depth, mark, tight, bullet, h => by
    replace h := isLaid_item_iff.1 h
    obtain ⟨htexts, hunbroken⟩ := text_blocks hopts bs h.blocks
    have hgroups := framed_groups hopts bs h.blocks
    have hframed : Framed (spread (gapLines tight) (groups opts bs)) :=
      framed_spread (groups_ne_nil h.ne_nil) hgroups
    have hlines := unbroken_spread tight hunbroken
    rw [Item.text, Item.lines, htexts, joinNonempty_groups tight hgroups]
    exact ⟨listItem_eq hlines hframed, unbroken_itemLines (notMem_marker h.marker rfl (by decide)) hlines⟩
termination_by structural it => it

theorem text_items (hopts : opts.Readable) : (its : List Item) → ∀ {depth : Nat} {mark : Char} {tight bullet : Bool},
    itemsLaid opts depth mark tight bullet its →
      itemTexts opts mark tight its = (itemGroups opts mark tight its).map (Text.join ['\n'])
        ∧ ∀ g ∈ itemGroups opts mark tight its, Unbroken g
  | [], depth, mark, tight, bullet, h => ⟨rfl, by simp [itemGroups]⟩
  | it :: its, depth, mark, tight, bullet, h => by
    rw [itemsLaid_cons_iff] at h
    obtain ⟨htext, hit⟩ := text_item hopts it h.1
    obtain ⟨htexts, hits⟩ := text_items hopts its h.2
    rw [itemTexts, itemGroups, htext, htexts, List.map_cons, List.forall_mem_cons]
    exact ⟨rfl, hit, hits⟩
termination_by structural its => its
end

end MdxSafe.Outline
