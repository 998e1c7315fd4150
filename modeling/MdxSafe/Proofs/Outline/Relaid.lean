-- SUMMARY: An outline that is laid under some conventions is laid under all others that keep its info texts.
import MdxSafe.Proofs.Markdown.Page
import MdxSafe.Proofs.Outline.Adjacent
import MdxSafe.Proofs.Outline.Leaves

/-!
# Outlines under other conventions

The lines of an outline under two conventions are alike one by one, so that one outline is laid under both or under
neither. The one thing that may be lost is the info text of a code block, which must not go on with its fence
(`Leaf.keepsInfo`).
-/

namespace MdxSafe.Outline

variable {opts opts' : Layout.Options}

-- ---------------------------------------------------------------------------
-- Rows of lines
-- ---------------------------------------------------------------------------

theorem allAlike_refl (ss : List Text) : AllAlike ss ss := List.forall₂_same.2 fun s _ => .same s

theorem AllAlike.headD {ss ss' : List Text} (h : AllAlike ss ss') : Alike (ss.headD []) (ss'.headD []) := by
  cases h with
  | nil => exact .same []
  | cons hs _ => exact hs

theorem allAlike_spread (tight : Bool) {gs gs' : List (List Text)} (h : List.Forall₂ AllAlike gs gs') :
    AllAlike (spread (gapLines tight) gs) (spread (gapLines tight) gs') := by
  induction h with
  | nil => exact .nil
  | cons hg hrest ih =>
    cases hrest with
    | nil => rwa [spread_singleton, spread_singleton]
    | cons hg' hrest' =>
      rw [spread_cons_cons, spread_cons_cons]
      exact List.rel_append (List.rel_append hg (allAlike_refl _)) ih

theorem allAlike_itemLines (hopts : opts.Readable) (hopts' : opts'.Readable) {digits : Text} {mark : Char}
    (hmarker : isMarker digits mark) {ss ss' : List Text} (h : AllAlike ss ss') (hflush : flush (ss.headD [])) :
    AllAlike (itemLines opts (digits ++ [mark]) ss) (itemLines opts' (digits ++ [mark]) ss') := by
  cases h with
  | nil => cases hflush
  | cons hs hrest =>
    refine .cons (.item hmarker hopts.one_le_indent hopts'.one_le_indent hflush (hs.flush_eq ▸ hflush) hs) ?_
    have hwidth : ∀ {o : Layout.Options}, o.Readable → 1 ≤ (digits ++ [mark]).length + o.itemIndent := fun ho =>
      Nat.le_trans ho.one_le_indent (Nat.le_add_left _ _)
    exact List.rel_map (fun _ _ hs => .shifted (hwidth hopts) (hwidth hopts') hs) hrest

-- ---------------------------------------------------------------------------
-- Blocks without blocks inside
-- ---------------------------------------------------------------------------

/-- Whether the info text of a code block is read back after its fence. -/
def Leaf.keepsInfo (opts : Layout.Options) : Leaf → Bool
  | .code info payload => (Fence.open? (fence opts info payload ++ info)).any fun f => f.info = info
  | _ => true

theorem keepsInfo_of_isLaid {l : Leaf} (h : l.isLaid opts) : l.keepsInfo opts := by
  cases l with
  | code info payload =>
    exact (isLaid_code_iff.1 h).opens
  | _ => rfl

/-- A fence of tildes keeps an info text that does not go on with it. -/
theorem keepsInfo_tildes (hopts : opts.fence = .tildes) {l : Leaf}
    (h : ∀ info payload, l = .code info payload → info.head? ≠ some '~') : l.keepsInfo opts := by
  cases l with
  | code info payload =>
    have hmark : fenceMark opts info = '~' := by
      rw [fenceMark, hopts]
      rfl
    rw [Leaf.keepsInfo, fence_eq, hmark, Fence.open?_replicate (.inl rfl) (Nat.le_max_left _ _) (h info payload rfl)]
    · simp
    · intro htick
      cases htick
  | _ => rfl

/-- The fence depends on no other convention than the one for fences. -/
theorem keepsInfo_congr (h : opts.fence = opts'.fence) (l : Leaf) : l.keepsInfo opts = l.keepsInfo opts' := by
  cases l with
  | code info payload => simp only [Leaf.keepsInfo, fence, h]
  | _ => rfl

theorem open?_fence (opts : Layout.Options) (info payload : Text) :
    ∃ f, Fence.open? (fence opts info payload) = some f ∧ f.info = [] := by
  have hnone : '`' ∉ ([] : Text) := List.not_mem_nil
  have hopen := Fence.open?_replicate (fenceMark_eq opts info)
    (Nat.le_max_left 3 (Layout.longestRun (fenceMark opts info) 0 0 payload + 1)) (nofun : [].head? ≠ some _)
    fun _ => hnone
  rw [List.append_nil] at hopen
  exact ⟨_, hopen, rfl⟩

/-- A code block under other conventions has other fences and the same lines between them. -/
theorem allAlike_code {info payload : Text} (hl : (Leaf.code info payload).isLaid opts)
    (hkeeps : (Leaf.code info payload).keepsInfo opts') :
    AllAlike ((Leaf.code info payload).lines opts) ((Leaf.code info payload).lines opts') := by
  replace hl := isLaid_code_iff.1 hl
  obtain ⟨ps, -, hlines⟩ := exists_lines_code hl.line hl.ended
  obtain ⟨f, hf, hfinfo⟩ := (Option.any_eq_true _ _).1 hl.opens
  obtain ⟨f', hf', hfinfo'⟩ := (Option.any_eq_true _ _).1 hkeeps
  obtain ⟨g, hg, hginfo⟩ := open?_fence opts info payload
  obtain ⟨g', hg', hginfo'⟩ := open?_fence opts' info payload
  rw [decide_eq_true_eq] at hfinfo hfinfo'
  rw [hlines, hlines]
  refine .cons (.fence hf hf' (by rw [hfinfo, hfinfo'])) (List.rel_append (allAlike_refl ps) ?_)
  exact .cons (.fence hg hg' (by rw [hginfo, hginfo'])) .nil

theorem relaid_leaf (hopts : opts.Readable) (hopts' : opts'.Readable) {l : Leaf} (hl : l.isLaid opts)
    (hkeeps : l.keepsInfo opts') : l.isLaid opts' ∧ AllAlike (l.lines opts) (l.lines opts') := by
  cases l with
  | code info payload =>
    have hlines := allAlike_code hl hkeeps
    refine ⟨?_, hlines⟩
    rw [isLaid_code_iff] at hl ⊢
    exact ⟨hl.line, hl.ended, hkeeps, noTable_eq (List.forall₂_take 2 hlines) ▸ hl.table⟩
  | rule =>
    rw [lines_rule hopts.thematicBreak_eq, lines_rule hopts'.thematicBreak_eq]
    exact ⟨rfl, allAlike_refl _⟩
  | _ => exact ⟨hl, allAlike_refl _⟩

-- ---------------------------------------------------------------------------
-- Blocks
-- ---------------------------------------------------------------------------

theorem areSeparate_eq (hopts : opts.Readable) (tight : Bool) {bs : List Block} {depth : Nat}
    (h : areLaid opts depth bs) (hlines : List.Forall₂ AllAlike (groups opts bs) (groups opts' bs)) :
    areSeparate opts tight bs = areSeparate opts' tight bs := by
  induction bs with
  | nil => rfl
  | cons b bs ih =>
    rw [areLaid_cons_iff] at h
    cases hlines with
    | cons hb hrest =>
      cases bs with
      | nil => rfl
      | cons c bs =>
        obtain ⟨hc, -⟩ := areLaid_cons_iff.1 h.2
        cases hrest with
        | cons hclines hrest' =>
          have hadmits : b.admits (c.firstLine opts) = b.admits (c.firstLine opts') :=
            hclines.headD.admits_eq (flush_firstLine hopts hc) b
          rw [areSeparate, areSeparate, hadmits, ih h.2 (.cons hclines hrest')]

mutual
theorem relaid_block (hopts : opts.Readable) (hopts' : opts'.Readable) : (b : Block) → ∀ {depth : Nat},
    b.isLaid opts depth → (∀ l ∈ b.leaves, l.keepsInfo opts') →
      b.isLaid opts' depth ∧ AllAlike (b.lines opts) (b.lines opts')
  | .leaf l, depth, h, hkeeps => by
    rw [isLaid_leaf_iff] at h
    rw [Block.leaves, List.forall_mem_singleton] at hkeeps
    obtain ⟨hlaid, hlines⟩ := relaid_leaf hopts hopts' h.2 hkeeps
    exact ⟨isLaid_leaf_iff.2 ⟨h.1, hlaid⟩, hlines⟩
  | .quote bs, depth, h, hkeeps => by
    replace h := isLaid_quote_iff.1 h
    obtain ⟨hlaid, hlines⟩ := relaid_blocks hopts hopts' bs h.blocks (by rwa [Block.leaves] at hkeeps)
    refine ⟨isLaid_quote_iff.2 ⟨h.depth_lt, h.ne_nil, ?_, hlaid⟩, ?_⟩
    · rw [← areSeparate_eq hopts false h.blocks hlines]
      exact h.separate
    · rw [Block.lines, Block.lines]
      exact List.rel_map (fun _ _ hs => .quoted hs) (allAlike_spread false hlines)
  | .list mark tight its, depth, h, hkeeps => by
    replace h := isLaid_list_iff.1 h
    obtain ⟨hlaid, hgroups⟩ := relaid_items hopts hopts' its h.items (by rwa [Block.leaves] at hkeeps)
    have hlines := allAlike_spread tight hgroups
    refine ⟨isLaid_list_iff.2 ⟨h.depth_lt, h.ne_nil, h.loose, ?_, hlaid⟩, ?_⟩
    · rw [← noTable_eq (List.forall₂_take 2 hlines)]
      exact h.table
    · rw [Block.lines, Block.lines]
      exact hlines
termination_by structural b => b

theorem relaid_blocks (hopts : opts.Readable) (hopts' : opts'.Readable) : (bs : List Block) → ∀ {depth : Nat},
    areLaid opts depth bs → (∀ l ∈ blockLeaves bs, l.keepsInfo opts') →
      areLaid opts' depth bs ∧ List.Forall₂ AllAlike (groups opts bs) (groups opts' bs)
  | [], depth, h, hkeeps => ⟨rfl, .nil⟩
  | b :: bs, depth, h, hkeeps => by
    rw [areLaid_cons_iff] at h ⊢
    rw [blockLeaves, List.forall_mem_append] at hkeeps
    obtain ⟨hb, hblines⟩ := relaid_block hopts hopts' b h.1 hkeeps.1
    obtain ⟨hbs, hlines⟩ := relaid_blocks hopts hopts' bs h.2 hkeeps.2
    exact ⟨⟨hb, hbs⟩, .cons hblines hlines⟩
termination_by structural bs => bs

theorem relaid_item (hopts : opts.Readable) (hopts' : opts'.Readable) : (it : Item) → ∀ {depth : Nat} {mark : Char}
    {tight bullet : Bool}, it.isLaid opts depth mark tight bullet → (∀ l ∈ it.leaves, l.keepsInfo opts') →
      it.isLaid opts' depth mark tight bullet ∧ AllAlike (it.lines opts mark tight) (it.lines opts' mark tight)
  | .mk digits bs, depth, mark, tight, bullet, h, hkeeps => by
    replace h := isLaid_item_iff.1 h
    obtain ⟨hlaid, hgroups⟩ := relaid_blocks hopts hopts' bs h.blocks (by rwa [Item.leaves] at hkeeps)
    have hframed : Framed (blockLines opts tight bs) := framed_blockLines hopts h.ne_nil h.blocks
    have hlines := allAlike_itemLines hopts hopts' h.marker (allAlike_spread tight hgroups) hframed.flush_headD
    have hseparate : areSeparate opts' tight bs := areSeparate_eq hopts tight h.blocks hgroups ▸ h.separate
    have hbreak := hlines.headD.thematicBreak?_eq (framed_itemLines h.marker hframed).flush_headD
    have hrule := h.rule
    rw [Item.lines, ← Option.not_isSome_iff_eq_none] at hrule
    refine ⟨isLaid_item_iff.2 ⟨h.ne_nil, h.marker, h.bullet, hseparate, ?_, hlaid⟩, ?_⟩
    · rwa [Item.lines, ← Option.not_isSome_iff_eq_none, ← hbreak]
    · rw [Item.lines, Item.lines]
      exact hlines
termination_by structural it => it

theorem relaid_items (hopts : opts.Readable) (hopts' : opts'.Readable) : (its : List Item) → ∀ {depth : Nat}
    {mark : Char} {tight bullet : Bool}, itemsLaid opts depth mark tight bullet its →
    (∀ l ∈ itemLeaves its, l.keepsInfo opts') → itemsLaid opts' depth mark tight bullet its
      ∧ List.Forall₂ AllAlike (itemGroups opts mark tight its) (itemGroups opts' mark tight its)
  | [], depth, mark, tight, bullet, h, hkeeps => ⟨rfl, .nil⟩
  | it :: its, depth, mark, tight, bullet, h, hkeeps => by
    rw [itemsLaid_cons_iff] at h ⊢
    rw [itemLeaves, List.forall_mem_append] at hkeeps
    obtain ⟨hit, hitlines⟩ := relaid_item hopts hopts' it h.1 hkeeps.1
    obtain ⟨hits, hlines⟩ := relaid_items hopts hopts' its h.2 hkeeps.2
    exact ⟨⟨hit, hits⟩, .cons hitlines hlines⟩
termination_by structural its => its
end

-- ---------------------------------------------------------------------------
-- Documents
-- ---------------------------------------------------------------------------

variable {p : Page}

theorem allAlike_page (h : List.Forall₂ AllAlike (groups opts p.body) (groups opts' p.body)) :
    List.Forall₂ AllAlike (p.groups opts) (p.groups opts') := by
  have hrefl : ∀ gs : List (List Text), List.Forall₂ AllAlike gs gs := fun gs =>
    List.forall₂_same.2 fun g _ => allAlike_refl g
  exact List.rel_append (List.rel_append (hrefl _) h) (hrefl _)

theorem AllAlike.all_isPlainChar {ss ss' : List Text} (h : AllAlike ss ss') :
    (Text.join ['\n'] ss).all isPlainChar = (Text.join ['\n'] ss').all isPlainChar := by
  induction h with
  | nil => rfl
  | @cons s s' ss ss' hs hrest ih =>
    cases hrest with
    | nil => simpa [Text.join] using hs.all_isPlainChar
    | cons _ _ =>
      rw [Text.join_cons_cons, Text.join_cons_cons]
      simp only [List.all_append, hs.all_isPlainChar, ih]

/-- The text of lines starts as the first of them does. -/
theorem head?_join {ss : List Text} (h : Framed ss) (t : Text) :
    (Text.join ['\n'] ss ++ t).head? = (ss.headD []).head? := by
  obtain ⟨s, rest, rfl, hflush⟩ := h.exists_cons
  obtain ⟨c, s, rfl⟩ := List.exists_cons_of_ne_nil (ne_nil_of_flush hflush)
  cases rest with
  | nil => simp [Text.join]
  | cons u rest => rw [Text.join_cons_cons]; rfl

/-- The texts of a document under two conventions hold characters that are read back together. -/
theorem plain_text_page (hopts : opts.Readable) (hopts' : opts'.Readable) (hlaid : areLaid opts 0 p.body)
    (hlaid' : areLaid opts' 0 p.body) (hdefs : ∀ s ∈ p.defs, (readDefinition? s).isSome)
    (hgroups : List.Forall₂ AllAlike (p.groups opts) (p.groups opts')) :
    (p.text opts).all isPlainChar = (p.text opts').all isPlainChar
      ∧ ((p.text opts).head?.all fun c => c.toNat != 0xFEFF) = (p.text opts').head?.all fun c => c.toNat != 0xFEFF := by
  have hlines : AllAlike (p.lines opts) (p.lines opts') := allAlike_spread false hgroups
  rw [Block.text_page hopts hlaid hdefs, Block.text_page hopts' hlaid' hdefs]
  by_cases hnil : p.groups opts = []
  · have hnil' : p.groups opts' = [] := List.forall₂_nil_left_iff.1 (hnil ▸ hgroups)
    rw [if_pos hnil, if_pos hnil']
    exact ⟨rfl, rfl⟩
  · have hnil' : p.groups opts' ≠ [] := fun heq => hnil (List.forall₂_nil_right_iff.1 (heq ▸ hgroups))
    have hframed : Framed (p.lines opts) := framed_spread hnil (Block.framed_page hopts hlaid hdefs)
    have hframed' : Framed (p.lines opts') := framed_spread hnil' (Block.framed_page hopts' hlaid' hdefs)
    rw [if_neg hnil, if_neg hnil']
    refine ⟨?_, ?_⟩
    · rw [List.all_append, List.all_append, hlines.all_isPlainChar]
    · rw [head?_join hframed, head?_join hframed', hlines.headD.startsPlain_eq]

/-- A document that is laid under some conventions is laid under all others that keep its info texts. -/
theorem relaid_page (hopts : opts.Readable) (hopts' : opts'.Readable) (h : p.isLaid opts)
    (hkeeps : ∀ l ∈ blockLeaves p.body, l.keepsInfo opts') : p.isLaid opts' := by
  rw [Page.isLaid_iff] at h ⊢
  obtain ⟨hlaid, hbody⟩ := relaid_blocks hopts hopts' p.body h.blocks hkeeps
  have hgroups := allAlike_page hbody
  have hlines : AllAlike (p.lines opts) (p.lines opts') := allAlike_spread false hgroups
  obtain ⟨hplain, hmark⟩ := plain_text_page hopts hopts' h.blocks hlaid h.reads hgroups
  exact {
    front := h.front
    separate := areSeparate_eq hopts false h.blocks hbody ▸ h.separate
    blocks := hlaid
    reads := h.reads
    line := h.line
    start := hlines.headD.maybeFront_eq ▸ h.start
    plain := hplain ▸ h.plain
    noMark := hmark ▸ h.noMark }

end MdxSafe.Outline
