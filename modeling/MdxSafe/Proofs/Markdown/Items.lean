-- SUMMARY: Lists are read back from their lines, and with them every laid block.
import MdxSafe.Proofs.Markdown.Nesting
import MdxSafe.Proofs.Outline.Hidden

/-!
# Reading lists

A list goes on from item to item as long as the marker of the next one continues it. Whether it is tight comes
out of where the reader met empty lines: between the blocks of an item, or after an item before another one.
The paragraphs of a tight list are hidden afterwards.
-/

namespace MdxSafe.Block

open Outline

variable {z : Zone} {i stop fuel : Nat} {refs : List Reference} {opts : Layout.Options}

-- ---------------------------------------------------------------------------
-- One item
-- ---------------------------------------------------------------------------

theorem length_item {tight : Bool} {mark : Char} {digits : Text} {bs : List Outline.Block}
    (h : blockLines opts tight bs ≠ []) :
    ((Item.mk digits bs).lines opts mark tight).length = (blockLines opts tight bs).length := by
  rw [Item.lines]
  exact length_itemLines h

/-- What the reader does after an item at a line: it stops, or it goes on with the next item. -/
def afterItem (fuel : Nat) (z : Zone) (m : ListMarker) (stop : Nat) (endsEmpty : Bool) (r : Reading) :
    Except Markdown.ReadFault Reading :=
  if stop ≤ r.next || z.isOutside r.next || z.isCode r.next || z.interrupts .list r.next stop then .ok r
  else
    match z.marker? r.next with
    | some n =>
      if m.continues n then items fuel z r.refs n r.next stop r.tight endsEmpty r.tokens else .ok r
    | none => .ok r

theorem nextAfter_item {inner : Zone} {n : Nat} (h : inner.IsItemOf z i) (hin : i < n) :
    inner.nextAfter n stop = z.nextAfter n stop := by
  rw [Zone.nextAfter, Zone.nextAfter, h.isEmpty_eq (by omega)]

/-- The line before the one where the reader goes on is empty just if it stands after the item. -/
theorem endsEmpty_item {inner : Zone} {n : Nat} (h : inner.IsItemOf z i) (hin : i < n)
    (hlast : inner.isEmpty (n - 1) = false) :
    (decide (1 < z.nextAfter n stop - i) && inner.isEmpty (z.nextAfter n stop - 1))
      = (decide (n < stop) && z.isEmpty n) := by
  by_cases hgap : (decide (n < stop) && z.isEmpty n) = true
  · rw [Zone.nextAfter, if_pos hgap, Nat.add_sub_cancel, h.isEmpty_eq (by omega), hgap]
    rw [Bool.and_eq_true] at hgap
    rw [hgap.2, Bool.and_true, decide_eq_true_eq]
    omega
  · rw [Zone.nextAfter, if_neg hgap, hlast, Bool.and_false]
    simpa using hgap

theorem items_step (hopts : opts.Readable) {tight bullet : Bool} {mark : Char} {digits : Text}
    {bs : List Outline.Block} {gap : Text → Prop} (hbs : ∀ b ∈ bs, Reads opts b)
    (hl : (Item.mk digits bs).isLaid opts (z.depth + 2) mark tight bullet)
    (hsees : z.Sees i stop ((Item.mk digits bs).lines opts mark tight))
    (hfollow : z.Follows (i + ((Item.mk digits bs).lines opts mark tight).length) stop
      (fun f => (ListMarker.read? f).isSome) gap)
    (hfuel : ((Item.mk digits bs).lines opts mark tight).length + 4 * (maxDepth - (z.depth + 2)) + 1 ≤ fuel)
    (t endsEmpty : Bool) (done : Array Token) :
    items (fuel + 1) z refs ⟨digits, mark⟩ i stop t endsEmpty done
      = afterItem fuel z ⟨digits, mark⟩ stop
          (i + ((Item.mk digits bs).lines opts mark tight).length < stop
            && z.isEmpty (i + ((Item.mk digits bs).lines opts mark tight).length))
          ⟨done ++ ((Item.mk digits bs).tokens opts mark false).toArray,
            z.nextAfter (i + ((Item.mk digits bs).lines opts mark tight).length) stop, refs,
            t && !areApart tight bs && !endsEmpty⟩ := by
  obtain ⟨hne, hmarker, -, hsep, -, hlaid⟩ := isLaid_item_iff.1 hl
  have hframed : Framed (blockLines opts tight bs) := framed_blockLines hopts hne hlaid
  have hlen : ((Item.mk digits bs).lines opts mark tight).length = (blockLines opts tight bs).length :=
    length_item hframed.ne_nil
  have hpos := hframed.length_pos
  have hlines : (Item.mk digits bs).lines opts mark tight
      = itemLines opts (digits ++ [mark]) (blockLines opts tight bs) := by rw [Item.lines, blockLines]
  obtain ⟨s, rest, hcons, hflush⟩ := hframed.exists_cons
  have hs : z.Shows i (digits ++ [mark] ++ spaces opts.itemIndent ++ s) := by
    rw [hlines, hcons] at hsees
    exact hsees.shows.head
  have hitem : (inside z ⟨digits, mark⟩ i opts.itemIndent).IsItemOf z i := isItemOf_inside hs
  have hzone : itemZone z ⟨digits, mark⟩ i = (inside z ⟨digits, mark⟩ i opts.itemIndent, false) :=
    itemZone_eq hopts.indent_le_four (flush_marker hmarker) hflush hs
  have hinner : (inside z ⟨digits, mark⟩ i opts.itemIndent).Sees i stop (blockLines opts tight bs) :=
    sees_inside (flush_marker hmarker) (notMem_marker hmarker rfl (by decide)) hframed (hlines ▸ hsees)
  have hlast := hframed.isEmpty_last hinner.shows
  rw [hlen] at hfollow hfuel ⊢
  generalize hn : i + (blockLines opts tight bs).length = n at *
  have hfollow' := hitem.follows (by omega) hfollow
  have hread : blocks fuel (inside z ⟨digits, mark⟩ i opts.itemIndent) refs i stop false true #[] = _ :=
    reads_content hopts hbs hne hsep hlaid hinner (hn ▸ hfollow') hfuel
  rw [hn, nextAfter_item hitem (by omega)] at hread
  have hdone : (done.push (itemOpening mark digits) ++ (blockTokens opts false bs).toArray).push
      (.closing .listItemClose [mark]) = done ++ ((Item.mk digits bs).tokens opts mark false).toArray := by
    rw [Item.tokens]
    simp
  rw [items]
  simp only [hzone, Bool.false_and, Bool.false_eq_true, if_false, hread]
  rw [← endsEmpty_item hitem (by omega) (hn ▸ hlast), ← hdone]
  rfl

-- ---------------------------------------------------------------------------
-- Rows of items
-- ---------------------------------------------------------------------------

/-- After the last item the reader stops. -/
theorem afterItem_end {n : Nat} {m : ListMarker} {gap : Text → Prop} {r : Reading}
    (hfollow : z.Follows n stop (fun _ => False) gap) (hstop : stop ≤ z.bound)
    (hgap : ∀ f, gap f → ∀ n, ListMarker.read? f = some n → m.continues n = false)
    (hnext : r.next = z.nextAfter n stop) (endsEmpty : Bool) : afterItem fuel z m stop endsEmpty r = .ok r := by
  cases hfollow with
  | atEnd hb =>
    rw [Zone.nextAfter, if_neg (by simp; omega)] at hnext
    simp [afterItem, hnext, Nat.le_trans hstop hb]
  | stopGap hn =>
    rw [Zone.nextAfter, if_neg (by simp; omega)] at hnext
    simp [afterItem, hnext, hn]
  | outside hn hs hne ho =>
    have hempty : z.isEmpty n = true := hs.isEmpty_eq
    rw [Zone.nextAfter, if_pos (by simp [hempty]; omega)] at hnext
    simp [afterItem, hnext, ho]
  | gap hn hs f hf hflush hg =>
    have hempty : z.isEmpty n = true := hs.isEmpty_eq
    rw [Zone.nextAfter, if_pos (by simp [hempty]; omega)] at hnext
    rw [afterItem, hnext, hf.marker?_eq hflush]
    cases hread : ListMarker.read? f with
    | none => simp
    | some n => simp [hgap f hg n hread]
  | sibling hn hne _ ho =>
    have ho : z.isOutside n = true := decide_eq_true ho
    rw [Zone.nextAfter, if_neg (by simp [hne])] at hnext
    simp [afterItem, hnext, ho]
  | touch _ _ _ _ ht => exact ht.elim

/-- A line that starts an item, and nothing that the reader would take it for before. -/
structure StartsItem (m : ListMarker) (f : Text) : Prop where
  flush : flush f
  fence : Fence.open? f = none
  quote : f.head? ≠ some '>'
  rule : thematicBreak? f = none
  marker : ListMarker.read? f = some m

/-- Before the line of another item the reader goes on. -/
theorem afterItem_next {m n : ListMarker} {f : Text} {r : Reading} (hf : z.Shows r.next f) (h : StartsItem n f)
    (hn : r.next < stop) (hm : m.continues n) (endsEmpty : Bool) :
    afterItem fuel z m stop endsEmpty r = items fuel z r.refs n r.next stop r.tight endsEmpty r.tokens := by
  have hgo : (decide (stop ≤ r.next) || z.isOutside r.next || z.isCode r.next || z.interrupts .list r.next stop)
      = false := by
    rw [hf.isOutside_eq (ne_nil_of_flush h.flush), hf.isCode_eq h.flush, hf.interrupts_list_eq h.flush, h.fence, h.rule]
    simp [h.quote, Nat.not_le.2 hn]
  rw [afterItem, hgo, hf.marker?_eq h.flush, h.marker]
  simp [hm]

theorem itemsLines_cons_cons (mark : Char) (tight : Bool) (it it' : Item) (its : List Item) :
    spread (gapLines tight) (itemGroups opts mark tight (it :: it' :: its))
      = it.lines opts mark tight
        ++ (gapLines tight ++ spread (gapLines tight) (itemGroups opts mark tight (it' :: its))) := by
  simp [itemGroups, spread_cons_cons]

/-- The first line of items is that of the first one, which starts with its marker. -/
theorem exists_startsItem (hopts : opts.Readable) {digits : Text} {bs : List Outline.Block} {depth : Nat} {mark : Char}
    {tight bullet : Bool} (h : (Item.mk digits bs).isLaid opts depth mark tight bullet) (its : List Item) :
    ∃ f ts, spread (gapLines tight) (itemGroups opts mark tight (.mk digits bs :: its)) = f :: ts
      ∧ StartsItem ⟨digits, mark⟩ f := by
  obtain ⟨-, hmarker, -, -, hbreak, -⟩ := isLaid_item_iff.1 h
  obtain ⟨s, ss, hfirst⟩ := exists_item_firstLine hopts h
  have hverbatim := not_verbatim_marker hmarker (spaces opts.itemIndent ++ s)
  rw [← List.append_assoc] at hverbatim
  rw [hfirst, List.headD_cons] at hbreak
  have hstarts : StartsItem ⟨digits, mark⟩ (digits ++ [mark] ++ spaces opts.itemIndent ++ s) :=
    { flush := flush_item (m := ⟨digits, mark⟩) (flush_marker hmarker) opts.itemIndent s
      fence := hverbatim.1
      quote := hverbatim.2
      rule := hbreak
      marker := read?_marker hmarker hopts.one_le_indent s }
  cases its with
  | nil => exact ⟨_, ss, by rw [itemGroups, itemGroups, spread_singleton, hfirst], hstarts⟩
  | cons it its => exact ⟨_, _, by rw [itemsLines_cons_cons, hfirst, List.cons_append], hstarts⟩

/-- Whether items are apart: empty lines stand between them or inside one. -/
def areItemsApart (tight : Bool) (its : List Item) : Bool :=
  !tight && (decide (2 ≤ its.length) || its.any fun it => decide (2 ≤ it.blocks.length))

theorem areItemsApart_singleton (tight : Bool) (digits : Text) (bs : List Outline.Block) :
    areItemsApart tight [.mk digits bs] = areApart tight bs := by
  simp only [areItemsApart, List.any_cons, List.any_nil, Bool.or_false]
  rfl

theorem continues_eq {digits : Text} {mark : Char} {bullet : Bool} (h : decide (digits = []) = bullet)
    (n : ListMarker) : ListMarker.continues ⟨digits, mark⟩ n = ((!bullet) == n.isOrdered && mark == n.mark) := by
  rw [ListMarker.continues, ListMarker.isOrdered, ← h]
  simp

/-- Items one after the other are read back from their lines. -/
theorem reads_items (hopts : opts.Readable) {its : List Item} (hits : ∀ it ∈ its, ∀ b ∈ it.blocks, Reads opts b)
    {tight bullet : Bool} {mark : Char} (hne : its ≠ [])
    (hlaid : itemsLaid opts (z.depth + 2) mark tight bullet its)
    (hsees : z.Sees i stop (spread (gapLines tight) (itemGroups opts mark tight its)))
    (hfollow : z.Follows (i + (spread (gapLines tight) (itemGroups opts mark tight its)).length) stop
      (fun _ => False)
      (fun f => ∀ n, ListMarker.read? f = some n → ((!bullet) == n.isOrdered && mark == n.mark) = false))
    (hfuel : (spread (gapLines tight) (itemGroups opts mark tight its)).length
      + 4 * (maxDepth - (z.depth + 2)) + 2 ≤ fuel) (t endsEmpty : Bool) (done : Array Token) :
    items fuel z refs ⟨firstDigits its, mark⟩ i stop t endsEmpty done
      = .ok ⟨done ++ (itemTokens opts mark false its).toArray,
          z.nextAfter (i + (spread (gapLines tight) (itemGroups opts mark tight its)).length) stop, refs,
          t && !endsEmpty && !areItemsApart tight its⟩ := by
  induction its generalizing i fuel t endsEmpty done with
  | nil => exact absurd rfl hne
  | cons it its ih =>
    obtain ⟨digits, bs⟩ := it
    have hbs : ∀ b ∈ bs, Reads opts b := hits _ List.mem_cons_self
    obtain ⟨hit, hrest⟩ := itemsLaid_cons_iff.1 hlaid
    have hbullet := (isLaid_item_iff.1 hit).bullet
    have hdigits : firstDigits (.mk digits bs :: its) = digits := rfl
    have hcont : ∀ n, ListMarker.continues ⟨digits, mark⟩ n = _ := continues_eq hbullet
    obtain ⟨fuel, rfl⟩ : ∃ f, fuel = f + 1 := ⟨fuel - 1, by omega⟩
    rw [hdigits]
    cases its with
    | nil =>
      have hone : spread (gapLines tight) (itemGroups opts mark tight [.mk digits bs])
          = (Item.mk digits bs).lines opts mark tight := by rw [itemGroups, itemGroups, spread_singleton]
      rw [hone] at hsees hfollow hfuel ⊢
      rw [items_step hopts hbs hit hsees (hfollow.mono (fun _ h => h.elim) fun _ h => h) (by omega),
        afterItem_end hfollow hsees.stop_le (fun f hf n hn => by rw [hcont n, hf n hn]) rfl]
      rw [areItemsApart_singleton, Bool.and_right_comm]
      simp [itemTokens]
    | cons it' its =>
      obtain ⟨digits', bs'⟩ := it'
      obtain ⟨hit', -⟩ := itemsLaid_cons_iff.1 hrest
      have hbullet' := (isLaid_item_iff.1 hit').bullet
      obtain ⟨f, ts, hts, hstarts⟩ := exists_startsItem hopts hit' its
      have hcontinues : ListMarker.continues ⟨digits, mark⟩ ⟨digits', mark⟩ := by
        rw [hcont, ListMarker.isOrdered, ← hbullet']
        simp
      have hdigits' : firstDigits (.mk digits' bs' :: its) = digits' := rfl
      rw [hdigits'] at ih
      rw [itemsLines_cons_cons] at hsees hfollow hfuel ⊢
      have hgroup := (hsees.right (framed_item hopts _ hit).ne_nil).nextGroup hts hstarts.flush
      have hmarked : if tight then (ListMarker.read? f).isSome = true else True := by
        rw [hstarts.marker]
        simp
      have hfollows : z.Follows (i + ((Item.mk digits bs).lines opts mark tight).length) stop
          (fun f => (ListMarker.read? f).isSome) (fun _ => True) := hgroup.follows hmarked
      have hlt := hgroup.lt_stop
      have hin : i + ((Item.mk digits bs).lines opts mark tight).length < stop := by omega
      have hpos := (framed_item hopts _ hit).length_pos
      simp only [List.length_append] at hfuel
      rw [Zone.end_eq] at hfollow ⊢
      rw [items_step hopts hbs hit hsees.left hfollows (by omega), hgroup.nextAfter_eq,
        afterItem_next hgroup.shows hstarts hlt hcontinues, hgroup.isEmpty_eq,
        ih (fun it hit => hits it (List.mem_cons_of_mem _ hit)) (by simp) hrest hgroup.sees hfollow (by omega)]
      cases tight <;> simp [areApart, areItemsApart, itemTokens, hin]

-- ---------------------------------------------------------------------------
-- Lists
-- ---------------------------------------------------------------------------

/-- Whether a list is tight is what the reader finds. -/
theorem areItemsApart_eq {tight : Bool} {its : List Item} (h : tight || isLoose its) :
    areItemsApart tight its = !tight := by
  cases tight with
  | true => rfl
  | false =>
    simp only [Bool.false_or, isLoose, Bool.and_eq_true] at h
    simp only [areItemsApart, h.1, Bool.not_false, Bool.and_self]

/-- The tokens of the items of a list after the paragraphs of a tight list were hidden. -/
theorem hide_itemTokens (mark : Char) (tight : Bool) (its : List Item) :
    (if tight then hideParagraphs 0 (itemTokens opts mark false its) else itemTokens opts mark false its)
      = itemTokens opts mark tight its := by
  cases tight with
  | false => rfl
  | true =>
    have h : hideParagraphs 0 (itemTokens opts mark false its ++ []) = _ := hide_items mark false 0 [] its
    rwa [List.append_nil, hideParagraphs, List.append_nil] at h

theorem block_of_items {m : ListMarker} {r : Reading} (hbefore : leafBefore? z i stop = .ok none)
    (hquote : z.isQuote i = false) (hrule : breakAt? z i = none) (hmark : z.marker? i = some m)
    (hread : items fuel z refs m i stop true false #[] = .ok r) :
    block (fuel + 1) z refs i stop
      = .ok ⟨#[{ Token.opening (listKinds m.digits).1 [m.mark] with attrs := listAttrs m.digits m.mark }]
          ++ (if r.tight then hideParagraphs 0 r.tokens.toList else r.tokens.toList).toArray
          ++ #[.closing (listKinds m.digits).2 [m.mark]], r.next, r.refs, true⟩ := by
  have hkinds : (if m.isOrdered then (TokenKind.orderedListOpen, TokenKind.orderedListClose)
      else (TokenKind.bulletListOpen, TokenKind.bulletListClose)) = listKinds m.digits := by
    simp [ListMarker.isOrdered, listKinds]
  rw [block]
  simp only [hbefore, hquote, hrule, hmark, hread, hkinds]
  rfl

theorem reads_of_list (hopts : opts.Readable) {mark : Char} {tight : Bool} {its : List Item}
    (hits : ∀ it ∈ its, ∀ b ∈ it.blocks, Reads opts b) : Reads opts (.list mark tight its) := by
  intro z i stop fuel refs hl hsees hfollow hfuel
  obtain ⟨hdepth, hne, hloose, htable, hlaid⟩ := isLaid_list_iff.1 hl
  obtain ⟨⟨digits, bs⟩, its, rfl⟩ := List.exists_cons_of_ne_nil hne
  have hit : (Item.mk digits bs).isLaid opts (z.depth + 2) mark tight
      (((Item.mk digits bs :: its).map Item.digits).head? = some []) := (itemsLaid_cons_iff.1 hlaid).1
  have hbullet := (isLaid_item_iff.1 hit).bullet
  obtain ⟨f, ts, hts, hstarts⟩ := exists_startsItem hopts hit its
  have hlines : (Outline.Block.list mark tight (.mk digits bs :: its)).lines opts
      = spread (gapLines tight) (itemGroups opts mark tight (.mk digits bs :: its)) := by rw [Block.lines]
  rw [hlines] at hsees hfollow hfuel ⊢
  have hs : z.Shows i f := (hts ▸ hsees.shows).head
  have hfollow' : z.Follows (i + (spread (gapLines tight) (itemGroups opts mark tight (.mk digits bs :: its))).length)
      stop (fun _ => False) (Outline.Block.list mark tight (.mk digits bs :: its)).endsBefore :=
    hfollow.mono (fun f hf => by cases hf) fun f hf => hf
  have hhead : z.tableHead? i stop = none :=
    tableHead?_eq_none_of_sees hsees.shows (by rw [hts]; simp) htable hfollow' (fun f hf => hf.elim) hsees.stop_le
  have hbefore := leafBefore?_eq_none hs hstarts.flush hsees.plain hhead hstarts.fence
  have hquote : z.isQuote i = false := (hs.isQuote_eq hstarts.flush).trans (decide_eq_false hstarts.quote)
  have hrule : breakAt? z i = none := by
    rw [breakAt?, hs.break?_eq hstarts.flush, hstarts.rule]
    rfl
  have hmark : z.marker? i = some ⟨digits, mark⟩ := (hs.marker?_eq hstarts.flush).trans hstarts.marker
  obtain ⟨fuel, rfl⟩ : ∃ f, fuel = f + 1 := ⟨fuel - 1, by omega⟩
  have hread : items fuel z refs ⟨digits, mark⟩ i stop true false #[] = _ :=
    reads_items hopts hits hne hlaid hsees (hfollow'.mono (fun _ h => h) fun f hf n hn => by
      rw [← continues_eq hbullet]
      exact hf _ n rfl hn) (by omega) true false #[]
  rw [areItemsApart_eq hloose] at hread
  refine ⟨_, ?_, .inr rfl⟩
  have hdigits : firstDigits (.mk digits bs :: its) = digits := rfl
  rw [block_of_items hbefore hquote hrule hmark hread, Outline.Block.tokens]
  simp [hdigits, hide_itemTokens]

-- ---------------------------------------------------------------------------
-- All blocks
-- ---------------------------------------------------------------------------

mutual
/-- Every laid block is read back from its lines. -/
theorem reads (hopts : opts.Readable) : (b : Outline.Block) → Reads opts b
  | .leaf l => reads_of_leaf hopts l
  | .quote bs => reads_of_quote hopts (reads_all hopts bs)
  | .list _ _ its => reads_of_list hopts (reads_allItems hopts its)
termination_by structural b => b

theorem reads_all (hopts : opts.Readable) : (bs : List Outline.Block) → ∀ b ∈ bs, Reads opts b
  | [] => fun _ hb => absurd hb List.not_mem_nil
  | b :: bs => List.forall_mem_cons.2 ⟨reads hopts b, reads_all hopts bs⟩
termination_by structural bs => bs

theorem reads_item (hopts : opts.Readable) : (it : Item) → ∀ b ∈ it.blocks, Reads opts b
  | .mk _ bs => reads_all hopts bs
termination_by structural it => it

theorem reads_allItems (hopts : opts.Readable) : (its : List Item) → ∀ it ∈ its, ∀ b ∈ it.blocks, Reads opts b
  | [] => fun _ hit => absurd hit List.not_mem_nil
  | it :: its => List.forall_mem_cons.2 ⟨reads_item hopts it, reads_allItems hopts its⟩
termination_by structural its => its
end

end MdxSafe.Block
