-- SUMMARY: Blocks, quotes and lists are read back from their lines.
import MdxSafe.Proofs.Outline.Shape

/-!
# Reading containers

`Reads` says of a block what the reader makes of its lines, wherever they stand and whatever follows that the
block allows for. It is shown for every laid block by induction: a block inside a container is followed by what
the container makes of what follows it.
-/

namespace MdxSafe.Block

open Outline

-- ---------------------------------------------------------------------------
-- One step
-- ---------------------------------------------------------------------------

variable {z : Zone} {i n stop fuel : Nat} {refs : List Reference} {opts : Layout.Options}

theorem skipEmpty_eq (h : z.isEmpty i = false) (fuel : Nat) : z.skipEmpty fuel i = i := by
  cases fuel with
  | zero => rfl
  | succ fuel => simp [Zone.skipEmpty, h]

/-- After a block the reader goes on behind the empty line after it, if there is one. -/
theorem blocks_step {s : Text} {toks : Array Token} {next : Nat} {refs' : List Reference} {tight' : Bool}
    (hs : z.Shows i s) (hflush : flush s) (hi : i < stop) (hdepth : z.depth < maxDepth)
    (hread : block fuel z refs i stop = .ok ⟨toks, next, refs', tight'⟩)
    (hnext : next = n ∨ next = z.nextAfter n stop) (hlast : z.isEmpty (n - 1) = false)
    (hgap : n < stop → z.isEmpty n → z.isEmpty (n + 1) = false) (spaced tight : Bool) (done : Array Token) :
    blocks (fuel + 1) z refs i stop spaced tight done
      = blocks fuel z refs' (z.nextAfter n stop) stop (spaced || (n < stop && z.isEmpty n)) (!spaced)
          (done ++ toks) := by
  have hskip : z.skipEmpty (z.bound - i) i = i := skipEmpty_eq (hs.isEmpty_eq_false hflush) _
  have hout := hs.isOutside_eq (ne_nil_of_flush hflush)
  have hbody : blocks (fuel + 1) z refs i stop spaced tight done
      = if next < stop && z.isEmpty next then blocks fuel z refs' (next + 1) stop true (!spaced) (done ++ toks)
        else blocks fuel z refs' next stop (spaced || (next - 1 < stop && z.isEmpty (next - 1))) (!spaced)
          (done ++ toks) := by
    rw [blocks]
    simp only [Nat.not_le.2 hi, hskip, hout, Nat.not_le.2 hdepth, hread, if_false, decide_false, Bool.or_self,
      Bool.false_eq_true]
    rfl
  rw [hbody]
  by_cases hn : n < stop ∧ z.isEmpty n = true
  · have hafter : z.nextAfter n stop = n + 1 := by simp [Zone.nextAfter, hn.1, hn.2]
    have hempty : z.isEmpty (n + 1) = false := hgap hn.1 hn.2
    rcases hnext with rfl | rfl
    · simp [hn.1, hn.2, hafter]
    · simp [hafter, hempty, hn.1, hn.2]
  · have hafter : z.nextAfter n stop = n := by
      rw [Zone.nextAfter, if_neg]
      simpa using hn
    have hnot : (decide (n < stop) && z.isEmpty n) = false := by
      rw [Bool.and_eq_false_iff, decide_eq_false_iff_not, ← Bool.not_eq_true (z.isEmpty n)]
      tauto
    have hn' : next = n := by
      rcases hnext with rfl | rfl
      · rfl
      · exact hafter
    rw [hn', hafter, hnot, hlast]
    simp

/-- At the end of a container the reader stops. -/
theorem blocks_end (hfollow : z.Follows n stop (fun _ => False) (fun _ => False)) (hstop : stop ≤ z.bound)
    (spaced tight : Bool) (done : Array Token) :
    blocks fuel z refs (z.nextAfter n stop) stop spaced tight done = .ok ⟨done, z.nextAfter n stop, refs, tight⟩ := by
  have hend : ∀ m, stop ≤ m → blocks fuel z refs m stop spaced tight done = .ok ⟨done, m, refs, tight⟩ := by
    intro m hm
    cases fuel <;> simp [blocks, hm]
  have hout : ∀ m, z.isEmpty m = false → z.isOutside m →
      blocks fuel z refs m stop spaced tight done = .ok ⟨done, m, refs, tight⟩ := by
    intro m he ho
    cases fuel <;> simp [blocks, skipEmpty_eq he, ho]
  cases hfollow with
  | atEnd hb =>
    rw [Zone.nextAfter, if_neg (by simp; omega)]
    exact hend n (by omega)
  | stopGap hn =>
    rw [Zone.nextAfter, if_neg (by simp; omega)]
    exact hend n (by omega)
  | outside hn hs hne ho =>
    have hempty : z.isEmpty n = true := hs.isEmpty_eq
    rw [Zone.nextAfter, if_pos (by simp [hempty]; omega)]
    exact hout (n + 1) hne ho
  | gap _ _ _ _ _ hg => exact hg.elim
  | sibling hn hne _ ho =>
    rw [Zone.nextAfter, if_neg (by simp [hne])]
    exact hout n hne (decide_eq_true ho)
  | touch _ _ _ _ ht => exact ht.elim

-- ---------------------------------------------------------------------------
-- What it is to be read
-- ---------------------------------------------------------------------------

/-- The block is read back from its lines wherever they stand. -/
def Reads (opts : Layout.Options) (b : Outline.Block) : Prop :=
  ∀ (z : Zone) (i stop fuel : Nat) (refs : List Reference), b.isLaid opts z.depth → z.Sees i stop (b.lines opts) →
    z.Follows (i + (b.lines opts).length) stop (fun f => b.admits f) b.endsBefore →
    (b.lines opts).length + 4 * (maxDepth - z.depth) ≤ fuel →
    ∃ next, block fuel z refs i stop = .ok ⟨(b.tokens opts false).toArray, next, refs, true⟩
      ∧ (next = i + (b.lines opts).length ∨ next = z.nextAfter (i + (b.lines opts).length) stop)

theorem reads_of_leaf (hopts : opts.Readable) (l : Leaf) : Reads opts (.leaf l) := by
  intro z i stop fuel refs hl hsees hfollow hfuel
  have hdepth := lt_maxDepth hl
  obtain ⟨fuel, rfl⟩ : ∃ f, fuel = f + 1 := ⟨fuel - 1, by omega⟩
  exact ⟨_, reads_leaf hopts.thematicBreak_eq (isLaid_leaf_iff.1 hl).2 hsees hfollow, .inl rfl⟩

-- ---------------------------------------------------------------------------
-- Rows of blocks
-- ---------------------------------------------------------------------------

/-- Whether blocks are apart: more than one of them with empty lines between. -/
def areApart (tight : Bool) (bs : List Outline.Block) : Bool := !tight && decide (2 ≤ bs.length)

theorem blockLines_singleton (tight : Bool) (b : Outline.Block) : blockLines opts tight [b] = b.lines opts := by
  simp [blockLines, groups]

theorem blockLines_cons_cons (tight : Bool) (b c : Outline.Block) (bs : List Outline.Block) :
    blockLines opts tight (b :: c :: bs) = b.lines opts ++ (gapLines tight ++ blockLines opts tight (c :: bs)) := by
  simp [blockLines, groups, spread_cons_cons]

/-- The first line of a row of blocks is that of its first block. -/
theorem blockLines_eq_cons (hopts : opts.Readable) {b : Outline.Block} {depth : Nat} (hb : b.isLaid opts depth)
    (tight : Bool) (bs : List Outline.Block) : ∃ ss, blockLines opts tight (b :: bs) = b.firstLine opts :: ss := by
  obtain ⟨s, rest, hlines, -⟩ := (framed_block hopts b hb).exists_cons
  have hfirst : b.firstLine opts = s := by rw [Block.firstLine, hlines]; rfl
  rw [hfirst]
  cases bs with
  | nil => exact ⟨rest, by rw [blockLines_singleton, hlines]⟩
  | cons c bs => exact ⟨_, by rw [blockLines_cons_cons, hlines, List.cons_append]⟩

theorem length_le_blockLines (hopts : opts.Readable) {depth : Nat} (tight : Bool) {bs : List Outline.Block}
    (h : areLaid opts depth bs) : bs.length ≤ (blockLines opts tight bs).length := by
  induction bs with
  | nil => exact Nat.zero_le _
  | cons b bs ih =>
    rw [areLaid_cons_iff] at h
    have hpos := (framed_block hopts b h.1).length_pos
    cases bs with
    | nil =>
      rw [blockLines_singleton]
      exact hpos
    | cons c bs =>
      have := ih h.2
      rw [blockLines_cons_cons, List.length_append, List.length_append, List.length_cons]
      omega

/-- Blocks one after the other are read back from their lines. -/
theorem reads_blocks (hopts : opts.Readable) {bs : List Outline.Block} (hbs : ∀ b ∈ bs, Reads opts b)
    (tight : Bool) (hne : bs ≠ []) (hsep : areSeparate opts tight bs) (hlaid : areLaid opts z.depth bs)
    (hsees : z.Sees i stop (blockLines opts tight bs))
    (hfollow : z.Follows (i + (blockLines opts tight bs).length) stop (fun _ => False)
      (fun f => ListMarker.read? f = none))
    (hfuel : (blockLines opts tight bs).length + 4 * (maxDepth - z.depth) + 1 ≤ fuel + bs.length)
    (spaced t : Bool) (done : Array Token) :
    blocks (fuel + bs.length) z refs i stop spaced t done
      = blocks fuel z refs (z.nextAfter (i + (blockLines opts tight bs).length) stop) stop
          (spaced || areApart tight bs || (i + (blockLines opts tight bs).length < stop
            && z.isEmpty (i + (blockLines opts tight bs).length)))
          (!(spaced || areApart tight bs)) (done ++ (blockTokens opts false bs).toArray) := by
  induction bs generalizing i spaced t done with
  | nil => exact absurd rfl hne
  | cons b bs ih =>
    obtain ⟨hb, hrest⟩ := areLaid_cons_iff.1 hlaid
    have hframed := framed_block hopts b hb
    have hpos := hframed.length_pos
    have hdepth := lt_maxDepth hb
    have hle := hsees.le_stop
    have hstop := hsees.stop_le
    obtain ⟨ss, hss⟩ := blockLines_eq_cons hopts hb tight bs
    have hs : z.Shows i (b.firstLine opts) := (hss ▸ hsees.shows).head
    have hflush := flush_firstLine hopts hb
    cases bs with
    | nil =>
      rw [blockLines_singleton] at hsees hfollow hfuel hle ⊢
      obtain ⟨next, hread, hnext⟩ := hbs b List.mem_cons_self z i stop fuel refs hb hsees
        (hfollow.mono (fun _ h => h.elim) fun f hf => endsBefore_of_read?_eq_none b hf) (by simp at hfuel; omega)
      have hlast := hframed.isEmpty_last hsees.shows
      have hgap := fun hn he => hfollow.isEmpty_succ hn hstop he
      rw [List.length_singleton, blocks_step hs hflush (by omega) hdepth hread hnext hlast hgap]
      simp [areApart, blockTokens]
    | cons c bs =>
      obtain ⟨hc, -⟩ := areLaid_cons_iff.1 hrest
      simp only [areSeparate, Bool.and_eq_true] at hsep
      obtain ⟨hsep, hseps⟩ := hsep
      obtain ⟨ts, hts⟩ := blockLines_eq_cons hopts hc tight bs
      rw [blockLines_cons_cons] at hsees hfollow hfuel hle ⊢
      have hgroup := (hsees.right hframed.ne_nil).nextGroup hts (flush_firstLine hopts hc)
      have hadmits : if tight then b.admits (c.firstLine opts) else b.endsBefore (c.firstLine opts) := by
        cases tight with
        | true => exact hsep
        | false => exact endsBefore_of_not_continuesList hopts hb hc (by simpa using hsep)
      have hfollows : z.Follows (i + (b.lines opts).length) stop (fun f => b.admits f) b.endsBefore :=
        hgroup.follows hadmits
      have hlt := hgroup.lt_stop
      simp only [List.length_append, List.length_cons] at hfuel
      obtain ⟨next, hread, hnext⟩ := hbs b List.mem_cons_self z i stop (fuel + (c :: bs).length) refs hb hsees.left
        hfollows (by simp only [List.length_cons]; omega)
      have hlast := hframed.isEmpty_last hsees.left.shows
      have hin : i + (b.lines opts).length < stop := by omega
      rw [Zone.end_eq] at hfollow ⊢
      rw [List.length_cons (a := b), ← Nat.add_assoc, blocks_step hs hflush (by omega) hdepth hread hnext hlast
        fun hn he => hfollows.isEmpty_succ hn hstop he]
      rw [hgroup.nextAfter_eq, hgroup.isEmpty_eq, ih (fun b hb => hbs b (List.mem_cons_of_mem _ hb)) (by simp) hseps hrest
        hgroup.sees hfollow (by simp only [List.length_cons]; omega)]
      cases tight <;> simp [areApart, blockTokens, hin]

/-- All the blocks of a container are read back from its lines. -/
theorem reads_content (hopts : opts.Readable) {bs : List Outline.Block} (hbs : ∀ b ∈ bs, Reads opts b)
    {tight : Bool} (hne : bs ≠ []) (hsep : areSeparate opts tight bs) (hlaid : areLaid opts z.depth bs)
    (hsees : z.Sees i stop (blockLines opts tight bs))
    (hfollow : z.Follows (i + (blockLines opts tight bs).length) stop (fun _ => False) (fun _ => False))
    (hfuel : (blockLines opts tight bs).length + 4 * (maxDepth - z.depth) + 1 ≤ fuel) :
    blocks fuel z refs i stop false true #[]
      = .ok ⟨(blockTokens opts false bs).toArray, z.nextAfter (i + (blockLines opts tight bs).length) stop, refs,
          !areApart tight bs⟩ := by
  have hcount := length_le_blockLines hopts tight hlaid
  obtain ⟨f, rfl⟩ : ∃ f, fuel = f + bs.length := ⟨fuel - bs.length, by omega⟩
  rw [reads_blocks hopts hbs tight hne hsep hlaid hsees (hfollow.mono (fun _ h => h) fun _ h => h.elim) hfuel,
    blocks_end hfollow hsees.stop_le]
  simp

-- ---------------------------------------------------------------------------
-- Quotes
-- ---------------------------------------------------------------------------

theorem noTable_quoted (ss : List Text) : noTable ((ss.map Line.quoted).take 2) := by
  match ss with
  | [] | [_] => rfl
  | s :: t :: ss =>
    simp [noTable, afterIndent_of_flush (Line.flush_quoted t), Table.head?_eq_none (aligns?_quoted t)]

/-- A quote starts on its first line, as no block without blocks inside does. -/
theorem opens_quote {ss : List Text} {gap : Text → Prop} (hss : Framed ss) (hsees : z.Sees i stop (ss.map Line.quoted))
    (hfollow : z.Follows (i + ss.length) stop (fun _ => False) gap) :
    leafBefore? z i stop = .ok none ∧ z.isQuote i = true := by
  have htable : z.tableHead? i stop = none := by
    rw [← List.length_map Line.quoted] at hfollow
    exact tableHead?_eq_none_of_sees hsees.shows (by simpa using hss.ne_nil) (noTable_quoted _) hfollow
      (fun f hf => hf.elim) hsees.stop_le
  obtain ⟨s, rest, rfl, -⟩ := hss.exists_cons
  have hs : z.Shows i (Line.quoted s) := hsees.shows.head
  have hflush := Line.flush_quoted s
  obtain ⟨t, ht⟩ := Line.quoted_eq_cons s
  refine ⟨leafBefore?_eq_none hs hflush hsees.plain htable (ht ▸ Fence.open?_eq_none t (by decide)), ?_⟩
  rw [hs.isQuote_eq hflush, ht]
  rfl

theorem block_of_quote {inner : Zone} {n : Nat} {r : Reading} (hbefore : leafBefore? z i stop = .ok none)
    (hquote : z.isQuote i = true) (hzone : quoteZone z i stop = (inner, n))
    (hread : blocks fuel inner refs i n false true #[] = .ok r) :
    block (fuel + 1) z refs i stop
      = .ok ⟨#[.opening .blockquoteOpen ['>']] ++ r.tokens ++ #[.closing .blockquoteClose ['>']], r.next, r.refs, true⟩ := by
  rw [block]
  simp only [hbefore, hquote, hzone, hread]
  rfl

theorem reads_of_quote (hopts : opts.Readable) {bs : List Outline.Block} (hbs : ∀ b ∈ bs, Reads opts b) :
    Reads opts (.quote bs) := by
  intro z i stop fuel refs hl hsees hfollow hfuel
  obtain ⟨hdepth, hne, hsep, hlaid⟩ := isLaid_quote_iff.1 hl
  have hlines : (Outline.Block.quote bs).lines opts = (blockLines opts false bs).map Line.quoted := by
    rw [Block.lines, blockLines]
  have hframed : Framed (blockLines opts false bs) := framed_blockLines hopts hne hlaid
  rw [hlines] at hsees
  rw [hlines, List.length_map] at hfollow hfuel ⊢
  have hfollow' : z.Follows (i + (blockLines opts false bs).length) stop (fun _ => False)
      (Outline.Block.quote bs).endsBefore := hfollow.mono (fun f hf => by cases hf) fun f hf => hf
  obtain ⟨hbefore, hquote⟩ := opens_quote hframed hsees hfollow'
  obtain ⟨inner, hzone, hinner⟩ := exists_isQuoteOf hframed hsees hfollow'
  obtain ⟨fuel, rfl⟩ : ∃ f, fuel = f + 1 := ⟨fuel - 1, by omega⟩
  have hread : blocks fuel inner refs i _ false true #[] = .ok ⟨_, _, refs, _⟩ :=
    reads_content hopts hbs hne hsep (by rwa [hinner.depth_eq]) (hinner.sees hframed hsees) hinner.follows
      (by rw [hinner.depth_eq]; omega)
  have hnext : inner.nextAfter (i + (blockLines opts false bs).length) (i + (blockLines opts false bs).length)
      = i + (blockLines opts false bs).length := by simp [Zone.nextAfter]
  rw [hnext] at hread
  refine ⟨i + (blockLines opts false bs).length, ?_, .inl rfl⟩
  rw [block_of_quote hbefore hquote hzone hread, Outline.Block.tokens]
  simp

end MdxSafe.Block
