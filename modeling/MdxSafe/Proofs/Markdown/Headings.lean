-- SUMMARY: In the tokens of blocks every heading stands with its text, and no definition has a line break in its target.
import MdxSafe.Proofs.Markdown.Items
import MdxSafe.Proofs.Markdown.Piece
import MdxSafe.Proofs.Outcome

/-!
# Headings among the tokens of blocks

Blocks are read with fuel, each reader calling the others with less of it. What they yield is `Fine`: the three tokens of
a heading stand together, and definitions have unbroken targets. `fine_blocks`, `fine_block` and `fine_items` are the
steps, `fine` is the induction.
-/

namespace MdxSafe

theorem Heading.level_of_read? {t : Text} {r : Nat × Text} (h : read? t = some r) : 1 ≤ r.1 ∧ r.1 ≤ 6 := by
  unfold read? at h
  dsimp only at h
  split at h
  · next hlevel =>
    cases h
    exact ⟨hlevel.1, hlevel.2.1⟩
  · cases h

namespace Block

open Markdown (ReadFault)

-- ---------------------------------------------------------------------------
-- Streams
-- ---------------------------------------------------------------------------

/-- Whether a token may stand anywhere among the tokens of blocks: it opens no heading, and it is no image. -/
def IsLoose (t : Token) : Prop := t.kind ≠ .headingOpen ∧ t.kind ≠ .image

theorem IsLoose.of_decide {t : Token} (h : decide (t.kind ≠ .headingOpen ∧ t.kind ≠ .image) = true) : IsLoose t :=
  of_decide_eq_true (p := _ ∧ _) h

/-- Tokens of blocks. The tokens of a heading, of level one to six, stand together. -/
inductive IsStream : List Token → Prop
  | nil : IsStream []
  | loose {t : Token} {ts : List Token} (ht : IsLoose t) (h : IsStream ts) : IsStream (t :: ts)
  | heading {level : Nat} (hlevel : 1 ≤ level ∧ level ≤ 6) (markup content : Text) {ts : List Token} (h : IsStream ts) :
    IsStream (headingTokens level markup content ++ ts)

namespace IsStream

variable {ts us : List Token}

theorem append (h : IsStream ts) (h' : IsStream us) : IsStream (ts ++ us) := by
  induction h with
  | nil => exact h'
  | loose ht _ ih => exact .loose ht ih
  | heading hlevel markup content _ ih => exact List.append_assoc _ _ us ▸ .heading hlevel markup content ih

theorem flatten {tss : List (List Token)} (h : ∀ ts ∈ tss, IsStream ts) : IsStream tss.flatten := by
  induction tss with
  | nil => exact .nil
  | cons ts tss ih =>
    exact (h ts List.mem_cons_self).append (ih fun us hus => h us (List.mem_cons_of_mem ts hus))

/-- Tokens between two that may stand anywhere. -/
theorem between {t c : Token} (ht : IsLoose t) (hc : IsLoose c) (h : IsStream ts) : IsStream (t :: ts ++ [c]) :=
  .loose ht (h.append (.loose hc .nil))

/-- Hiding paragraphs leaves headings as they are. -/
theorem hideParagraphs (h : IsStream ts) (depth : Nat) : IsStream (Block.hideParagraphs depth ts) := by
  induction h generalizing depth with
  | nil => exact .nil
  | @loose t ts ht _ ih =>
    rw [Block.hideParagraphs]
    split
    · exact .loose ht (ih _)
    · exact .loose ht (ih _)
    · exact .loose ht (ih _)
  | heading hlevel markup content _ ih => exact .heading hlevel markup content (ih depth)

end IsStream

-- ---------------------------------------------------------------------------
-- Blocks without blocks inside
-- ---------------------------------------------------------------------------

/-- Tokens of blocks, and definitions whose targets hold no line break. -/
structure Fine (r : Reading) : Prop where
  stream : IsStream r.tokens.toList
  refs : Reference.AreUnbroken r.refs

variable {z : Zone} {i stop : Nat} {refs : List Reference}

theorem isStream_rowTokens {openCell closeCell : TokenKind} (hopen : openCell = .thOpen ∨ openCell = .tdOpen)
    (hclose : closeCell = .thClose ∨ closeCell = .tdClose) (aligns : List Table.Align) (cells : List Text) :
    IsStream (rowTokens openCell closeCell aligns cells) := by
  refine .between (.of_decide rfl) (.of_decide rfl) (.flatten fun ts hts => ?_)
  obtain ⟨j, hj, rfl⟩ := List.mem_mapIdx.1 hts
  refine .loose ?_ (.loose (.of_decide rfl) (.loose ?_ .nil))
  · rcases hopen with rfl | rfl <;> exact .of_decide rfl
  · rcases hclose with rfl | rfl <;> exact .of_decide rfl

theorem isStream_tableTokens (aligns : List Table.Align) (head : List Text) (rows : List (List Text)) :
    IsStream (tableTokens aligns head rows) := by
  have hbody : IsStream (if rows = [] then [] else
      .opening .tbodyOpen [] :: rows.flatMap (rowTokens .tdOpen .tdClose aligns) ++ [.closing .tbodyClose []]) := by
    split
    · exact .nil
    · refine .between (.of_decide rfl) (.of_decide rfl) (.flatten fun ts hts => ?_)
      obtain ⟨row, -, rfl⟩ := List.mem_map.1 hts
      exact isStream_rowTokens (.inr rfl) (.inr rfl) aligns row
  have hhead := isStream_rowTokens (.inl rfl) (.inl rfl) aligns head
  have hstart : IsStream [.opening .tableOpen [], .opening .theadOpen []] :=
    .loose (.of_decide rfl) (.loose (.of_decide rfl) .nil)
  have hlast : ∀ {kind : TokenKind}, kind = .theadClose ∨ kind = .tableClose → IsStream [.closing kind []] := by
    rintro kind (rfl | rfl) <;> exact .loose (.of_decide rfl) .nil
  exact (((hstart.append hhead).append (hlast (.inl rfl))).append hbody).append (hlast (.inr rfl))

theorem isStream_frontMatterAt? {r : List Token × Nat} (h : frontMatterAt? z i stop = .ok (some r)) : IsStream r.1 := by
  unfold frontMatterAt? at h
  dsimp only at h
  split at h
  · cases h
  · obtain ⟨found, -, h⟩ := exists_of_bind_eq_ok h
    split at h
    · cases h
      exact .loose (.of_decide rfl) .nil
    · cases h

theorem isStream_leafBefore? {r : List Token × Nat} (h : leafBefore? z i stop = .ok (some r)) : IsStream r.1 := by
  unfold leafBefore? at h
  dsimp only at h
  obtain ⟨front, hfront, h⟩ := exists_of_bind_eq_ok h
  split at h
  · cases h
    exact isStream_frontMatterAt? hfront
  · split at h
    · obtain ⟨rows, -, h⟩ := exists_of_bind_eq_ok h
      cases h
      exact isStream_tableTokens _ _ _
    · split at h
      · cases h
        exact .loose (.of_decide rfl) .nil
      · obtain ⟨f, -, rfl⟩ := Option.map_eq_some_iff.1 (Except.ok.inj h)
        exact .loose (.of_decide rfl) .nil

theorem isStream_breakAt? {r : List Token × Nat} (h : breakAt? z i = some r) : IsStream r.1 := by
  obtain ⟨f, -, rfl⟩ := Option.map_eq_some_iff.1 h
  exact .loose (.of_decide rfl) .nil

theorem isStream_leafAfter {r : List Token × Nat} (h : leafAfter z i stop = .ok r) : IsStream r.1 := by
  unfold leafAfter at h
  dsimp only at h
  split at h
  · split at h
    all_goals
      split at h
      · cases h
      · cases h
        exact .loose (.of_decide rfl) .nil
  · split at h
    · next level content hheading =>
      cases h
      have hlevel : 1 ≤ level ∧ level ≤ 6 := by
        unfold Zone.heading? at hheading
        split at hheading
        · cases hheading
        · exact Heading.level_of_read? hheading
      exact List.append_nil (headingTokens level _ content) ▸ .heading hlevel _ content .nil
    · split at h
      · next j mark _ =>
        cases h
        have hlevel : 1 ≤ Heading.underlineLevel mark ∧ Heading.underlineLevel mark ≤ 6 := by
          unfold Heading.underlineLevel
          split <;> decide
        exact List.append_nil (headingTokens _ [mark] _) ▸ .heading hlevel _ _ .nil
      · cases h
        exact .loose (.of_decide rfl) (.loose (.of_decide rfl) (.loose (.of_decide rfl) .nil))

-- ---------------------------------------------------------------------------
-- Definitions
-- ---------------------------------------------------------------------------

/-- The target of a definition is in normal form. -/
theorem href_of_read? {more : Definition.More} {fuel n : Nat} {line : Text} {d : Reference}
    (h : Definition.read? more fuel line = some (d, n)) : '\n' ∉ d.target.href := by
  unfold Definition.read? at h
  split at h
  · simp only [Option.bind_eq_bind, Option.bind_eq_some_iff] at h
    obtain ⟨⟨label, c⟩, -, rest, -, ⟨dest, rest'⟩, -, h⟩ := h
    have hdone : ∀ (p : Prop) [Decidable p] (label title : Text) (k : Nat),
        (if p then some ((⟨label, ⟨Url.normalize dest, title⟩⟩ : Reference), k) else none) = some (d, n) →
          '\n' ∉ d.target.href := by
      intro p _ label title k h
      split at h
      · cases h
        exact Url.notMem_normalize dest
      · cases h
    dsimp only at h
    split at h
    · cases h
    · split at h
      · split at h
        · exact hdone _ _ _ _ h
        · split at h
          · exact hdone _ _ _ _ h
          · split at h
            · cases h
            · exact hdone _ _ _ _ h
      · exact hdone _ _ _ _ h
  · cases h

theorem href_of_definition? {n : Nat} {d : Reference} (h : definition? z i = some (d, n)) : '\n' ∉ d.target.href := by
  unfold definition? at h
  split at h
  · cases h
  · obtain ⟨⟨d, n⟩, hd, heq⟩ := Option.map_eq_some_iff.1 h
    cases heq
    exact href_of_read? hd

theorem areUnbroken_add {d : Reference} (hrefs : Reference.AreUnbroken refs) (hd : '\n' ∉ d.target.href) :
    Reference.AreUnbroken (Reference.add refs d) := by
  intro r hr
  rw [Reference.add] at hr
  split at hr
  · exact hrefs r hr
  · rcases List.mem_append.1 hr with hr | hr
    · exact hrefs r hr
    · exact List.mem_singleton.1 hr ▸ hd

-- ---------------------------------------------------------------------------
-- Blocks
-- ---------------------------------------------------------------------------

/-- What `blocks` yields with so much fuel is fine. -/
def FineBlocks (fuel : Nat) : Prop :=
  ∀ {z refs i stop spaced tight done r}, Reference.AreUnbroken refs → IsStream done.toList →
    blocks fuel z refs i stop spaced tight done = .ok r → Fine r

/-- What `block` yields with so much fuel is fine. -/
def FineBlock (fuel : Nat) : Prop :=
  ∀ {z refs i stop r}, Reference.AreUnbroken refs → block fuel z refs i stop = .ok r → Fine r

/-- What `items` yields with so much fuel is fine. -/
def FineItems (fuel : Nat) : Prop :=
  ∀ {z refs m i stop tight endsEmpty done r}, Reference.AreUnbroken refs → IsStream done.toList →
    items fuel z refs m i stop tight endsEmpty done = .ok r → Fine r

variable {fuel : Nat}

theorem fine_blocks (hblock : FineBlock fuel) (hblocks : FineBlocks fuel) : FineBlocks (fuel + 1) := by
  intro z refs i stop spaced tight done r hrefs hdone h
  rw [blocks] at h
  dsimp only at h
  split at h
  · cases h
    exact ⟨hdone, hrefs⟩
  split at h
  · cases h
    exact ⟨hdone, hrefs⟩
  split at h
  · cases h
    exact ⟨hdone, hrefs⟩
  obtain ⟨b, hb, h⟩ := exists_of_bind_eq_ok h
  have hfine := hblock hrefs hb
  have hdone' : IsStream (done ++ b.tokens).toList := by
    rw [Array.toList_append]
    exact hdone.append hfine.stream
  split at h
  · exact hblocks hfine.refs hdone' h
  · exact hblocks hfine.refs hdone' h

theorem fine_leaf {ts : List Token} {next : Nat} {tight : Bool} (hrefs : Reference.AreUnbroken refs) (h : IsStream ts) :
    Fine ⟨ts.toArray, next, refs, tight⟩ := ⟨h, hrefs⟩

/-- The tokens of a list around those of its items. -/
theorem isStream_list {ts : List Token} (h : IsStream ts) (m : ListMarker) :
    IsStream (#[{ Token.opening (Outline.listKinds m.digits).1 [m.mark] with attrs := Outline.listAttrs m.digits m.mark }]
      ++ ts.toArray ++ #[Token.closing (Outline.listKinds m.digits).2 [m.mark]]).toList := by
  have hopen : IsLoose
      { Token.opening (Outline.listKinds m.digits).1 [m.mark] with attrs := Outline.listAttrs m.digits m.mark } := by
    unfold Outline.listKinds
    split <;> exact .of_decide rfl
  have hclose : IsLoose (.closing (Outline.listKinds m.digits).2 [m.mark]) := by
    unfold Outline.listKinds
    split <;> exact .of_decide rfl
  simpa using h.between hopen hclose

theorem fine_block (hblocks : FineBlocks fuel) (hitems : FineItems fuel) : FineBlock (fuel + 1) := by
  intro z refs i stop r hrefs h
  have hblock := h
  rw [block] at h
  dsimp only at h
  obtain ⟨before, hbefore, h⟩ := exists_of_bind_eq_ok h
  split at h
  · cases h
    exact fine_leaf hrefs (isStream_leafBefore? hbefore)
  split at h
  · obtain ⟨b, hb, h⟩ := exists_of_bind_eq_ok h
    cases h
    have hfine := hblocks hrefs .nil hb
    refine ⟨?_, hfine.refs⟩
    simpa using hfine.stream.between (t := .opening .blockquoteOpen ['>']) (c := .closing .blockquoteClose ['>'])
      (.of_decide rfl) (.of_decide rfl)
  next hquote =>
  split at h
  · next hbreak =>
    cases h
    exact fine_leaf hrefs (isStream_breakAt? hbreak)
  next hbreak =>
  split at h
  · next m hmark =>
    obtain ⟨b, hb, -⟩ := exists_of_bind_eq_ok h
    rw [block_of_items hbefore (Bool.eq_false_iff.2 hquote) hbreak hmark hb] at hblock
    cases hblock
    have hfine := hitems hrefs .nil hb
    refine ⟨isStream_list ?_ m, hfine.refs⟩
    split
    · exact hfine.stream.hideParagraphs 0
    · exact hfine.stream
  split at h
  · next d next hd =>
    cases h
    exact ⟨.nil, areUnbroken_add hrefs (href_of_definition? hd)⟩
  · obtain ⟨after, hafter, h⟩ := exists_of_bind_eq_ok h
    cases h
    exact fine_leaf hrefs (isStream_leafAfter hafter)

/-- Reading items is reading the blocks of one and then what comes after it. -/
theorem items_succ (fuel : Nat) (z : Zone) (refs : List Reference) (m : ListMarker) (i stop : Nat)
    (tight endsEmpty : Bool) (done : Array Token) :
    items (fuel + 1) z refs m i stop tight endsEmpty done
      = (if (itemZone z m i).2 && z.isEmpty (i + 1) then .ok ⟨#[], min (i + 2) stop, refs, true⟩
          else blocks fuel (itemZone z m i).1 refs i stop false true #[]) >>= fun b =>
        afterItem fuel z m stop (1 < b.next - i && (itemZone z m i).1.isEmpty (b.next - 1))
          ⟨(done.push { Token.opening .listItemOpen [m.mark] with info := m.digits } ++ b.tokens).push
            (.closing .listItemClose [m.mark]), b.next, b.refs, tight && b.tight && !endsEmpty⟩ := by
  rw [items]
  dsimp only
  split <;> rfl

theorem fine_items (hblocks : FineBlocks fuel) (hitems : FineItems fuel) : FineItems (fuel + 1) := by
  intro z refs m i stop tight endsEmpty done r hrefs hdone h
  rw [items_succ] at h
  obtain ⟨b, hb, h⟩ := exists_of_bind_eq_ok h
  have hfine : Fine b := by
    split at hb
    · cases hb
      exact ⟨.nil, hrefs⟩
    · exact hblocks hrefs .nil hb
  have hitem : IsStream ((done.push { Token.opening .listItemOpen [m.mark] with info := m.digits } ++ b.tokens).push
      (.closing .listItemClose [m.mark])).toList := by
    have hinside := hfine.stream.between (t := { Token.opening .listItemOpen [m.mark] with info := m.digits })
      (c := .closing .listItemClose [m.mark]) (.of_decide rfl) (.of_decide rfl)
    simpa using hdone.append hinside
  rw [afterItem] at h
  split at h
  · cases h
    exact ⟨hitem, hfine.refs⟩
  split at h
  · split at h
    · exact hitems hfine.refs hitem h
    · cases h
      exact ⟨hitem, hfine.refs⟩
  · cases h
    exact ⟨hitem, hfine.refs⟩

theorem fine (fuel : Nat) : FineBlocks fuel ∧ FineBlock fuel ∧ FineItems fuel := by
  induction fuel with
  | zero =>
    refine ⟨fun hrefs hdone h => ?_, fun hrefs h => ?_, fun hrefs hdone h => ?_⟩
    · rw [blocks] at h
      cases h
      exact ⟨hdone, hrefs⟩
    · rw [block] at h
      cases h
      exact ⟨.nil, hrefs⟩
    · rw [items] at h
      cases h
      exact ⟨hdone, hrefs⟩
  | succ fuel ih =>
    obtain ⟨hblocks, hblock, hitems⟩ := ih
    exact ⟨fine_blocks hblock hblocks, fine_block hblocks hitems, fine_items hblocks hitems⟩

/-- The tokens and the definitions of a document. -/
theorem fine_parse {t : Text} {r : List Token × List Reference} (h : parse t = .ok r) :
    IsStream r.1 ∧ Reference.AreUnbroken r.2 := by
  obtain ⟨b, hb, h⟩ := exists_of_bind_eq_ok h
  cases h
  have hfine := (fine _).1 (by simp [Reference.AreUnbroken]) .nil hb
  exact ⟨hfine.stream, hfine.refs⟩

end Block
end MdxSafe
