-- SUMMARY: Hiding the paragraphs of a tight list in its tokens.
import MdxSafe.Proofs.Outline.Tree

/-!
# Hidden paragraphs

The reader hides the paragraphs of a tight list by going through its tokens and counting how deep they stand.
On the tokens of an outline this hides the paragraphs directly inside the items and changes nothing else.
-/

open MdxSafe.Block (hideParagraphs)

namespace MdxSafe.Outline

variable {opts : Layout.Options}

-- ---------------------------------------------------------------------------
-- Tokens without paragraphs
-- ---------------------------------------------------------------------------

/-- Passing over the tokens changes nothing and ends at the depth where it started. -/
def Neutral (ts : List Token) : Prop :=
  ∀ depth rest, hideParagraphs (depth + 1) (ts ++ rest) = ts ++ hideParagraphs (depth + 1) rest

theorem Neutral.nil : Neutral [] := fun _ _ => rfl

theorem Neutral.append {ts us : List Token} (ht : Neutral ts) (hu : Neutral us) : Neutral (ts ++ us) := by
  intro depth rest
  rw [List.append_assoc, ht, hu, List.append_assoc]

theorem Neutral.stands {t : Token} (h : t.nesting = .stands) : Neutral [t] := by
  intro depth rest
  simp [hideParagraphs, h]

theorem Neutral.flatMap {α : Type} {f : α → List Token} {xs : List α} (h : ∀ x ∈ xs, Neutral (f x)) :
    Neutral (xs.flatMap f) := by
  induction xs with
  | nil => exact .nil
  | cons x xs ih =>
    rw [List.flatMap_cons]
    exact (h x List.mem_cons_self).append (ih fun y hy => h y (List.mem_cons_of_mem _ hy))

theorem hide_opening {t : Token} (h : t.nesting = .opens) (hk : t.kind ≠ .paragraphOpen) (depth : Nat)
    (rest : List Token) : hideParagraphs depth (t :: rest) = t :: hideParagraphs (depth + 1) rest := by
  obtain ⟨kind, nesting, tag, attrs, content, markup, info, hidden, children⟩ := t
  simp only at h hk
  subst h
  simp [hideParagraphs, hk]

theorem hide_closing {t : Token} (h : t.nesting = .closes) (hk : t.kind ≠ .paragraphClose) (depth : Nat)
    (rest : List Token) : hideParagraphs (depth + 1) (t :: rest) = t :: hideParagraphs depth rest := by
  obtain ⟨kind, nesting, tag, attrs, content, markup, info, hidden, children⟩ := t
  simp only at h hk
  subst h
  simp [hideParagraphs, hk]

/-- An element that is no paragraph, around tokens without paragraphs. -/
theorem Neutral.element {o c : Token} {ts : List Token} (ho : o.nesting = .opens) (hc : c.nesting = .closes)
    (hok : o.kind ≠ .paragraphOpen) (hck : c.kind ≠ .paragraphClose) (h : Neutral ts) :
    Neutral (o :: ts ++ [c]) := by
  intro depth rest
  rw [List.append_assoc, List.cons_append, hide_opening ho hok, h, List.singleton_append, hide_closing hc hck]
  simp

theorem neutral_heading (level : Nat) (markup content : Text) :
    Neutral (MdxSafe.Block.headingTokens level markup content) := by
  have hcontent : Neutral [.running content] := .stands rfl
  exact .element rfl rfl (by simp [Token.opening]) (by simp [Token.closing]) hcontent

theorem neutral_row {openCell closeCell : TokenKind} (ho : openCell ≠ .paragraphOpen)
    (hc : closeCell ≠ .paragraphClose) (aligns : List Table.Align) (cells : List Text) :
    Neutral (MdxSafe.Block.rowTokens openCell closeCell aligns cells) := by
  refine .element rfl rfl (by simp [Token.opening]) (by simp [Token.closing]) ?_
  rw [← List.flatMap_id]
  refine .flatMap fun ts hts => ?_
  obtain ⟨i, a, rfl⟩ := List.mem_mapIdx.1 hts
  have hcell : Neutral [.running (Text.trimMargin (cells.getD i []))] := .stands rfl
  exact .element rfl rfl (by simpa [Token.opening] using ho) (by simpa [Token.closing] using hc) hcell

theorem neutral_table (aligns : List Table.Align) (head : List Text) (rows : List (List Text)) :
    Neutral (MdxSafe.Block.tableTokens aligns head rows) := by
  have hbody : Neutral (if rows = [] then [] else
      .opening .tbodyOpen [] :: rows.flatMap (MdxSafe.Block.rowTokens .tdOpen .tdClose aligns)
        ++ [.closing .tbodyClose []]) := by
    split
    · exact .nil
    · exact .element rfl rfl (by simp [Token.opening]) (by simp [Token.closing])
        (.flatMap fun r _ => neutral_row (by simp) (by simp) aligns r)
  have hhead : Neutral (.opening .theadOpen [] :: MdxSafe.Block.rowTokens .thOpen .thClose aligns head
      ++ [.closing .theadClose []]) :=
    .element rfl rfl (by simp [Token.opening]) (by simp [Token.closing]) (neutral_row (by simp) (by simp) aligns head)
  have htable := Neutral.element (o := .opening .tableOpen []) (c := .closing .tableClose []) rfl rfl
    (by simp [Token.opening]) (by simp [Token.closing]) (hhead.append hbody)
  simpa [MdxSafe.Block.tableTokens] using htable

-- ---------------------------------------------------------------------------
-- Tokens of an outline
-- ---------------------------------------------------------------------------

/-- At depth one the paragraph is hidden, deeper inside nothing is. -/
theorem hide_leaf (l : Leaf) (hidden : Bool) (depth : Nat) (rest : List Token) :
    hideParagraphs (depth + 1) (l.tokens opts hidden ++ rest)
      = l.tokens opts (hidden || depth = 0) ++ hideParagraphs (depth + 1) rest := by
  cases l with
  | paragraph u => simp [Leaf.tokens, hideParagraphs, Token.opening, Token.running, Token.closing]
  | heading level u => exact neutral_heading level _ u depth rest
  | code info payload => exact Neutral.stands rfl depth rest
  | html v => exact Neutral.stands rfl depth rest
  | rule => exact Neutral.stands rfl depth rest
  | table aligns head rows => exact neutral_table aligns _ _ depth rest

mutual
theorem hide_block (hidden : Bool) (depth : Nat) (rest : List Token) :
    (b : Block) → hideParagraphs (depth + 1) (b.tokens opts hidden ++ rest)
      = b.tokens opts (hidden || depth = 0) ++ hideParagraphs (depth + 1) rest
  | .leaf l => hide_leaf l hidden depth rest
  | .quote bs => by
    have hinside := hide_blocks false (depth + 1) ([.closing .blockquoteClose ['>']] ++ rest) bs
    have hnot : (false || decide (depth + 1 = 0)) = false := by simp
    rw [hnot] at hinside
    rw [Block.tokens, Block.tokens, List.append_assoc, List.cons_append,
      hide_opening rfl (by simp [Token.opening]), hinside, List.singleton_append,
      hide_closing rfl (by simp [Token.closing])]
    simp
  | .list mark tight its => by
    have hinside := hide_items mark tight (depth + 2) ([.closing (listKinds (firstDigits its)).2 [mark]] ++ rest) its
    have hnot : (tight || decide (depth + 2 = 0)) = tight := by simp
    have hkinds : (listKinds (firstDigits its)).1 ≠ .paragraphOpen
        ∧ (listKinds (firstDigits its)).2 ≠ .paragraphClose := by
      unfold listKinds
      split <;> simp
    rw [hnot] at hinside
    rw [Block.tokens, Block.tokens, List.append_assoc, List.cons_append, hide_opening rfl hkinds.1,
      hinside, List.singleton_append, hide_closing rfl hkinds.2]
    simp
termination_by structural b => b

theorem hide_blocks (hidden : Bool) (depth : Nat) (rest : List Token) :
    (bs : List Block) → hideParagraphs (depth + 1) (blockTokens opts hidden bs ++ rest)
      = blockTokens opts (hidden || depth = 0) bs ++ hideParagraphs (depth + 1) rest
  | [] => rfl
  | b :: bs => by
    rw [blockTokens, blockTokens, List.append_assoc, hide_block hidden depth _ b, hide_blocks hidden depth rest bs,
      List.append_assoc]
termination_by structural bs => bs

theorem hide_item (mark : Char) (hidden : Bool) (depth : Nat) (rest : List Token) :
    (it : Item) → hideParagraphs depth (it.tokens opts mark hidden ++ rest)
      = it.tokens opts mark (hidden || depth = 0) ++ hideParagraphs depth rest
  | .mk digits bs => by
    rw [Item.tokens, Item.tokens, List.append_assoc, List.cons_append,
      hide_opening rfl (by simp [itemOpening, Token.opening]), hide_blocks hidden depth _ bs, List.singleton_append,
      hide_closing rfl (by simp [Token.closing])]
    simp
termination_by structural it => it

theorem hide_items (mark : Char) (hidden : Bool) (depth : Nat) (rest : List Token) :
    (its : List Item) → hideParagraphs depth (itemTokens opts mark hidden its ++ rest)
      = itemTokens opts mark (hidden || depth = 0) its ++ hideParagraphs depth rest
  | [] => rfl
  | it :: its => by
    rw [itemTokens, itemTokens, List.append_assoc, hide_item mark hidden depth _ it, hide_items mark hidden depth rest its,
      List.append_assoc]
termination_by structural its => its
end

end MdxSafe.Outline
