-- SUMMARY: When the lines of an outline are read back as that outline.
import MdxSafe.Proofs.Outline.Basic
import MdxSafe.Proofs.Text.Lines

/-!
# Outlines laid out well

A line that starts a paragraph must start nothing else, a line that goes on with one must not interrupt it, a
heading must keep its text, and a list must not run into the next one. `Block.isLaid` asks this of every line
and of every two neighbouring blocks, and that no container is nested deeper than the reader looks.
-/

namespace MdxSafe

namespace Outline

-- ---------------------------------------------------------------------------
-- Lines
-- ---------------------------------------------------------------------------

/-- Whether a line starts an item that may interrupt a paragraph. -/
def startsFirmItem (s : Text) : Bool :=
  match ListMarker.read? s with
  | some m => (!m.isOrdered || m.number = 1) && !(s.drop m.width).all isIndent
  | none => false

/-- Whether a line interrupts a paragraph, whatever the next line is. -/
def interrupts (s : Text) : Bool :=
  (Fence.open? s).isSome || s.head? = some '>' || (thematicBreak? s).isSome || startsFirmItem s
    || (HtmlBlock.kind? s).any HtmlBlock.Kind.interrupts || (Heading.read? s).isSome

/-- Whether a line ends a definition before it, as the line of another block. -/
def breaksDefinition (s : Text) : Bool := interrupts s || (ListMarker.read? s).isSome

/-- The lines that a definition may go on over, if these come after its first line. -/
def definitionLines (ss : List Text) : List Text := (ss.takeWhile fun s => !breaksDefinition s).map (· ++ ['\n'])

/-- Whether a paragraph of these lines starts with a definition. -/
def startsDefinition : List Text → Bool
  | [] => false
  | s :: ss => (Definition.read? (fun k => (definitionLines ss)[k]?) (ss.length + 1) (s ++ ['\n'])).isSome

/-- Whether a line starts a paragraph, unless that is a definition. -/
def startsParagraph (s : Text) : Bool :=
  flush s && (Fence.open? s).isNone && s.head? != some '>' && (thematicBreak? s).isNone
    && (ListMarker.read? s).isNone && (HtmlBlock.kind? s).isNone && (Heading.read? s).isNone

/-- The line starts a paragraph: it starts nothing else. -/
structure ParagraphStart (s : Text) : Prop where
  flush : flush s
  fence : Fence.open? s = none
  quote : s.head? ≠ some '>'
  rule : thematicBreak? s = none
  marker : ListMarker.read? s = none
  html : HtmlBlock.kind? s = none
  heading : Heading.read? s = none

theorem startsParagraph_iff {s : Text} : startsParagraph s ↔ ParagraphStart s := by
  simp only [startsParagraph, Bool.and_eq_true, bne_iff_ne, Option.isNone_iff_eq_none]
  constructor
  · rintro ⟨⟨⟨⟨⟨⟨hflush, hfence⟩, hquote⟩, hrule⟩, hmarker⟩, hhtml⟩, hheading⟩
    exact ⟨hflush, hfence, hquote, hrule, hmarker, hhtml, hheading⟩
  · rintro ⟨hflush, hfence, hquote, hrule, hmarker, hhtml, hheading⟩
    exact ⟨⟨⟨⟨⟨⟨hflush, hfence⟩, hquote⟩, hrule⟩, hmarker⟩, hhtml⟩, hheading⟩

/-- Whether a line goes on with a paragraph. -/
def continuesParagraph (s : Text) : Bool := flush s && !interrupts s && (Heading.underline? s).isNone

theorem flush_of_continuesParagraph {s : Text} (h : continuesParagraph s) : flush s := by
  simp only [continuesParagraph, Bool.and_eq_true] at h
  exact h.1.1

/-- Whether a line ends a paragraph before it, as the line of another block. -/
def breaksParagraph (s : Text) : Bool := interrupts s && (Heading.underline? s).isNone

/-- Whether no two lines in a row are the head of a table. -/
def noTable : List Text → Bool
  | s :: t :: ss => (Table.head? (afterIndent s) (afterIndent t)).isNone && noTable (t :: ss)
  | _ => true

/-- Whether a line with nothing of its block after it cannot be the second line of a table. -/
def noDelimiter (s : Text) : Bool := (Table.aligns? s).isNone

-- ---------------------------------------------------------------------------
-- Blocks without blocks inside
-- ---------------------------------------------------------------------------

/-- Whether an HTML block of a kind ends with a mark of its own. -/
def endsByMark (k : HtmlBlock.Kind) : Bool := k != .element && k != .tag

/-- Whether the mark that ends an HTML block stands on the last line and on no other. -/
def endsOnLast (k : HtmlBlock.Kind) : List Text → Bool
  | [] => false
  | [s] => k.endsAt (afterIndent s)
  | s :: ss => !k.endsAt (afterIndent s) && endsOnLast k ss

/-- Whether the lines of an HTML block are all of it. -/
def holdsHtml (ss : List Text) : Bool :=
  match ss with
  | [] => false
  | s :: rest =>
    flush s && match HtmlBlock.kind? s with
      | some k => if endsByMark k then endsOnLast k ss else rest.all fun t => !blank t
      | none => false

/-- Whether a cell is one cell when its row is cut. -/
def isCell (w : Text) : Bool := (Table.splitRow w).length = 1 && '\n' ∉ w

/-- The fence of a code block. -/
def fence (opts : Layout.Options) (info payload : Text) : Text :=
  let mark := if opts.fence = .backticks ∧ '`' ∈ info then '~' else opts.fence.mark
  List.replicate (max 3 (Layout.longestRun mark 0 0 payload + 1)) mark

/-- Whether the lines of a block without blocks inside are read back as that block. -/
def Leaf.isLaid (opts : Layout.Options) : Leaf → Bool
  | .paragraph u =>
    Text.trimMargin u = u && noTable (Text.splitOn '\n' u) &&
      match Text.splitOn '\n' u with
      | [] => false
      | s :: ss => startsParagraph s && ss.all continuesParagraph && !startsDefinition (s :: ss)
  | .heading level u =>
    Heading.read? (Layout.headingLine level u) = some (level, u) && '\n' ∉ Layout.headingLine level u
  | .code info payload =>
    '\n' ∉ info && (payload = [] || payload.getLast? = some '\n')
      && (Fence.open? (fence opts info payload ++ info)).any (fun f => f.info = info)
      && noTable ((Leaf.lines opts (.code info payload)).take 2)
  | .html v => holdsHtml (Text.splitOn '\n' v) && noTable ((Text.splitOn '\n' v).take 2)
  | .rule => true
  | .table aligns head rows =>
    head ≠ [] && head.length = aligns.length && head.all isCell
      && rows.all fun r => r.length = aligns.length && r.all isCell

section Leaves

variable {opts : Layout.Options}

/-- The lines `s` and `ss` are those of a paragraph laid out well. -/
structure ParagraphLaid (u s : Text) (ss : List Text) : Prop where
  lines : Text.splitOn '\n' u = s :: ss
  trimmed : Text.trimMargin u = u
  table : noTable (s :: ss)
  first : ParagraphStart s
  rest : ∀ t ∈ ss, continuesParagraph t
  definition : startsDefinition (s :: ss) = false

theorem isLaid_paragraph_iff {u : Text} : (Leaf.paragraph u).isLaid opts ↔ ∃ s ss, ParagraphLaid u s ss := by
  rw [Leaf.isLaid]
  cases hlines : Text.splitOn '\n' u with
  | nil => exact absurd hlines (Text.splitOn_ne_nil '\n' u)
  | cons s ss =>
    simp only [Bool.and_eq_true, decide_eq_true_eq, List.all_eq_true, Bool.not_eq_true', startsParagraph_iff]
    constructor
    · rintro ⟨⟨htrimmed, htable⟩, ⟨hfirst, hrest⟩, hdefinition⟩
      exact ⟨s, ss, hlines, htrimmed, htable, hfirst, hrest, hdefinition⟩
    · rintro ⟨s', ss', h⟩
      obtain ⟨rfl, rfl⟩ := List.cons.inj (hlines.symm.trans h.lines)
      exact ⟨⟨h.trimmed, h.table⟩, ⟨h.first, h.rest⟩, h.definition⟩

theorem isLaid_heading_iff {level : Nat} {u : Text} : (Leaf.heading level u).isLaid opts
    ↔ Heading.read? (Layout.headingLine level u) = some (level, u) ∧ '\n' ∉ Layout.headingLine level u := by
  simp only [Leaf.isLaid, Bool.and_eq_true, decide_eq_true_eq]

theorem lines_heading {level : Nat} {u : Text} (h : '\n' ∉ Layout.headingLine level u) :
    (Leaf.heading level u).lines opts = [Layout.headingLine level u] := Text.splitOn_of_notMem h

theorem lines_rule (h : opts.thematicBreak = "***".toList) : Leaf.rule.lines opts = ["***".toList] := by
  rw [Leaf.lines, Leaf.text, h]
  rfl

/-- A code block laid out well: its fence is opened with its info text, and its lines are all ended. -/
structure CodeLaid (opts : Layout.Options) (info payload : Text) : Prop where
  line : '\n' ∉ info
  ended : payload = [] ∨ payload.getLast? = some '\n'
  opens : (Fence.open? (fence opts info payload ++ info)).any fun f => f.info = info
  table : noTable ((Leaf.lines opts (.code info payload)).take 2)

theorem isLaid_code_iff {info payload : Text} : (Leaf.code info payload).isLaid opts ↔ CodeLaid opts info payload := by
  simp only [Leaf.isLaid, Bool.and_eq_true, Bool.or_eq_true, decide_eq_true_eq]
  constructor
  · rintro ⟨⟨⟨hline, hended⟩, hopens⟩, htable⟩
    exact ⟨hline, hended, hopens, htable⟩
  · rintro ⟨hline, hended, hopens, htable⟩
    exact ⟨⟨⟨hline, hended⟩, hopens⟩, htable⟩

/-- The lines `s` and `ss` are those of an HTML block of kind `k` laid out well: it ends after the last of them. -/
structure HtmlLaid (v s : Text) (ss : List Text) (k : HtmlBlock.Kind) : Prop where
  lines : Text.splitOn '\n' v = s :: ss
  flush : flush s
  kind : HtmlBlock.kind? s = some k
  ends : if endsByMark k then endsOnLast k (s :: ss) else ss.all fun t => !blank t
  table : noTable ((s :: ss).take 2)

theorem isLaid_html_iff {v : Text} : (Leaf.html v).isLaid opts ↔ ∃ s ss k, HtmlLaid v s ss k := by
  rw [Leaf.isLaid]
  cases hlines : Text.splitOn '\n' v with
  | nil => exact absurd hlines (Text.splitOn_ne_nil '\n' v)
  | cons s ss =>
    simp only [holdsHtml, Bool.and_eq_true]
    constructor
    · rintro ⟨⟨hflush, hends⟩, htable⟩
      cases hkind : HtmlBlock.kind? s with
      | none => simp [hkind] at hends
      | some k => exact ⟨s, ss, k, hlines, hflush, hkind, by simpa [hkind] using hends, htable⟩
    · rintro ⟨s', ss', k, h⟩
      obtain ⟨rfl, rfl⟩ := List.cons.inj (hlines.symm.trans h.lines)
      exact ⟨⟨h.flush, by simpa [h.kind] using h.ends⟩, h.table⟩

/-- A table laid out well: its rows have as many cells as it has columns, and each of them is one. -/
structure TableLaid (aligns : List Table.Align) (head : List Text) (rows : List (List Text)) : Prop where
  ne_nil : head ≠ []
  length_head : head.length = aligns.length
  head : ∀ w ∈ head, isCell w
  length_row : ∀ r ∈ rows, r.length = aligns.length
  row : ∀ r ∈ rows, ∀ w ∈ r, isCell w

theorem isLaid_table_iff {aligns : List Table.Align} {head : List Text} {rows : List (List Text)} :
    (Leaf.table aligns head rows).isLaid opts ↔ TableLaid aligns head rows := by
  simp only [Leaf.isLaid, Bool.and_eq_true, decide_eq_true_eq, List.all_eq_true]
  constructor
  · rintro ⟨⟨⟨hne, hlength⟩, hhead⟩, hrows⟩
    exact ⟨hne, hlength, hhead, fun r hr => (hrows r hr).1, fun r hr => (hrows r hr).2⟩
  · rintro ⟨hne, hlength, hhead, hlengths, hrows⟩
    exact ⟨⟨⟨hne, hlength⟩, hhead⟩, fun r hr => ⟨hlengths r hr, hrows r hr⟩⟩

end Leaves

/-- Whether a block ends by itself, whatever comes after it. -/
def Leaf.isClosed : Leaf → Bool
  | .heading .. | .code .. | .rule => true
  | .html v => ((Text.splitOn '\n' v).head?.bind HtmlBlock.kind?).any endsByMark
  | .paragraph _ | .table .. => false

/-- Whether a block may be followed by a line of another one without an empty line between them. -/
def Leaf.admits (l : Leaf) (f : Text) : Bool :=
  noDelimiter f && match l with
    | .paragraph _ => breaksParagraph f
    | l => l.isClosed

-- ---------------------------------------------------------------------------
-- Neighbours
-- ---------------------------------------------------------------------------

/-- Whether one list goes on with the items of another. -/
def continuesList : Block → Block → Bool
  | .list mark _ (.mk digits _ :: _), .list mark' _ (.mk digits' _ :: _) =>
    mark = mark' && (decide (digits = []) == decide (digits' = []))
  | _, _ => false

/-- The same for any block. -/
def Block.admits : Block → Text → Bool
  | .leaf l, f => l.admits f
  | _, _ => false

/-- Whether neighbouring blocks are told apart. -/
def areSeparate (opts : Layout.Options) (tight : Bool) : List Block → Bool
  | b :: c :: bs =>
    (if tight then b.admits (c.firstLine opts) else !continuesList b c) && areSeparate opts tight (c :: bs)
  | _ => true

/-- Whether some block is a paragraph. -/
def hasParagraph (bs : List Block) : Bool :=
  bs.any fun b => match b with
    | .leaf (.paragraph _) => true
    | _ => false

/-- The blocks of an item. -/
def Item.blocks : Item → List Block
  | .mk _ bs => bs

/-- The digits of an item. -/
def Item.digits : Item → Text
  | .mk digits _ => digits

/-- Whether the items of a list have an empty line between them or inside, and a paragraph that shows it. -/
def isLoose (its : List Item) : Bool :=
  (decide (2 ≤ its.length) || its.any fun it => decide (2 ≤ it.blocks.length))
    && its.any fun it => hasParagraph it.blocks

/-- Whether a marker is one. -/
def isMarker (digits : Text) (mark : Char) : Bool :=
  if digits = [] then mark = '*' || mark = '-' || mark = '+'
  else (mark = '.' || mark = ')') && digits.length ≤ 9 && digits.all Char.isDigit

/-- A marker is a bullet, or a number and the character that closes it. -/
inductive IsMarker : Text → Char → Prop
  | bullet {mark : Char} (hmark : mark = '*' ∨ mark = '-' ∨ mark = '+') : IsMarker [] mark
  | number {digits : Text} {mark : Char} (hne : digits ≠ []) (hmark : mark = '.' ∨ mark = ')')
    (hlength : digits.length ≤ 9) (hdigits : ∀ c ∈ digits, c.isDigit) : IsMarker digits mark

theorem isMarker_iff {digits : Text} {mark : Char} : isMarker digits mark ↔ IsMarker digits mark := by
  unfold isMarker
  constructor
  · intro h
    split at h
    · next hd =>
      simp only [Bool.or_eq_true, decide_eq_true_eq, or_assoc] at h
      exact hd ▸ .bullet h
    · next hd =>
      simp only [Bool.and_eq_true, Bool.or_eq_true, decide_eq_true_eq, List.all_eq_true] at h
      exact .number hd h.1.1 h.1.2 h.2
  · rintro (hmark | ⟨hne, hmark, hlength, hdigits⟩)
    · simpa [or_assoc] using hmark
    · rw [if_neg hne]
      simp [hmark, hlength, List.all_eq_true.2 hdigits]

-- ---------------------------------------------------------------------------
-- Blocks
-- ---------------------------------------------------------------------------

mutual
/-- Whether the lines of a block are read back as that block at a depth of containers. -/
def Block.isLaid (opts : Layout.Options) (depth : Nat) : Block → Bool
  | .leaf l => decide (depth < Block.maxDepth) && l.isLaid opts
  | .quote bs =>
    decide (depth < Block.maxDepth) && bs ≠ [] && areSeparate opts false bs && areLaid opts (depth + 1) bs
  | .list mark tight its =>
    decide (depth < Block.maxDepth) && its ≠ [] && (tight || isLoose its)
      && noTable ((spread (gapLines tight) (itemGroups opts mark tight its)).take 2)
      && itemsLaid opts (depth + 2) mark tight ((its.map Item.digits).head? = some []) its
termination_by structural b => b

/-- Whether the lines of blocks are read back one by one. -/
def areLaid (opts : Layout.Options) (depth : Nat) : List Block → Bool
  | [] => true
  | b :: bs => b.isLaid opts depth && areLaid opts depth bs
termination_by structural bs => bs

/-- Whether the lines of an item are read back as that item, among bullets or among numbers. -/
def Item.isLaid (opts : Layout.Options) (depth : Nat) (mark : Char) (tight bullet : Bool) : Item → Bool
  | .mk digits bs =>
    bs ≠ [] && isMarker digits mark && (decide (digits = []) == bullet) && areSeparate opts tight bs
      && (thematicBreak? ((itemLines opts (digits ++ [mark])
        (spread (gapLines tight) (groups opts bs))).headD [])).isNone
      && areLaid opts depth bs
termination_by structural it => it

/-- Whether the lines of items are read back one by one. -/
def itemsLaid (opts : Layout.Options) (depth : Nat) (mark : Char) (tight bullet : Bool) : List Item → Bool
  | [] => true
  | it :: its => it.isLaid opts depth mark tight bullet && itemsLaid opts depth mark tight bullet its
termination_by structural its => its
end

section Blocks

variable {opts : Layout.Options} {depth : Nat} {mark : Char} {tight bullet : Bool}

theorem isLaid_leaf_iff {l : Leaf} :
    (Block.leaf l).isLaid opts depth ↔ depth < Block.maxDepth ∧ l.isLaid opts := by
  simp only [Block.isLaid, Bool.and_eq_true, decide_eq_true_eq]

theorem areLaid_cons_iff {b : Block} {bs : List Block} :
    areLaid opts depth (b :: bs) ↔ b.isLaid opts depth ∧ areLaid opts depth bs := by
  rw [areLaid, Bool.and_eq_true]

theorem itemsLaid_cons_iff {it : Item} {its : List Item} : itemsLaid opts depth mark tight bullet (it :: its)
    ↔ it.isLaid opts depth mark tight bullet ∧ itemsLaid opts depth mark tight bullet its := by
  rw [itemsLaid, Bool.and_eq_true]

/-- A quote laid out well holds blocks that are told apart and laid out well. -/
structure QuoteLaid (opts : Layout.Options) (depth : Nat) (bs : List Block) : Prop where
  depth_lt : depth < Block.maxDepth
  ne_nil : bs ≠ []
  separate : areSeparate opts false bs
  blocks : areLaid opts (depth + 1) bs

theorem isLaid_quote_iff {bs : List Block} : (Block.quote bs).isLaid opts depth ↔ QuoteLaid opts depth bs := by
  simp only [Block.isLaid, Bool.and_eq_true, decide_eq_true_eq]
  constructor
  · rintro ⟨⟨⟨hdepth, hne⟩, hseparate⟩, hblocks⟩
    exact ⟨hdepth, hne, hseparate, hblocks⟩
  · rintro ⟨hdepth, hne, hseparate, hblocks⟩
    exact ⟨⟨⟨hdepth, hne⟩, hseparate⟩, hblocks⟩

/-- A list laid out well holds items of one kind, and shows by its lines whether it is tight. -/
structure ListLaid (opts : Layout.Options) (depth : Nat) (mark : Char) (tight : Bool) (its : List Item) : Prop where
  depth_lt : depth < Block.maxDepth
  ne_nil : its ≠ []
  loose : tight || isLoose its
  table : noTable ((spread (gapLines tight) (itemGroups opts mark tight its)).take 2)
  items : itemsLaid opts (depth + 2) mark tight ((its.map Item.digits).head? = some []) its

theorem isLaid_list_iff {its : List Item} :
    (Block.list mark tight its).isLaid opts depth ↔ ListLaid opts depth mark tight its := by
  rw [Block.isLaid]
  simp only [Bool.and_eq_true, decide_eq_true_eq]
  constructor
  · rintro ⟨⟨⟨⟨hdepth, hne⟩, hloose⟩, htable⟩, hitems⟩
    exact ⟨hdepth, hne, hloose, htable, hitems⟩
  · rintro ⟨hdepth, hne, hloose, htable, hitems⟩
    exact ⟨⟨⟨⟨hdepth, hne⟩, hloose⟩, htable⟩, hitems⟩

/-- An item laid out well has a marker that is one, and its first line is no thematic break. -/
structure ItemLaid (opts : Layout.Options) (depth : Nat) (mark : Char) (tight bullet : Bool) (digits : Text)
    (bs : List Block) : Prop where
  ne_nil : bs ≠ []
  marker : isMarker digits mark
  bullet : decide (digits = []) = bullet
  separate : areSeparate opts tight bs
  rule : thematicBreak? (((Item.mk digits bs).lines opts mark tight).headD []) = none
  blocks : areLaid opts depth bs

theorem isLaid_item_iff {digits : Text} {bs : List Block} :
    (Item.mk digits bs).isLaid opts depth mark tight bullet ↔ ItemLaid opts depth mark tight bullet digits bs := by
  simp only [Item.isLaid, Bool.and_eq_true, decide_eq_true_eq, beq_iff_eq, Option.isNone_iff_eq_none]
  constructor
  · rintro ⟨⟨⟨⟨⟨hne, hmarker⟩, hbullet⟩, hseparate⟩, hrule⟩, hblocks⟩
    exact ⟨hne, hmarker, hbullet, hseparate, by rwa [Item.lines], hblocks⟩
  · rintro ⟨hne, hmarker, hbullet, hseparate, hrule, hblocks⟩
    exact ⟨⟨⟨⟨⟨hne, hmarker⟩, hbullet⟩, hseparate⟩, by rwa [Item.lines] at hrule⟩, hblocks⟩

end Blocks

end Outline
end MdxSafe
