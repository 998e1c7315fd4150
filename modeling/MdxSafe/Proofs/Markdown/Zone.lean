-- SUMMARY: What the lines of a zone start and interrupt, by what they show at its left edge.
import MdxSafe.Proofs.Markdown.Line
import MdxSafe.Proofs.Outline.Laid

/-!
# Lines of a zone

A zone shows a text on a line if the line shows it right of the left edge of the zone. For a text that
stands flush at the edge, every question of the reader about the line becomes a question about that text.
-/

namespace MdxSafe.Block.Zone

/-- The zone shows a text on a line. -/
def Shows (z : Zone) (i : Nat) (s : Text) : Prop := 0 ≤ z.edge ∧ (z.line i).Shows z.edge.toNat s

namespace Shows

variable {z : Zone} {i : Nat} {s : Text}

theorem content_eq (h : z.Shows i s) : z.content i = afterIndent s := h.2.content_eq

theorem isEmpty_eq (h : z.Shows i s) : z.isEmpty i = blank s := h.2.isEmpty_eq

theorem isCutOff_eq (h : z.Shows i s) : (z.line i).isCutOff = false := h.2.isCutOff_eq

theorem ended_eq (h : z.Shows i s) : (z.line i).ended = true := h.2.1

theorem ending_eq (h : z.Shows i s) : (z.line i).ending = ['\n'] := h.2.ending_eq

theorem unindent_eq (h : z.Shows i s) : (z.line i).unindent z.edge = s := by
  have := h.2.unindent_eq
  rwa [Int.toNat_of_nonneg h.1] at this

theorem isOutside_eq (h : z.Shows i s) (hs : s ≠ []) : z.isOutside i = false := by
  have := h.2.le_indent hs
  have := h.1
  refine decide_eq_false ?_
  simp only [indent]
  omega

/-- A line lies within the line array. -/
theorem lt_size (h : z.Shows i s) : i < z.lines.size := by
  by_contra hi
  have hline : z.line i = {} := by simp [line, Array.getD, hi]
  have := h.ended_eq
  rw [hline] at this
  cases this

variable (hs : flush s)

include hs

theorem indent_eq (h : z.Shows i s) : z.indent i = z.edge := by
  have := h.2.indent_eq hs
  have := h.1
  simp only [indent]
  omega

theorem isEmpty_eq_false (h : z.Shows i s) : z.isEmpty i = false :=
  h.isEmpty_eq.trans (blank_eq_false_of_flush hs)

theorem isCode_eq (h : z.Shows i s) : z.isCode i = false := by
  simp [isCode, h.indent_eq hs]

theorem isLazy_eq (h : z.Shows i s) : z.isLazy i = false := by
  simp [isLazy, h.indent_eq hs, h.1]

theorem content_eq_self (h : z.Shows i s) : z.content i = s :=
  h.content_eq.trans (afterIndent_of_flush hs)

theorem fence?_eq (h : z.Shows i s) : z.fence? i = Fence.open? s := by
  simp [fence?, h.isCode_eq hs, h.content_eq_self hs]

theorem isQuote_eq (h : z.Shows i s) : z.isQuote i = decide (s.head? = some '>') := by
  simp [isQuote, h.isCode_eq hs, h.content_eq_self hs]

theorem break?_eq (h : z.Shows i s) : z.break? i = thematicBreak? s := by
  simp [break?, h.isCode_eq hs, h.content_eq_self hs]

theorem html?_eq (h : z.Shows i s) : z.html? i = HtmlBlock.kind? s := by
  simp [html?, h.isCode_eq hs, h.content_eq_self hs]

theorem heading?_eq (h : z.Shows i s) : z.heading? i = Heading.read? s := by
  simp [heading?, h.isCode_eq hs, h.content_eq_self hs]

theorem marker?_eq (h : z.Shows i s) : z.marker? i = ListMarker.read? s := by
  have hout := h.isOutside_eq (ne_nil_of_flush hs)
  simp only [marker?, h.isCode_eq hs, h.content_eq_self hs, hout, Bool.and_false]
  cases z.listEdge <;> simp

theorem startsFirmList_eq (h : z.Shows i s) : z.startsFirmList i = Outline.startsFirmItem s := by
  have hmarker := h.marker?_eq hs
  cases hread : ListMarker.read? s with
  | none => simp only [startsFirmList, Outline.startsFirmItem, hmarker, hread]
  | some m => simp only [startsFirmList, Outline.startsFirmItem, hmarker, hread, h.content_eq_self hs]

/-- A paragraph is interrupted by the head of a table and by what a line by itself interrupts. -/
theorem interrupts_paragraph_eq (h : z.Shows i s) (stop : Nat) :
    z.interrupts .paragraph i stop = ((z.tableHead? i stop).isSome || Outline.interrupts s) := by
  have hout := h.isOutside_eq (ne_nil_of_flush hs)
  have hlist : (Open.paragraph != Open.list) = true := rfl
  simp [interrupts, Outline.interrupts, h.fence?_eq hs, h.isQuote_eq hs, h.break?_eq hs, h.html?_eq hs,
    h.heading?_eq hs, h.startsFirmList_eq hs, hout, hlist, Bool.or_assoc]

theorem interrupts_definition_eq (h : z.Shows i s) (stop : Nat) :
    z.interrupts .definition i stop = ((z.tableHead? i stop).isSome || Outline.breaksDefinition s) := by
  have hlist : (Open.definition != Open.list) = true := rfl
  have hfirm : (ListMarker.read? s).isNone → Outline.startsFirmItem s = false := by
    intro hnone
    rw [Option.isNone_iff_eq_none] at hnone
    simp only [Outline.startsFirmItem, hnone]
  have hparagraph : (Open.definition = .paragraph) = False := by simp
  simp only [interrupts, Outline.breaksDefinition, Outline.interrupts, h.fence?_eq hs, h.isQuote_eq hs, h.break?_eq hs,
    h.html?_eq hs, h.heading?_eq hs, h.marker?_eq hs, hlist, hparagraph]
  cases hmarker : ListMarker.read? s with
  | none =>
    rw [hmarker] at hfirm
    simp [hfirm rfl, Bool.or_assoc]
  | some m => simp

theorem interrupts_list_eq (h : z.Shows i s) (stop : Nat) :
    z.interrupts .list i stop
      = ((Fence.open? s).isSome || decide (s.head? = some '>') || (thematicBreak? s).isSome) := by
  simp [interrupts, h.fence?_eq hs, h.isQuote_eq hs, h.break?_eq hs]

end Shows

-- ---------------------------------------------------------------------------
-- Heads of tables
-- ---------------------------------------------------------------------------

theorem tableHead?_eq_none_of_stop {z : Zone} {i stop : Nat} (h : stop < i + 2) : z.tableHead? i stop = none := by
  simp [tableHead?, h]

theorem tableHead?_eq_none_of_outside {z : Zone} {i stop : Nat} (h : z.isOutside (i + 1)) :
    z.tableHead? i stop = none := by
  simp [tableHead?, h]

theorem tableHead?_eq_none {z : Zone} {i stop : Nat} {s t : Text} (hs : z.Shows i s) (ht : z.Shows (i + 1) t)
    (h : Table.head? (afterIndent s) (afterIndent t) = none) : z.tableHead? i stop = none := by
  rw [tableHead?, hs.content_eq, ht.content_eq, h, ite_self]

end MdxSafe.Block.Zone

namespace MdxSafe.Table

theorem head?_eq_none {s t : Text} (h : aligns? t = none) : head? s t = none := by
  simp [head?, h]

theorem aligns?_nil : aligns? [] = none := rfl

end MdxSafe.Table
