-- SUMMARY: When reading a document and writing it again twice gives the same text as doing so once.
import MdxSafe.Proofs.Outcome
import MdxSafe.Proofs.Outline.Rewritten
import MdxSafe.Proofs.Tree.Page

/-!
# Round trips

A round trip reads a text and writes the tree again. What comes out has an outline, and if that is laid, the next
round trip is that of the outline: every running text and every definition is read and written on its own.
-/

namespace MdxSafe

open Outline

/-- A text read and written again, if it can be. -/
def roundTrip (t : Text) : Option Text := do
  let tree ← (Node.parse t).toOption
  (Layout.render {} tree).toOption

/-- The outline of the tree that a text is read as. -/
def outlineOf? (t : Text) : Option Page := do
  let tree ← (Node.parse t).toOption
  Page.ofTree? tree

theorem roundTrip_eq {t : Text} {p : Page} (h : outlineOf? t = some p) : roundTrip t = some (p.text {}) := by
  simp only [outlineOf?, Option.bind_eq_bind, Option.bind_eq_some_iff] at h
  obtain ⟨tree, hparse, htree⟩ := h
  simp only [roundTrip, Option.bind_eq_bind, hparse, Option.bind_some, render_of_ofTree? htree]
  rfl

/-- The next round trip of a laid document writes all its running text and its definitions anew. -/
theorem roundTrip_text {p : Page} (h : p.isLaid {}) : roundTrip (p.text {}) = some (p.rewritten.text {}) := by
  refine roundTrip_eq ?_
  have hparse := Node.parse_page Layout.Options.readable_default h
  have htree := ofTree?_tree Layout.Options.readable_default h
  rw [outlineOf?, hparse]
  exact htree

/-- A text that is written as a laid document comes back as it was written, just if that document, with all its
running text and its definitions read and written on their own, has the same text again. -/
theorem roundTrip_fixed_iff {t : Text} {p : Page} (hp : outlineOf? t = some p) (hlaid : p.isLaid {}) :
    roundTrip t = some (p.text {}) ∧ (roundTrip (p.text {}) = some (p.text {}) ↔ p.rewritten.text {} = p.text {}) := by
  refine ⟨roundTrip_eq hp, ?_⟩
  rw [roundTrip_text hlaid, Option.some.injEq]

/-- Nested lists, a quote, a table and a definition come back as they were written. -/
theorem roundTrip_fixed_sample :
    ∃ p, outlineOf? "a\n===\n\n1. b\n   > c **d**\n2. e\n\n|f|g|\n|-|:-|\n|h|`i`|\n\n[j]: /k 'l'\n" = some p
      ∧ p.isLaid {} ∧ roundTrip (p.text {}) = some (p.text {}) := by
  have h : (outlineOf? "a\n===\n\n1. b\n   > c **d**\n2. e\n\n|f|g|\n|-|:-|\n|h|`i`|\n\n[j]: /k 'l'\n").any
      (fun p => p.isLaid {} && decide (p.rewritten.text {} = p.text {})) := by
    decide +kernel
  obtain ⟨p, hp, hcond⟩ := (Option.any_eq_true _ _).1 h
  simp only [Bool.and_eq_true, decide_eq_true_eq] at hcond
  obtain ⟨hlaid, hfixed⟩ := hcond
  exact ⟨p, hp, hlaid, (roundTrip_fixed_iff hp hlaid).2.2 hfixed⟩

/-- A reference in a link target is resolved once on each round trip. -/
theorem roundTrip_moves : roundTrip "[a](&amp;amp;)\n" = some "[a](&amp;)\n".toList
    ∧ roundTrip "[a](&amp;)\n" = some "[a](&)\n".toList := by
  decide +kernel

end MdxSafe
