-- SUMMARY: The text of running text, kind by kind.
import MdxSafe.Layout.Inline

/-!
# Texts of running text

The text of a node of running text by its kind.
-/

namespace MdxSafe.Layout

variable {n : Node}

theorem inline_of_marked (p : Place) (hkind : n.kind = .emphasis ∨ n.kind = .strong ∨ n.kind = .delete) :
    inline p n = emphasisMark n ++ inlines p n.children ++ emphasisMark n := by
  obtain ⟨kind, value, url, title, markup, info, attrs, children⟩ := n
  rcases hkind with h | h | h <;> cases h <;> rfl

theorem inline_of_link (p : Place) (hkind : n.kind = .link) : inline p n = link p n (inlines p n.children) := by
  obtain ⟨kind, value, url, title, markup, info, attrs, children⟩ := n
  cases hkind
  rfl

theorem inline_of_image (p : Place) (hkind : n.kind = .image) : inline p n = image p n (inlines p n.children) := by
  obtain ⟨kind, value, url, title, markup, info, attrs, children⟩ := n
  cases hkind
  rfl

theorem inline_of_code (p : Place) (hkind : n.kind = .inlineCode) : inline p n = codeSpan p n := by
  obtain ⟨kind, value, url, title, markup, info, attrs, children⟩ := n
  cases hkind
  rfl

theorem inline_of_payload (p : Place) (hkind : n.kind = .text ∨ n.kind = .html) :
    inline p n = p.escapePipes n.payload := by
  obtain ⟨kind, value, url, title, markup, info, attrs, children⟩ := n
  rcases hkind with h | h <;> cases h <;> rfl

theorem inline_of_escape (p : Place) (hkind : n.kind = .escape) : inline p n = n.payload := by
  obtain ⟨kind, value, url, title, markup, info, attrs, children⟩ := n
  cases hkind
  rfl

theorem inline_inHeading_of_break (hkind : n.kind = .softBreak ∨ n.kind = .hardBreak) :
    inline { inHeading := true } n = [' '] := by
  obtain ⟨kind, value, url, title, markup, info, attrs, children⟩ := n
  rcases hkind with h | h <;> cases h <;> rfl

/-- The marks of emphasis are written as they are; where there are none, asterisks or tildes stand for them. -/
theorem notMem_emphasisMark {c : Char} (hc : c ∉ ['*', '~']) (h : c ∉ n.markup) : c ∉ emphasisMark n := by
  simp only [List.mem_cons, List.not_mem_nil, or_false, not_or] at hc
  rw [emphasisMark]
  split
  · exact h
  · split <;> simp [hc]

end MdxSafe.Layout
