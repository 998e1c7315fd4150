-- SUMMARY: The line of a heading is read back as its level and its text, whatever number signs the text ends in.
import MdxSafe.Layout.Block
import MdxSafe.Markdown.Heading
import MdxSafe.Proofs.Text.Trim

/-!
# Reading the line of a heading back

`Heading.readLine?` follows the rule for headings that start with number signs on a line of its own. The layout adds a
closing number sign just if the text ends in a run of them that the rule would take off (`endsInHashRun`). Then the
rule takes off the sign that was added, and else nothing.
-/

namespace MdxSafe

-- ---------------------------------------------------------------------------
-- The rule
-- ---------------------------------------------------------------------------

namespace Heading

/-- The level and the text of a heading: one to six number signs that a blank or nothing follows, then the text without
the run of number signs that ends it after a space or tab. -/
def readLine? (l : Text) : Option (Nat × Text) :=
  let marks := l.takeWhile (· = '#')
  let rest := l.dropWhile (· = '#')
  if 1 ≤ marks.length ∧ marks.length ≤ 6 ∧ rest.head?.all isIndent then
    some (marks.length, Text.trimBlank (dropClosing (Text.trimBlank rest)))
  else none

variable {t : Text} {level : Nat}

theorem readLine?_replicate (hlevel : 1 ≤ level ∧ level ≤ 6) : readLine? (List.replicate level '#') = some (level, []) := by
  simp [readLine?, hlevel]
  rfl

/-- What the rule and the language make of a line that starts with number signs, a space and a text. -/
theorem readLine?_marks (hlevel : 1 ≤ level ∧ level ≤ 6) (t : Text) :
    readLine? (List.replicate level '#' ++ ' ' :: t)
      = some (level, Text.trimBlank (dropClosing (Text.trimBlank (' ' :: t)))) := by
  have hmarks : ∀ c ∈ List.replicate level '#', decide (c = '#') = true := fun c hc =>
    decide_eq_true (List.eq_of_mem_replicate hc)
  simp [readLine?, List.takeWhile_append_of_pos hmarks, List.dropWhile_append_of_pos hmarks, hlevel, isIndent]

theorem read?_replicate (hlevel : 1 ≤ level ∧ level ≤ 6) : read? (List.replicate level '#') = some (level, []) := by
  simp [read?, hlevel]
  rfl

theorem read?_marks (hlevel : 1 ≤ level ∧ level ≤ 6) (t : Text) :
    read? (List.replicate level '#' ++ ' ' :: t) = some (level, Text.trimMargin (dropClosing (' ' :: t))) := by
  have hmarks : ∀ c ∈ List.replicate level '#', decide (c = '#') = true := fun c hc =>
    decide_eq_true (List.eq_of_mem_replicate hc)
  simp [read?, List.takeWhile_append_of_pos hmarks, hlevel, isIndent]

/-- From a text that ends with no blank, a run of number signs is dropped if a blank is before it. -/
theorem dropClosing_eq (h : t.getLast?.any isIndent = false) :
    dropClosing t = if (Text.trimRight (· = '#') t).getLast?.any isIndent then Text.trimRight (· = '#') t else t := by
  have hself : Text.trimRight isIndent t = t := by
    rcases List.eq_nil_or_concat t with rfl | ⟨u, c, rfl⟩
    · rfl
    · have hc : isIndent c = false := by simpa using h
      simp [Text.trimRight, hc]
  rw [dropClosing, hself]
  cases hlast : (Text.trimRight (· = '#') t).getLast? with
  | none => rfl
  | some c => rfl

end Heading

-- ---------------------------------------------------------------------------
-- The layout
-- ---------------------------------------------------------------------------

namespace Layout

open Heading

variable {t : Text} {level : Nat}

/-- The text of a heading as it is written: a number sign is added if a run of them would be taken off its end. -/
def closed (t : Text) : Text := if endsInHashRun t then t ++ [' ', '#'] else t

theorem headingLine_eq (level : Nat) {u : Text} (hu : Text.trimBlank u = t) :
    headingLine level u = List.replicate level '#' ++ if t = [] then [] else ' ' :: closed t := by
  have hnil : closed t = [] ↔ t = [] := by
    rw [closed]
    split
    · next h =>
      refine ⟨fun h => absurd h (by simp), ?_⟩
      rintro rfl
      exact absurd h (by decide)
    · rfl
  have hclosed : (if endsInHashRun t then t ++ " #".toList else t) = closed t := rfl
  simp only [headingLine, hu, hclosed, hnil, Int.toNat_natCast]

/-- Whatever stands before it, just the sign that was added is taken off again; the blank before it stays. -/
theorem dropClosing_closed (w : Text) (hne : t ≠ []) (hlast : t.getLast?.any isIndent = false) :
    dropClosing (w ++ closed t) = w ++ (t ++ if endsInHashRun t then [' '] else []) := by
  rw [closed]
  split
  · have hsigns : Text.trimRight (· = '#') (w ++ (t ++ [' ', '#'])) = w ++ (t ++ [' ']) := by
      rw [← List.append_assoc, Text.trimRight_append, if_neg (by decide)]
      exact List.append_assoc w t [' ']
    rw [dropClosing_eq (by simp [isIndent]), hsigns, if_pos (by simp [isIndent])]
  · next h =>
    have hrun : (Text.trimRight (· = '#') t).length < t.length →
        ¬ (Text.trimRight (· = '#') t).getLast?.all isIndent := fun hlt hall => h (by simp [endsInHashRun, hlt, hall])
    have hsigns : Text.trimRight (· = '#') t ≠ [] := fun hnil =>
      hrun (by rw [hnil]; exact List.length_pos_iff.2 hne) (by rw [hnil]; rfl)
    have hkept : (Text.trimRight (· = '#') t).getLast?.any isIndent = false := by
      by_cases hlt : (Text.trimRight (· = '#') t).length < t.length
      · cases hget : (Text.trimRight (· = '#') t).getLast? with
        | none => rfl
        | some c => simpa [hget] using hrun hlt
      · -- the text ends in no number sign
        have hself : Text.trimRight (· = '#') t = t :=
          (List.rdropWhile_prefix (fun c => decide (c = '#')) (l := t)).eq_of_length_le (Nat.not_lt.1 hlt)
        rwa [hself]
    rw [dropClosing_eq (by rwa [List.getLast?_append_of_ne_nil _ hne]), Text.trimRight_append, if_neg hsigns,
      List.getLast?_append_of_ne_nil _ hsigns, hkept, if_neg (by simp), List.append_nil]

theorem trim_closed {p : Char → Bool} (hblank : ∀ c, p c = true → isBlank c = true) (hspace : p ' ' = true) (u : Text) :
    Text.trim p (Text.trimBlank u ++ if endsInHashRun (Text.trimBlank u) then [' '] else []) = Text.trimBlank u := by
  have hself : Text.trim p (Text.trimBlank u) = Text.trimBlank u := Text.trim_trim_of_imp hblank u
  split
  · rw [Text.trim_concat hspace, hself]
  · rw [List.append_nil, hself]

/-- The rule and the language read the level and the text of a heading from its line. -/
theorem readLine?_headingLine (hlevel : 1 ≤ level ∧ level ≤ 6) (u : Text) :
    readLine? (headingLine level u) = some (level, Text.trimBlank u)
      ∧ read? (headingLine level u) = some (level, Text.trimBlank u) := by
  rw [headingLine_eq level rfl]
  by_cases hne : Text.trimBlank u = []
  · rw [if_pos hne, List.append_nil, hne]
    exact ⟨readLine?_replicate hlevel, read?_replicate hlevel⟩
  obtain ⟨⟨c, hhead, hc⟩, d, hlast, hd⟩ := Text.ends_of_trim hne
  have hindent : (Text.trimBlank u).getLast?.any isIndent = false := by
    rw [Text.trimBlank, hlast, Option.any_some]
    by_contra h
    have := isBlank_of_isMargin (isMargin_of_isIndent (by simpa using h))
    rw [hd] at this
    cases this
  have htrim : Text.trimBlank (' ' :: closed (Text.trimBlank u)) = closed (Text.trimBlank u) := by
    rw [Text.trimBlank, Text.trim_cons (by decide), closed]
    split
    · refine Text.trim_eq_self (c := c) ?_ hc (d := '#') (by simp) (by decide)
      rwa [List.head?_append_of_ne_nil _ hne]
    · exact Text.trim_eq_self hhead hc hlast hd
  rw [if_neg hne]
  constructor
  · have hrule := dropClosing_closed [] hne hindent
    rw [List.nil_append, List.nil_append] at hrule
    rw [readLine?_marks hlevel, htrim, hrule]
    exact congrArg (fun t => some (level, t)) (trim_closed (fun _ => id) (by decide) u)
  · have hrule := dropClosing_closed [' '] hne hindent
    rw [List.singleton_append, List.singleton_append] at hrule
    rw [read?_marks hlevel, hrule, Text.trimMargin, Text.trim_cons (by decide)]
    exact congrArg (fun t => some (level, t)) (trim_closed (fun _ => isBlank_of_isMargin) (by decide) u)

theorem block_of_heading {opts : Options} {n : Node} (hkind : n.kind = .heading)
    (hattr : intAttr n "level" 1 = .ok level) :
    block opts n = .ok (headingLine level (inlines { inHeading := true } n.children)) := by
  obtain ⟨kind, value, url, title, markup, info, attrs, children⟩ := n
  cases hkind
  simp only [block, hattr]
  rfl

/-- The line of a heading of level one to six is read as that level and the text of the heading without the blanks at
its ends, by the rule for such lines and by the language. -/
theorem read?_block_of_heading {opts : Options} {n : Node} (hkind : n.kind = .heading)
    (hattr : intAttr n "level" 1 = .ok level) (hlevel : 1 ≤ level ∧ level ≤ 6) :
    ∃ line, block opts n = .ok line
      ∧ readLine? line = some (level, Text.trimBlank (inlines { inHeading := true } n.children))
      ∧ read? line = some (level, Text.trimBlank (inlines { inHeading := true } n.children)) :=
  ⟨_, block_of_heading hkind hattr, readLine?_headingLine hlevel _⟩

/-- A text of number signs alone that ends in two runs of them, with a tab between. -/
theorem read?_block_of_heading_sample :
    let text : Node := { kind := .text, value := some "## #\t##".toList }
    ∃ line, block {} { kind := .heading, attrs := [("level".toList, .int 2)], children := [text] } = .ok line
      ∧ readLine? line = some (2, "## #\t##".toList) ∧ read? line = some (2, "## #\t##".toList) :=
  read?_block_of_heading rfl rfl (by decide)

end Layout
end MdxSafe
