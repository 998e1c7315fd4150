-- SUMMARY: Where the line of a heading breaks: in inline HTML and in titles, and nowhere else.
import MdxSafe.Proofs.Layout.Heading
import MdxSafe.Proofs.Layout.Inline
import MdxSafe.Proofs.Text.Search
import MdxSafe.Proofs.Tree.Place

/-!
# Line breaks in headings

In a heading soft and hard breaks are written as spaces, but payloads and titles are written as they are. `IsTame` says
of running text that line breaks stand nowhere but in the payloads of HTML and in titles. For such text the line of a
heading holds a line break just if one of these does (`mem_headingLine_iff`). Trimming takes none of them away, as HTML
stands between angle brackets and a title between quotes.
-/

namespace MdxSafe

-- ---------------------------------------------------------------------------
-- Running text
-- ---------------------------------------------------------------------------

namespace Node

/-- Whether a node is HTML with a line break in its payload, or a link or an image with one in its title. -/
def holdsBreak (n : Node) : Bool :=
  match n.kind with
  | .html => '\n' ∈ n.payload
  | .link | .image => '\n' ∈ n.title.getD []
  | _ => false

/-- Running text whose payloads, markup and targets hold no line break, apart from HTML, from the text that an autolink
shows, and, if `deep` holds, from texts. -/
inductive IsTame (deep : Prop) : Node → Prop
  | text {n : Node} (hkind : n.kind = .text) (hpayload : '\n' ∈ n.payload → deep) (hleaf : n.children = []) :
    IsTame deep n
  | escape {n : Node} (hkind : n.kind = .escape) (hpayload : '\n' ∉ n.payload) (hleaf : n.children = []) : IsTame deep n
  | lineEnd {n : Node} (hkind : n.kind = .softBreak ∨ n.kind = .hardBreak) (hleaf : n.children = []) : IsTame deep n
  | code {n : Node} (hkind : n.kind = .inlineCode) (hmarkup : '\n' ∉ n.markup) (hpayload : '\n' ∉ n.payload)
    (hleaf : n.children = []) : IsTame deep n
  | html {n : Node} {t : Text} (hkind : n.kind = .html) (hpayload : n.payload = '<' :: (t ++ ['>']))
    (hleaf : n.children = []) : IsTame deep n
  | marked {n : Node} (hkind : n.kind = .emphasis ∨ n.kind = .strong ∨ n.kind = .delete) (hmarkup : '\n' ∉ n.markup)
    (hchildren : ∀ c ∈ n.children, IsTame deep c) : IsTame deep n
  | autolink {n : Node} (hkind : n.kind = .link) (hauto : Layout.isAutolink n = true) (htarget : '\n' ∉ n.target)
    (htitle : n.title = none) (hchildren : ∀ c ∈ n.children, c.kind = .text ∧ c.children = []) : IsTame deep n
  | link {n : Node} (hkind : n.kind = .link) (hauto : Layout.isAutolink n = false) (htarget : '\n' ∉ n.target)
    (hchildren : ∀ c ∈ n.children, IsTame deep c) : IsTame deep n
  | image {n : Node} (hkind : n.kind = .image) (htarget : '\n' ∉ n.target)
    (hchildren : ∀ c ∈ n.children, IsTame deep c) : IsTame deep n

end Node

namespace Layout

open Node

-- ---------------------------------------------------------------------------
-- Line breaks that stay
-- ---------------------------------------------------------------------------

/-- A line break stands between two characters that are not blank. -/
def HasInnerBreak (t : Text) : Prop :=
  ∃ c u d, c :: (u ++ [d]) <:+: t ∧ isBlank c = false ∧ isBlank d = false ∧ '\n' ∈ u

variable {t u : Text}

theorem HasInnerBreak.mono (h : HasInnerBreak t) (hin : t <:+: u) : HasInnerBreak u := by
  obtain ⟨c, v, d, hv, hc, hd, hmem⟩ := h
  exact ⟨c, v, d, hv.trans hin, hc, hd, hmem⟩

theorem HasInnerBreak.mem (h : HasInnerBreak t) : '\n' ∈ t := by
  obtain ⟨c, v, d, hv, -, -, hmem⟩ := h
  exact hv.mem (by simp [hmem])

theorem trimLeft_append_cons {p : Char → Bool} {c : Char} (hc : p c = false) (t u : Text) :
    Text.trimLeft p (t ++ c :: u) = Text.trimLeft p t ++ c :: u := by
  rw [Text.trimLeft, List.dropWhile_append]
  split
  · next h =>
    have hnil : t.dropWhile p = [] := by simpa using h
    rw [Text.trimLeft, hnil, List.dropWhile_cons_of_neg (by simp [hc]), List.nil_append]
  · rfl

theorem trimRight_concat_append {p : Char → Bool} {d : Char} (hd : p d = false) (t u : Text) :
    Text.trimRight p ((t ++ [d]) ++ u) = (t ++ [d]) ++ Text.trimRight p u := by
  have hself : Text.trimRight p (t ++ [d]) = t ++ [d] := by simp [Text.trimRight, hd]
  rw [Text.trimRight_append, hself]
  split
  · next h => rw [h, List.append_nil]
  · rfl

/-- Such a line break is not trimmed off. -/
theorem HasInnerBreak.trimBlank (h : HasInnerBreak t) : HasInnerBreak (Text.trimBlank t) := by
  obtain ⟨c, v, d, ⟨a, b, rfl⟩, hc, hd, hmem⟩ := h
  refine ⟨c, v, d, ⟨Text.trimLeft isBlank a, Text.trimRight isBlank b, ?_⟩, hc, hd, hmem⟩
  have hleft : Text.trimLeft isBlank (a ++ c :: (v ++ [d]) ++ b) = Text.trimLeft isBlank a ++ c :: v ++ [d] ++ b := by
    rw [List.append_assoc, List.cons_append, trimLeft_append_cons hc]
    simp
  rw [Text.trimBlank, Text.trim, hleft, trimRight_concat_append hd]
  simp

theorem mem_of_mem_trimBlank {c : Char} (h : c ∈ Text.trimBlank t) : c ∈ t := (Text.trim_sublist isBlank t).mem h

/-- The line of a heading adds no line break to the text of the heading. -/
theorem mem_headingLine (level : Nat) (t : Text) : '\n' ∈ headingLine level t ↔ '\n' ∈ Text.trimBlank t := by
  rw [headingLine_eq level rfl]
  have hclosed : '\n' ∈ closed (Text.trimBlank t) ↔ '\n' ∈ Text.trimBlank t := by
    rw [closed]
    split <;> simp
  by_cases hnil : Text.trimBlank t = []
  · simp [hnil]
  · simp [hnil, hclosed]

-- ---------------------------------------------------------------------------
-- Running text of a heading
-- ---------------------------------------------------------------------------

/-- The place of running text in a heading. -/
abbrev inHeading : Place := { inHeading := true }

theorem notMem_destination {url : Text} (h : '\n' ∉ url) : '\n' ∉ destination url := by
  have hescaped : ∀ {c : Char} {new v : Text}, '\n' ∉ new → '\n' ∉ v → '\n' ∉ Text.replaceChar c new v := by
    intro c new v hnew hv hmem
    obtain ⟨d, hd, hmem⟩ := List.mem_flatMap.1 hmem
    split at hmem
    · exact hnew hmem
    · exact hv (List.mem_singleton.1 hmem ▸ hd)
  rw [destination]
  split
  · simpa using hescaped (by decide) (hescaped (by decide) h)
  · exact h

theorem notMem_paddedCode (h : '\n' ∉ t) : '\n' ∉ paddedCode t := by
  cases t with
  | nil => exact h
  | cons c u =>
    rw [paddedCode]
    split
    · simpa using h
    · exact h

/-- A title is between quotes, and every character of it but a quote is written as it is. -/
theorem title_break (t : Text) : ('\n' ∈ title t → '\n' ∈ t) ∧ ('\n' ∈ t → HasInnerBreak (title t)) := by
  have hescaped : '\n' ∈ Text.replaceChar '"' "\\\"" t ↔ '\n' ∈ t := by
    rw [Text.replaceChar, List.mem_flatMap]
    constructor
    · rintro ⟨d, hd, hmem⟩
      split at hmem
      · exact absurd hmem (by decide)
      · exact List.mem_singleton.1 hmem ▸ hd
    · exact fun h => ⟨'\n', h, by decide⟩
  rw [title]
  split
  · next h => simp [h]
  · refine ⟨fun h => hescaped.1 (by simpa using h), fun h => ?_⟩
    exact ⟨'"', _, '"', ⟨[' '], [], by simp⟩, by decide, by decide, hescaped.2 h⟩

theorem inlines_eq_flatMap (p : Place) (ns : List Node) : inlines p ns = ns.flatMap (inline p) := by
  induction ns with
  | nil => rfl
  | cons n ns ih => rw [inlines, List.flatMap_cons, ih]

/-- What the text of running text has to do with the nodes in it. -/
structure Tells (ns : List Node) (t : Text) : Prop where
  of_mem : '\n' ∈ t → ∃ m ∈ ns, m.holdsBreak = true
  of_holds : (∃ m ∈ ns, m.holdsBreak = true) → HasInnerBreak t

theorem tells_flatMap {ns : List Node} (h : ∀ n ∈ ns, Tells n.nodes (inline inHeading n)) :
    Tells (ns.flatMap Node.nodes) (inlines inHeading ns) := by
  rw [inlines_eq_flatMap]
  constructor
  · intro hmem
    obtain ⟨n, hn, hmem⟩ := List.mem_flatMap.1 hmem
    obtain ⟨m, hm, hholds⟩ := (h n hn).of_mem hmem
    exact ⟨m, List.mem_flatMap.2 ⟨n, hn, hm⟩, hholds⟩
  · rintro ⟨m, hm, hholds⟩
    obtain ⟨n, hn, hm⟩ := List.mem_flatMap.1 hm
    refine ((h n hn).of_holds ⟨m, hm, hholds⟩).mono ?_
    obtain ⟨before, after, rfl⟩ := List.append_of_mem hn
    exact ⟨before.flatMap (inline inHeading), after.flatMap (inline inHeading), by simp⟩

namespace Tells

variable {ns : List Node} {n : Node}

theorem of_none (ht : '\n' ∉ t) (hns : ∀ m ∈ ns, m.holdsBreak = false) : Tells ns t where
  of_mem h := absurd h ht
  of_holds := by
    rintro ⟨m, hm, hholds⟩
    rw [hns m hm] at hholds
    cases hholds

theorem of_leaf (hleaf : n.children = []) (ht : '\n' ∉ t) (hn : n.holdsBreak = false) : Tells n.nodes t := by
  rw [nodes_eq, hleaf]
  exact of_none ht (by simpa using hn)

/-- Texts without line breaks around the text of nodes, and a node that holds none itself before them. -/
theorem around (h : Tells ns t) {a b : Text} (ha : '\n' ∉ a) (hb : '\n' ∉ b) (hn : n.holdsBreak = false) :
    Tells (n :: ns) (a ++ t ++ b) where
  of_mem hmem := by
    obtain ⟨m, hm, hholds⟩ := h.of_mem (by simpa [ha, hb] using hmem)
    exact ⟨m, List.mem_cons_of_mem n hm, hholds⟩
  of_holds := by
    rintro ⟨m, hm, hholds⟩
    rcases List.mem_cons.1 hm with rfl | hm
    · rw [hn] at hholds
      cases hholds
    · exact (h.of_holds ⟨m, hm, hholds⟩).mono ⟨a, b, rfl⟩

/-- A link or an image tells by its title and by what it encloses. -/
theorem linked (h : Tells ns t) (hkind : n.kind = .link ∨ n.kind = .image) (htarget : '\n' ∉ n.target) {a : Text}
    (ha : '\n' ∉ a) : Tells (n :: ns) (a ++ t ++ "](".toList ++ target n ++ [')']) := by
  have hholds : n.holdsBreak = true ↔ '\n' ∈ n.title.getD [] := by
    rcases hkind with hk | hk <;> simp [holdsBreak, hk]
  have htitle := title_break (n.title.getD [])
  constructor
  · intro hmem
    rw [target] at hmem
    have hmem : '\n' ∈ t ∨ '\n' ∈ title (n.title.getD []) := by simpa [ha, notMem_destination htarget] using hmem
    rcases hmem with hmem | hmem
    · obtain ⟨m, hm, hm'⟩ := h.of_mem hmem
      exact ⟨m, List.mem_cons_of_mem n hm, hm'⟩
    · exact ⟨n, List.mem_cons_self, hholds.2 (htitle.1 hmem)⟩
  · rintro ⟨m, hm, hm'⟩
    rcases List.mem_cons.1 hm with rfl | hm
    · exact (htitle.2 (hholds.1 hm')).mono ⟨a ++ t ++ "](".toList ++ destination m.target, [')'], by simp [target]⟩
    · exact (h.of_holds ⟨m, hm, hm'⟩).mono ⟨a, "](".toList ++ target n ++ [')'], by simp⟩

end Tells

theorem notMem_link_of_isAutolink {n : Node} (hauto : isAutolink n = true) (htarget : '\n' ∉ n.target) (t : Text) :
    '\n' ∉ link inHeading n t := by
  have hescapes : ∀ u, Place.escapePipes inHeading u = u := fun u => rfl
  simp only [link, hauto, if_true, hescapes]
  cases hmail : Text.after? "mailto:" n.target with
  | none => simpa using htarget
  | some mail =>
    have hmail' : '\n' ∉ mail := fun h => htarget (by rw [Text.after?_eq_some_iff.1 hmail]; simp [h])
    dsimp only
    split
    · simpa using hmail'
    · simpa using htarget

/-- In the text of tame running text just the payloads of HTML and the titles that hold line breaks bring some in. -/
theorem tells_inline {deep : Prop} (hdeep : ¬ deep) {n : Node} (h : IsTame deep n) :
    Tells n.nodes (inline inHeading n) := by
  induction h with
  | @text n hkind hpayload hleaf =>
    refine .of_leaf hleaf ?_ (by simp [holdsBreak, hkind])
    rw [inline_of_payload _ (.inl hkind)]
    exact fun hmem => hdeep (hpayload hmem)
  | @escape n hkind hpayload hleaf =>
    refine .of_leaf hleaf ?_ (by simp [holdsBreak, hkind])
    rwa [inline_of_escape _ hkind]
  | @lineEnd n hkind hleaf =>
    refine .of_leaf hleaf ?_ (by rcases hkind with hk | hk <;> simp [holdsBreak, hk])
    rw [inline_inHeading_of_break hkind]
    decide
  | @code n hkind hmarkup hpayload hleaf =>
    refine .of_leaf hleaf ?_ (by simp [holdsBreak, hkind])
    have hticks : '\n' ∉ if n.markup = [] then ['`'] else n.markup := by
      split
      · decide
      · exact hmarkup
    rw [inline_of_code _ hkind, codeSpan]
    simpa [hticks, Place.escapePipes] using notMem_paddedCode hpayload
  | @html n t hkind hpayload hleaf =>
    have hholds : n.holdsBreak = true ↔ '\n' ∈ n.payload := by simp [holdsBreak, hkind]
    rw [inline_of_payload _ (.inr hkind), nodes_eq, hleaf, List.flatMap_nil]
    refine ⟨fun hmem => ⟨n, List.mem_cons_self, hholds.2 hmem⟩, ?_⟩
    rintro ⟨m, hm, hm'⟩
    obtain rfl := List.mem_singleton.1 hm
    rw [hholds, hpayload] at hm'
    exact ⟨'<', t, '>', by simp [hpayload, Place.escapePipes], by decide, by decide, by simpa using hm'⟩
  | @marked n hkind hmarkup _ ih =>
    rw [inline_of_marked _ hkind, nodes_eq]
    refine (tells_flatMap ih).around ?_ ?_ (by rcases hkind with hk | hk | hk <;> simp [holdsBreak, hk])
    all_goals exact notMem_emphasisMark (by decide) hmarkup
  | @autolink n hkind hauto htarget htitle hchildren =>
    rw [inline_of_link _ hkind, nodes_eq]
    refine .of_none (notMem_link_of_isAutolink hauto htarget _) ?_
    intro m hm
    rcases List.mem_cons.1 hm with rfl | hm
    · simp [holdsBreak, hkind, htitle]
    · obtain ⟨c, hc, hm⟩ := List.mem_flatMap.1 hm
      obtain ⟨hkind, hleaf⟩ := hchildren c hc
      rw [nodes_eq, hleaf, List.flatMap_nil, List.mem_singleton] at hm
      simp [holdsBreak, hm, hkind]
  | @link n hkind hauto htarget _ ih =>
    rw [inline_of_link _ hkind, nodes_eq, Layout.link, if_neg (by simp [hauto])]
    exact (tells_flatMap ih).linked (.inl hkind) htarget (a := ['[']) (by decide)
  | @image n hkind htarget _ ih =>
    rw [inline_of_image _ hkind, nodes_eq, Layout.image]
    exact (tells_flatMap ih).linked (.inr hkind) htarget (by decide)

/-- The line of a heading over tame running text holds a line break just if HTML or a title in the text does. -/
theorem mem_headingLine_iff {deep : Prop} (hdeep : ¬ deep) {ns : List Node} (h : ∀ n ∈ ns, IsTame deep n) (level : Nat) :
    '\n' ∈ headingLine level (inlines inHeading ns) ↔ ∃ m ∈ ns.flatMap Node.nodes, m.holdsBreak = true := by
  have htells := tells_flatMap fun n hn => tells_inline hdeep (h n hn)
  rw [mem_headingLine]
  exact ⟨fun hmem => htells.of_mem (mem_of_mem_trimBlank hmem), fun hholds => (htells.of_holds hholds).trimBlank.mem⟩

end Layout
end MdxSafe
