-- SUMMARY: The row of a table is read back cell by cell, whatever pipes stand in its running text.
import MdxSafe.Proofs.Layout.Inline
import MdxSafe.Proofs.Markdown.Table
import MdxSafe.Proofs.Rewrite.Payload

/-!
# Reading the row of a table back

`Table.readRow?` cuts a row at the pipes that no backslash precedes, drops the empty pieces at both ends, and takes
the backslash before every pipe that is left away. Running text in a cell is the same text as outside of one with
every pipe escaped (`inlines_inCell`): which place of the running text a pipe comes from does not matter, as long as
the parts that are written as they are hold none. So the cuts are those between cells, and taking the backslashes
away gives back the text that the cells would have elsewhere.
-/

namespace MdxSafe

-- ---------------------------------------------------------------------------
-- The rule
-- ---------------------------------------------------------------------------

namespace Table

/-- The pieces of a row between the pipes that no backslash precedes; `escaped` says that one comes before. -/
def rawPieces (escaped : Bool) : Text → List Text
  | [] => [[]]
  | c :: t =>
    if c = '|' ∧ !escaped then [] :: rawPieces false t
    else
      match rawPieces (c = '\\') t with
      | p :: ps => (c :: p) :: ps
      | [] => [[c]]

/-- The text without the backslash before every pipe. -/
def withoutEscapes : Text → Text
  | [] => []
  | c :: t => if c = '\\' ∧ t.head? = some '|' then withoutEscapes t else c :: withoutEscapes t

/-- The cells that a row is read as; nothing if it does not start and end with a pipe. -/
def readRow? (t : Text) : Option (List Text) :=
  match rawPieces false t with
  | [] :: ps =>
    if ps.getLast? = some [] then some (ps.dropLast.map fun p => Text.trimBlank (withoutEscapes p)) else none
  | _ => none

/-- The text with a backslash before every pipe. -/
def withEscapes (t : Text) : Text := Text.replaceChar '|' "\\|" t

@[simp] theorem withEscapes_nil : withEscapes [] = [] := rfl

theorem withEscapes_cons (c : Char) (t : Text) :
    withEscapes (c :: t) = if c = '|' then '\\' :: '|' :: withEscapes t else c :: withEscapes t := by
  rw [withEscapes, Text.replaceChar, List.flatMap_cons]
  split <;> rfl

theorem withEscapes_append (t u : Text) : withEscapes (t ++ u) = withEscapes t ++ withEscapes u :=
  List.flatMap_append

theorem withEscapes_eq_self {t : Text} (h : '|' ∉ t) : withEscapes t = t := Text.replaceChar_eq_self _ h

theorem head?_withEscapes (t : Text) : (withEscapes t).head? ≠ some '|' := by
  cases t with
  | nil => simp
  | cons c t =>
    rw [withEscapes_cons]
    split
    · simp
    · next hc => simpa using hc

theorem mem_withEscapes_iff {t : Text} : '|' ∈ withEscapes t ↔ '|' ∈ t := by
  refine ⟨fun h => ?_, fun h => List.mem_flatMap.2 ⟨'|', h, by simp⟩⟩
  by_contra hnone
  rw [withEscapes_eq_self hnone] at h
  exact hnone h

/-- A text without pipes is an escaped one just if it is the text that was escaped. -/
theorem withEscapes_eq_iff {t u : Text} (hu : '|' ∉ u) : withEscapes t = u ↔ t = u := by
  refine ⟨fun h => ?_, fun h => by rw [h, withEscapes_eq_self hu]⟩
  have ht : '|' ∉ t := fun hmem => hu (h ▸ mem_withEscapes_iff.2 hmem)
  rw [← h, withEscapes_eq_self ht]

theorem withoutEscapes_cons_of_ne {c : Char} (hc : c ≠ '\\') (t : Text) :
    withoutEscapes (c :: t) = c :: withoutEscapes t := by
  rw [withoutEscapes, if_neg fun h => hc h.1]

/-- Escaped pipes lose their backslashes again, and nothing else is lost. -/
theorem withoutEscapes_withEscapes_append (t : Text) {u : Text} (hu : u.head? ≠ some '|') :
    withoutEscapes (withEscapes t ++ u) = t ++ withoutEscapes u := by
  induction t with
  | nil => rfl
  | cons c t ih =>
    rw [withEscapes_cons]
    split
    · next hc =>
      rw [List.cons_append, List.cons_append, withoutEscapes, if_pos ⟨rfl, rfl⟩, withoutEscapes_cons_of_ne (by decide),
        ih, hc]
      rfl
    · have hhead : (withEscapes t ++ u).head? ≠ some '|' := by
        rw [List.head?_append]
        cases h : (withEscapes t).head? with
        | none => simpa using hu
        | some d =>
          rw [Option.some_or, ← h]
          exact head?_withEscapes t
      rw [List.cons_append, withoutEscapes, if_neg fun h => hhead h.2, ih]
      rfl

theorem rawPieces_ne_nil (escaped : Bool) (t : Text) : rawPieces escaped t ≠ [] := by
  cases t with
  | nil => simp [rawPieces]
  | cons c t =>
    rw [rawPieces]
    split
    · simp
    · split <;> simp

theorem rawPieces_cons {escaped : Bool} {c : Char} {t p : Text} {ps : List Text} (hc : ¬ (c = '|' ∧ !escaped))
    (h : rawPieces (c = '\\') t = p :: ps) : rawPieces escaped (c :: t) = (c :: p) :: ps := by
  rw [rawPieces, if_neg hc, h]

/-- An escaped text before a blank and a pipe is a piece of its own. -/
theorem rawPieces_withEscapes_append (escaped : Bool) (t u : Text) :
    rawPieces escaped (withEscapes t ++ ' ' :: '|' :: u) = (withEscapes t ++ [' ']) :: rawPieces false u := by
  induction t generalizing escaped with
  | nil => exact rawPieces_cons (by simp) (by simp [rawPieces])
  | cons c t ih =>
    rw [withEscapes_cons]
    split
    · exact rawPieces_cons (by simp) (rawPieces_cons (by simp) (ih _))
    · next hc => exact rawPieces_cons (fun h => hc h.1) (ih _)

/-- The first piece starts where the text does, unless a pipe ends it at once. -/
theorem head?_of_rawPieces {escaped : Bool} {t p : Text} {ps : List Text} (h : rawPieces escaped t = p :: ps) :
    p = [] ∨ p.head? = t.head? := by
  cases t with
  | nil => exact .inl (List.cons.inj h).1.symm
  | cons c t =>
    rw [rawPieces] at h
    split at h
    · exact .inl (List.cons.inj h).1.symm
    · split at h <;> exact .inr (by rw [← (List.cons.inj h).1]; rfl)

/-- The language cuts a row where the rule does, and takes the same backslashes away. -/
theorem cutRow_eq (escaped : Bool) (t : Text) : cutRow escaped t = (rawPieces escaped t).map withoutEscapes := by
  induction t generalizing escaped with
  | nil => rfl
  | cons c t ih =>
    rw [cutRow]
    split
    · next hc => rw [rawPieces, if_pos hc, ih, List.map_cons, withoutEscapes]
    next hc =>
    obtain ⟨p, ps, hp⟩ := List.exists_cons_of_ne_nil (rawPieces_ne_nil (decide (c = '\\')) t)
    rw [rawPieces_cons hc hp, List.map_cons]
    split
    · next hb =>
      -- the backslash goes; the pipe after it is the first character of the piece
      have hp' : rawPieces true t = p :: ps := by simpa [hb.1] using hp
      have hhead : p.head? = some '|' := by
        obtain ⟨u, rfl⟩ := List.head?_eq_some_iff.1 hb.2
        obtain ⟨q, qs, hq⟩ := List.exists_cons_of_ne_nil (rawPieces_ne_nil false u)
        rw [rawPieces, if_neg (by simp), show decide ('|' = '\\') = false from rfl, hq] at hp'
        rw [← (List.cons.inj hp').1]
        rfl
      rw [ih, hp', List.map_cons, withoutEscapes, if_pos ⟨hb.1, hhead⟩]
    · next hb =>
      have hsame : rawPieces false t = rawPieces (decide (c = '\\')) t := by
        by_cases hc : c = '\\'
        · cases t with
          | nil => rfl
          | cons d t =>
            have hd : d ≠ '|' := fun h => hb ⟨hc, by rw [h]; rfl⟩
            rw [rawPieces, rawPieces, if_neg fun h => hd h.1, if_neg fun h => hd h.1]
        · rw [decide_eq_false hc]
      have hkept : ¬ (c = '\\' ∧ p.head? = some '|') := by
        rintro ⟨hc, hhead⟩
        rcases head?_of_rawPieces hp with rfl | hsame
        · cases hhead
        · exact hb ⟨hc, hsame ▸ hhead⟩
      rw [ih, hsame, hp, withoutEscapes, if_neg hkept]
      rfl

/-- Trimming takes no pipe off, and no backslash. -/
theorem trimBlank_withEscapes (t : Text) : Text.trimBlank (withEscapes t) = withEscapes (Text.trimBlank t) := by
  have hleft : ∀ u, Text.trimLeft isBlank (withEscapes u) = withEscapes (Text.trimLeft isBlank u) := by
    intro u
    induction u with
    | nil => rfl
    | cons c u ih =>
      by_cases hc : isBlank c = true
      · have hpipe : c ≠ '|' := fun h => absurd hc (by rw [h]; decide)
        rw [withEscapes_cons, if_neg hpipe, Text.trimLeft, Text.trimLeft, List.dropWhile_cons_of_pos hc,
          List.dropWhile_cons_of_pos hc]
        exact ih
      · rw [Text.trimLeft, Text.trimLeft, List.dropWhile_cons_of_neg hc, withEscapes_cons]
        split
        · exact List.dropWhile_cons_of_neg (by decide)
        · exact List.dropWhile_cons_of_neg hc
  have hright : ∀ u, Text.trimRight isBlank (withEscapes u) = withEscapes (Text.trimRight isBlank u) := by
    intro u
    induction u using List.reverseRecOn with
    | nil => rfl
    | append_singleton u c ih =>
      rw [withEscapes_append, Text.trimRight_append, Text.trimRight_append]
      by_cases hpipe : c = '|'
      · rw [hpipe, if_neg (by decide), if_neg (by decide), withEscapes_append]
        rfl
      · have hself : withEscapes [c] = [c] := withEscapes_eq_self (by simpa using Ne.symm hpipe)
        by_cases hc : isBlank c = true
        · have hnil : Text.trimRight isBlank [c] = [] := by simp [Text.trimRight, hc]
          rw [hself, if_pos hnil, if_pos hnil, ih]
        · have hkept : Text.trimRight isBlank [c] = [c] := by simp [Text.trimRight, hc]
          rw [hself, hkept, if_neg (by simp), if_neg (by simp), withEscapes_append, hself]
  rw [Text.trimBlank, Text.trim, hleft, hright]
  rfl

/-- A row of escaped texts has a piece for each, with a blank on both sides. -/
theorem rawPieces_row {ts : List Text} (h : ts ≠ []) :
    rawPieces false (Layout.row (ts.map withEscapes))
      = [] :: (ts.map fun t => ' ' :: (withEscapes t ++ [' '])) ++ [[]] := by
  rw [Layout.row_eq (by simpa using h), rawPieces, if_pos (by simp)]
  refine congrArg ([] :: ·) ?_
  clear h
  induction ts with
  | nil => rfl
  | cons t ts ih =>
    rw [List.map_cons, List.flatMap_cons, List.cons_append, List.append_assoc]
    refine rawPieces_cons (by simp) ((rawPieces_withEscapes_append _ t _).trans ?_)
    exact congrArg (_ :: ·) ih

theorem withoutEscapes_piece (t : Text) : withoutEscapes (' ' :: (withEscapes t ++ [' '])) = ' ' :: (t ++ [' ']) := by
  rw [withoutEscapes_cons_of_ne (by decide), withoutEscapes_withEscapes_append t (by simp)]
  rfl

/-- A row of escaped texts is read as the texts. -/
theorem readRow?_row {ts : List Text} (h : ts ≠ []) :
    readRow? (Layout.row (ts.map withEscapes)) = some (ts.map Text.trimBlank) := by
  have hread : ∀ t, Text.trimBlank (withoutEscapes (' ' :: (withEscapes t ++ [' ']))) = Text.trimBlank t := fun t => by
    rw [withoutEscapes_piece]
    exact (Text.trim_cons (by decide) _).trans (Text.trim_concat (by decide) t)
  rw [readRow?, rawPieces_row h]
  simp [hread]

/-- So does the language read it. -/
theorem cells_row {ts : List Text} (h : ts ≠ []) :
    (cells (Text.trimMargin (Layout.row (ts.map withEscapes)))).map Text.trimMargin = ts.map Text.trimMargin := by
  have hsplit : splitRow (Layout.row (ts.map withEscapes)) = [] :: (ts.map fun t => ' ' :: (t ++ [' '])) ++ [[]] := by
    have hpiece : withoutEscapes ∘ (fun t => ' ' :: (withEscapes t ++ [' '])) = fun t => ' ' :: (t ++ [' ']) :=
      funext withoutEscapes_piece
    rw [splitRow, cutRow_eq, rawPieces_row h, List.map_append, List.map_cons, List.map_map, hpiece]
    rfl
  have hread : ∀ t, Text.trimMargin (' ' :: (t ++ [' '])) = Text.trimMargin t := fun t =>
    (Text.trim_cons (by decide) _).trans (Text.trim_concat (by decide) t)
  rw [Layout.trimMargin_row, cells, hsplit]
  simp [hread]

end Table

-- ---------------------------------------------------------------------------
-- Running text in a cell
-- ---------------------------------------------------------------------------

namespace Layout

open Table

/-- Running text that can stand in a cell: the parts that are written there as they are, which are the payloads of
escapes, the markup and the targets of autolinks, hold no pipe. -/
inductive FitsCell : Node → Prop
  | payload {n : Node} (hkind : n.kind = .text ∨ n.kind = .html) : FitsCell n
  | escape {n : Node} (hkind : n.kind = .escape) (hpayload : '|' ∉ n.payload) : FitsCell n
  | code {n : Node} (hkind : n.kind = .inlineCode) (hmarkup : '|' ∉ n.markup) : FitsCell n
  | marked {n : Node} (hkind : n.kind = .emphasis ∨ n.kind = .strong ∨ n.kind = .delete) (hmarkup : '|' ∉ n.markup)
      (hchildren : ∀ c ∈ n.children, FitsCell c) : FitsCell n
  | link {n : Node} (hkind : n.kind = .link) (hauto : isAutolink n → '|' ∉ n.target)
      (hchildren : ∀ c ∈ n.children, FitsCell c) : FitsCell n
  | image {n : Node} (hkind : n.kind = .image) (hchildren : ∀ c ∈ n.children, FitsCell c) : FitsCell n

variable {n : Node}

theorem escapePipes_inCell (t : Text) : Place.escapePipes { inCell := true } t = withEscapes t := rfl

theorem codeSpan_inCell (h : '|' ∉ n.markup) : codeSpan { inCell := true } n = withEscapes (codeSpan {} n) := by
  have hticks : '|' ∉ if n.markup = [] then ['`'] else n.markup := by
    split
    · decide
    · exact h
  simp only [codeSpan, escapePipes_inCell, withEscapes_append, withEscapes_eq_self hticks]
  rfl

/-- Which of its two forms an autolink takes does not depend on the place it is in, as neither form holds a pipe. -/
theorem link_inCell (hauto : isAutolink n → '|' ∉ n.target) (text : Text) :
    link { inCell := true } n (withEscapes text) = withEscapes (link {} n text) := by
  have hescapes : ∀ t, Place.escapePipes {} t = t := fun t => rfl
  simp only [link, escapePipes_inCell, hescapes]
  split
  · next h =>
    have hurl := hauto h
    cases hmail : Text.after? "mailto:" n.target with
    | none => simp [withEscapes_eq_self hurl, withEscapes_append, withEscapes_cons]
    | some mail =>
      have hmail' : '|' ∉ mail := fun h => hurl (by rw [Text.after?_eq_some_iff.1 hmail]; simp [h])
      simp only [withEscapes_eq_iff hmail']
      split <;> simp [withEscapes_eq_self hurl, withEscapes_append, withEscapes_cons]
  · simp [withEscapes_append, withEscapes_cons]

theorem image_inCell (n : Node) (text : Text) :
    image { inCell := true } n (withEscapes text) = withEscapes (image {} n text) := by
  have hescapes : ∀ t, Place.escapePipes {} t = t := fun t => rfl
  simp only [image, escapePipes_inCell, hescapes]
  simp [withEscapes_append, withEscapes_cons]

theorem inlines_inCell_of_forall {ns : List Node}
    (h : ∀ n ∈ ns, inline { inCell := true } n = withEscapes (inline {} n)) :
    inlines { inCell := true } ns = withEscapes (inlines {} ns) := by
  induction ns with
  | nil => rfl
  | cons n ns ih =>
    rw [inlines, inlines, withEscapes_append, h n List.mem_cons_self, ih fun m hm => h m (List.mem_cons_of_mem n hm)]

/-- In a cell running text is what it is elsewhere, with every pipe escaped. -/
theorem inline_inCell (h : FitsCell n) : inline { inCell := true } n = withEscapes (inline {} n) := by
  induction h with
  | @payload n hkind =>
    obtain ⟨kind, value, url, title, markup, info, attrs, children⟩ := n
    rcases hkind with h | h <;> cases h <;> rfl
  | @escape n hkind hpayload =>
    obtain ⟨kind, value, url, title, markup, info, attrs, children⟩ := n
    cases hkind
    exact (withEscapes_eq_self hpayload).symm
  | code hkind hmarkup => rw [inline_of_code _ hkind, inline_of_code _ hkind, codeSpan_inCell hmarkup]
  | marked hkind hmarkup _ ih =>
    rw [inline_of_marked _ hkind, inline_of_marked _ hkind, inlines_inCell_of_forall ih, withEscapes_append,
      withEscapes_append, withEscapes_eq_self (notMem_emphasisMark (by decide) hmarkup)]
  | link hkind hauto _ ih =>
    rw [inline_of_link _ hkind, inline_of_link _ hkind, inlines_inCell_of_forall ih, link_inCell hauto]
  | image hkind _ ih =>
    rw [inline_of_image _ hkind, inline_of_image _ hkind, inlines_inCell_of_forall ih, image_inCell]

theorem inlines_inCell {ns : List Node} (h : ∀ n ∈ ns, FitsCell n) :
    inlines { inCell := true } ns = withEscapes (inlines {} ns) :=
  inlines_inCell_of_forall fun n hn => inline_inCell (h n hn)

theorem tableRow_eq (hfits : ∀ c ∈ n.children, ∀ m ∈ c.children, FitsCell m) :
    tableRow n = row ((n.children.map fun c => Text.trimBlank (inlines {} c.children)).map withEscapes) := by
  rw [tableRow, List.map_map]
  refine congrArg row (List.map_congr_left fun c hc => ?_)
  rw [Function.comp_apply, inlines_inCell (hfits c hc), trimBlank_withEscapes]

-- ---------------------------------------------------------------------------
-- Rows
-- ---------------------------------------------------------------------------

/-- The row of a table is read as one text for each of its cells, which is the text that the running text of the cell
has outside of a table, without the blanks at its ends. -/
theorem readRow?_tableRow (hcells : n.children ≠ []) (hfits : ∀ c ∈ n.children, ∀ m ∈ c.children, FitsCell m) :
    Table.readRow? (tableRow n) = some (n.children.map fun c => Text.trimBlank (inlines {} c.children)) := by
  rw [tableRow_eq hfits, readRow?_row (by simpa using hcells), List.map_map]
  exact congrArg some (List.map_congr_left fun c _ => Text.trim_trim isBlank _)

/-- A text with a backslash before a pipe and one at its end, an empty cell, and pipes in code, in a target and in a
title below emphasis. -/
theorem readRow?_tableRow_sample :
    let code : Node := { kind := .inlineCode, markup := ['`'], value := some "a|b".toList }
    let link : Node := { kind := .link, url := some "x|y".toList, title := some "t|".toList, children := [code] }
    let text : Node := { kind := .text, value := some " p\\|q \\".toList }
    let row : Node := { kind := .tableRow, children := [{ kind := .tableCell, children := [text] },
      { kind := .tableCell }, { kind := .tableCell, children := [{ kind := .strong, children := [link] }] }] }
    Table.readRow? (tableRow row) = some ["p\\|q \\".toList, [], "**[`a|b`](x|y \"t|\")**".toList] := by
  intro code link text row
  have hcode : FitsCell code := .code rfl (by decide)
  have hlink : FitsCell link := .link rfl (fun h => absurd h (by decide)) (by simpa [link] using hcode)
  have hstrong : FitsCell { kind := .strong, children := [link] } :=
    .marked (.inr (.inl rfl)) (by decide) (by simpa using hlink)
  refine (readRow?_tableRow (by simp [row]) ?_).trans (by decide +kernel)
  simpa [row] using ⟨FitsCell.payload (.inl rfl), hstrong⟩

/-- The language itself reads the same cells. -/
theorem cells_tableRow (hcells : n.children ≠ []) (hfits : ∀ c ∈ n.children, ∀ m ∈ c.children, FitsCell m) :
    (Table.cells (Text.trimMargin (tableRow n))).map Text.trimMargin
      = n.children.map fun c => Text.trimBlank (inlines {} c.children) := by
  rw [tableRow_eq hfits, cells_row (by simpa using hcells), List.map_map]
  exact List.map_congr_left fun c _ => Text.trim_trim_of_imp (fun d => isBlank_of_isMargin) _

end Layout
end MdxSafe
