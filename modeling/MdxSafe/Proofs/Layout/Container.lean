-- SUMMARY: Quotes and lists are taken apart again into what was laid out inside.
import Mathlib.Data.List.SplitBy
import MdxSafe.Proofs.Outcome
import MdxSafe.Proofs.Outline.Text
import MdxSafe.Proofs.Text.Search

/-!
# Taking containers apart

A quote marks every line of its content, a list item its first line, and indents the others. Both are undone line by
line, with nothing known of the content: `unquote?` takes the marks away, `readItems?` cuts the text of a list where a
line starts with a character that is not blank, and takes the markers, the indentation and the empty lines between
loose items away. Only the first line of an item starts with such a character, since every other one is empty or
indented; so the items that are read are the ones that were written (`Layout.container_reversible`).
-/

namespace MdxSafe
namespace Layout

open Outline

variable {blank : Char → Bool} {opts : Options} {tight : Bool} {marker content : Text}

/-- Lines that are read one by one as what they were written from. -/
theorem mapM_written {read : Text → Option Text} {write : Text → Text} (h : ∀ s, read (write s) = some s)
    (ss : List Text) : (ss.map write).mapM read = some ss := by
  have hline : read ∘ write = fun s => pure (id s) := funext h
  rw [List.mapM_map, hline, List.mapM_pure, List.map_id]
  rfl

-- ---------------------------------------------------------------------------
-- Quotes
-- ---------------------------------------------------------------------------

/-- A line of a quote without its mark and at most one space after it. -/
def unquotedLine? (l : Text) : Option Text := do
  let rest ← Text.after? ['>'] l
  return (Text.after? [' '] rest).getD rest

/-- The content of a quote, read from its text. -/
def unquote? (t : Text) : Option Text := do
  return Text.join ['\n'] (← (Text.splitOn '\n' t).mapM unquotedLine?)

theorem unquotedLine?_quoted (s : Text) : unquotedLine? (Line.quoted s) = some s := by
  unfold Line.quoted unquotedLine?
  split
  · next h => rw [h]; rfl
  · rfl

/-- The content of a quote is what was quoted. -/
theorem unquote?_quote (h : content ≠ []) : unquote? (quote content) = some content := by
  have hne : (Text.splitOn '\n' content).map Line.quoted ≠ [] := by simp [Text.splitOn_ne_nil]
  rw [unquote?, quote_eq_join h, Text.splitOn_join (unbroken_quoted (unbroken_splitOn content)) hne,
    mapM_written unquotedLine?_quoted]
  simp [Text.join_splitOn]

-- ---------------------------------------------------------------------------
-- Reading lists
-- ---------------------------------------------------------------------------

/-- Whether a line starts with a character that is not blank. -/
def begins (blank : Char → Bool) (l : Text) : Bool := l.head?.any fun c => !blank c

/-- The lines of a text, cut before every line that starts with a character that is not blank. -/
def cutGroups (blank : Char → Bool) (t : Text) : List (List Text) :=
  (Text.splitOn '\n' t).splitBy fun _ l => !begins blank l

/-- Groups of lines without the lines between neighbours. -/
def withoutGaps? (gap : List Text) : List (List Text) → Option (List (List Text))
  | [] => some []
  | [g] => some [g]
  | g :: gs => do return (← g.dropSuffix? gap) :: (← withoutGaps? gap gs)

/-- A line under the marker of an item without its indentation. -/
def unindented? (width : Nat) (l : Text) : Option Text :=
  if l = [] then some [] else Text.after? (spaces width) l

/-- The first line of an item without its marker and the gap after it; an empty item has no gap. -/
def unmarked? (opts : Options) (marker l : Text) : Option Text :=
  if l = marker then some [] else Text.after? (marker ++ spaces opts.itemIndent) l

/-- The content of an item, given its marker and its lines. -/
def itemContent? (opts : Options) (marker : Text) : List Text → Option Text
  | [] => none
  | first :: rest => do
    let first ← unmarked? opts marker first
    let rest ← rest.mapM (unindented? (marker.length + opts.itemIndent))
    return Text.join ['\n'] (first :: rest)

/-- The contents of items, one for each marker and each group of lines. -/
def itemContents? (opts : Options) : List Text → List (List Text) → Option (List Text)
  | [], [] => some []
  | m :: ms, g :: gs => do return (← itemContent? opts m g) :: (← itemContents? opts ms gs)
  | _, _ => none

/-- The contents of the items of a list, read from its text. -/
def readItems? (blank : Char → Bool) (opts : Options) (tight : Bool) (markers : List Text) (t : Text) :
    Option (List Text) := do
  itemContents? opts markers (← withoutGaps? (gapLines tight) (cutGroups blank t))

-- ---------------------------------------------------------------------------
-- Lines of an item
-- ---------------------------------------------------------------------------

/-- A marker that can be found: one line that starts with a character that is not blank. -/
def Marks (blank : Char → Bool) (marker : Text) : Prop := begins blank marker ∧ '\n' ∉ marker

/-- The lines of a content; an empty one has none. -/
def contentLines (content : Text) : List Text := if content = [] then [] else Text.splitOn '\n' content

/-- The lines that an item is written as. -/
def linesOf (opts : Options) (marker content : Text) : List Text := itemLines opts marker (contentLines content)

theorem unbroken_contentLines (content : Text) : Unbroken (contentLines content) := by
  unfold contentLines
  split
  · simp [Unbroken]
  · exact unbroken_splitOn content

theorem listItem_eq_join_linesOf (opts : Options) (marker content : Text) :
    listItem opts marker content = Text.join ['\n'] (linesOf opts marker content) := by
  by_cases h : content = []
  · simp [listItem, linesOf, contentLines, itemLines, h]
  · rw [listItem_eq_join h, linesOf, contentLines, if_neg h]

theorem splitOn_listItem (opts : Options) (content : Text) (hmarker : '\n' ∉ marker) :
    Text.splitOn '\n' (listItem opts marker content) = linesOf opts marker content := by
  rw [listItem_eq_join_linesOf]
  refine Text.splitOn_join (unbroken_itemLines hmarker (unbroken_contentLines content)) ?_
  unfold linesOf
  cases contentLines content <;> simp [itemLines]

theorem unindented?_indented (width : Nat) (s : Text) : unindented? width (indented width s) = some s := by
  unfold indented
  split
  · next h => rw [h]; rfl
  · next h =>
    have hne : spaces width ++ s ≠ [] := by simp [h]
    rw [unindented?, if_neg hne, Text.after?_append]

theorem unmarked?_append (opts : Options) (marker s : Text) :
    unmarked? opts marker (marker ++ spaces opts.itemIndent ++ s) = some s := by
  unfold unmarked?
  split
  · next h =>
    -- a first line that is nothing but the marker adds nothing to it
    rw [List.append_assoc, List.append_right_eq_self, List.append_eq_nil_iff] at h
    rw [h.2]
  · exact Text.after?_append _ s

/-- The content of an item is what was laid out in it. -/
theorem itemContent?_linesOf (opts : Options) (marker content : Text) :
    itemContent? opts marker (linesOf opts marker content) = some content := by
  by_cases h : content = []
  · simp [linesOf, contentLines, itemLines, itemContent?, unmarked?, h]
  · obtain ⟨s, ss, hsplit⟩ := List.exists_cons_of_ne_nil (Text.splitOn_ne_nil '\n' content)
    rw [linesOf, contentLines, if_neg h, hsplit, itemLines, itemContent?, unmarked?_append,
      mapM_written (unindented?_indented _)]
    simp [← hsplit, Text.join_splitOn]

-- ---------------------------------------------------------------------------
-- Groups of lines
-- ---------------------------------------------------------------------------

/-- Lines of which only the first one starts with a character that is not blank. -/
def Group (blank : Char → Bool) (g : List Text) : Prop :=
  ∃ l ls, g = l :: ls ∧ begins blank l = true ∧ ∀ l' ∈ ls, begins blank l' = false

theorem group_linesOf (hspace : blank ' ' = true) (opts : Options) (content : Text) (hmarker : begins blank marker) :
    Group blank (linesOf opts marker content) := by
  obtain ⟨c, m, rfl⟩ : ∃ c m, marker = c :: m := by
    cases marker with
    | nil => cases hmarker
    | cons c m => exact ⟨c, m, rfl⟩
  unfold linesOf
  cases contentLines content with
  | nil => exact ⟨_, [], rfl, hmarker, by simp⟩
  | cons s ss =>
    refine ⟨_, _, rfl, hmarker, ?_⟩
    intro l hl
    obtain ⟨u, -, rfl⟩ := List.mem_map.1 hl
    unfold indented
    split
    · rfl
    · rw [List.length_cons, Nat.add_right_comm, spaces, List.replicate_succ]
      simp [begins, hspace]

theorem Group.append_gapLines {g : List Text} (h : Group blank g) (tight : Bool) :
    Group blank (g ++ gapLines tight) := by
  obtain ⟨l, ls, rfl, hfirst, hrest⟩ := h
  refine ⟨l, ls ++ gapLines tight, rfl, hfirst, ?_⟩
  intro l' hl'
  rcases List.mem_append.1 hl' with hl' | hl'
  · exact hrest l' hl'
  · cases tight with
    | true => cases hl'
    | false =>
      rw [gapLines, if_neg (by simp), List.mem_singleton] at hl'
      rw [hl']
      rfl

/-- Groups are found again in their lines. -/
theorem splitBy_groups {gs : List (List Text)} (h : ∀ g ∈ gs, Group blank g) :
    gs.flatten.splitBy (fun _ l => !begins blank l) = gs := by
  refine List.splitBy_flatten ?_ ?_ ?_
  · intro hnil
    obtain ⟨l, ls, hcons, -⟩ := h [] hnil
    cases hcons
  · intro g hg
    obtain ⟨l, ls, rfl, -, hrest⟩ := h g hg
    have hpair : (l :: ls).Pairwise fun _ l' => (!begins blank l') = true :=
      List.pairwise_cons.2 ⟨fun l' hl' => by rw [hrest l' hl']; rfl,
        List.pairwise_of_forall_mem_list fun _ _ l' hl' => by rw [hrest l' hl']; rfl⟩
    exact hpair.isChain
  · refine (List.pairwise_of_forall_mem_list fun g hg g' hg' => ?_).isChain
    obtain ⟨l, ls, rfl, -⟩ := h g hg
    obtain ⟨l', ls', rfl, hfirst, -⟩ := h g' hg'
    exact ⟨by simp, by simp, by simp [hfirst]⟩

/-- Groups of lines with the same lines after each but the last. -/
def withGaps (gap : List Text) : List (List Text) → List (List Text)
  | [] => []
  | [g] => [g]
  | g :: g' :: gs => (g ++ gap) :: withGaps gap (g' :: gs)

theorem flatten_withGaps (gap : List Text) (gs : List (List Text)) : (withGaps gap gs).flatten = spread gap gs := by
  fun_induction withGaps gap gs with
  | case1 => rfl
  | case2 g => simp
  | case3 g g' gs ih => rw [List.flatten_cons, ih, spread_cons_cons]

theorem withoutGaps?_withGaps (gap : List Text) (gs : List (List Text)) :
    withoutGaps? gap (withGaps gap gs) = some gs := by
  fun_induction withGaps gap gs with
  | case1 => rfl
  | case2 g => rfl
  | case3 g g' gs ih =>
    have hdrop : (g ++ gap).dropSuffix? gap = some g :=
      List.dropSuffix?_eq_some_iff.2 ⟨gap, rfl, beq_self_eq_true gap⟩
    obtain ⟨u, us, hu⟩ : ∃ u us, withGaps gap (g' :: gs) = u :: us := by
      cases gs with
      | nil => exact ⟨_, _, rfl⟩
      | cons g'' gs => exact ⟨_, _, rfl⟩
    rw [hu] at ih ⊢
    simp [withoutGaps?, hdrop, ih]

theorem group_withGaps {gs : List (List Text)} (h : ∀ g ∈ gs, Group blank g) (tight : Bool) :
    ∀ g ∈ withGaps (gapLines tight) gs, Group blank g := by
  fun_induction withGaps (gapLines tight) gs with
  | case1 => simp
  | case2 g => exact h
  | case3 g g' gs ih =>
    rw [List.forall_mem_cons] at h ⊢
    exact ⟨h.1.append_gapLines tight, ih h.2⟩

-- ---------------------------------------------------------------------------
-- Lists
-- ---------------------------------------------------------------------------

/-- The lines of texts with a separator between neighbours. -/
theorem splitOn_join_separator (tight : Bool) {ts : List Text} (hne : ts ≠ []) :
    Text.splitOn '\n' (Text.join (separator tight) ts) = spread (gapLines tight) (ts.map (Text.splitOn '\n')) := by
  have hgroups : ∀ g ∈ ts.map (Text.splitOn '\n'), g ≠ [] := by
    simp [Text.splitOn_ne_nil]
  have hunbroken : ∀ g ∈ ts.map (Text.splitOn '\n'), Unbroken g := by
    intro g hg
    obtain ⟨t, -, rfl⟩ := List.mem_map.1 hg
    exact unbroken_splitOn t
  have htexts : (ts.map (Text.splitOn '\n')).map (Text.join ['\n']) = ts := by
    simp [Function.comp_def, Text.join_splitOn]
  have hspread : spread (gapLines tight) (ts.map (Text.splitOn '\n')) ≠ [] := by
    obtain ⟨t, us, rfl⟩ := List.exists_cons_of_ne_nil hne
    cases us with
    | nil => simp [Text.splitOn_ne_nil]
    | cons u us => simp [spread_cons_cons, Text.splitOn_ne_nil]
  have hjoin := join_spread tight hgroups
  rw [htexts] at hjoin
  rw [← hjoin, Text.splitOn_join (unbroken_spread tight hunbroken) hspread]

variable {its : List (Text × Text)}

/-- The text of a list, given the marker and the content of each item. -/
def listText (opts : Options) (tight : Bool) (its : List (Text × Text)) : Text :=
  Text.join (separator tight) (its.map fun it => listItem opts it.1 it.2)

theorem itemContents?_linesOf (opts : Options) (its : List (Text × Text)) :
    itemContents? opts (its.map Prod.fst) (its.map fun it => linesOf opts it.1 it.2)
      = some (its.map Prod.snd) := by
  induction its with
  | nil => rfl
  | cons it its ih =>
    rw [List.map_cons, List.map_cons, itemContents?, itemContent?_linesOf, ih]
    rfl

theorem cutGroups_listText (hspace : blank ' ' = true) (opts : Options) (tight : Bool) (hne : its ≠ [])
    (hmarkers : ∀ it ∈ its, Marks blank it.1) :
    cutGroups blank (listText opts tight its)
      = withGaps (gapLines tight) (its.map fun it => linesOf opts it.1 it.2) := by
  have hlines : (its.map fun it => listItem opts it.1 it.2).map (Text.splitOn '\n')
      = its.map fun it => linesOf opts it.1 it.2 := by
    rw [List.map_map]
    exact List.map_congr_left fun it hit => splitOn_listItem opts it.2 (hmarkers it hit).2
  have hgroups : ∀ g ∈ its.map fun it => linesOf opts it.1 it.2, Group blank g := by
    intro g hg
    obtain ⟨it, hit, rfl⟩ := List.mem_map.1 hg
    exact group_linesOf hspace opts it.2 (hmarkers it hit).1
  rw [cutGroups, listText, splitOn_join_separator tight (by simpa using hne), hlines, ← flatten_withGaps,
    splitBy_groups (group_withGaps hgroups tight)]

/-- The contents that are read from the text of a list are those of its items, in order. -/
theorem readItems?_listText (hspace : blank ' ' = true) (opts : Options) (tight : Bool) (hne : its ≠ [])
    (hmarkers : ∀ it ∈ its, Marks blank it.1) :
    readItems? blank opts tight (its.map Prod.fst) (listText opts tight its) = some (its.map Prod.snd) := by
  rw [readItems?, cutGroups_listText hspace opts tight hne hmarkers, withoutGaps?_withGaps]
  exact itemContents?_linesOf opts its

-- ---------------------------------------------------------------------------
-- Nodes
-- ---------------------------------------------------------------------------

variable {n : Node} {ns : List Node} {contents : List Text}

/-- The content of a container: its blocks, laid out. -/
def contentOf (opts : Options) (tight : Bool) (n : Node) : Except Error Text := do
  return joinNonempty (separator tight) (← blocks opts n.children)

/-- Whether a list leaves no empty lines between its blocks. -/
def isTight (n : Node) : Bool := flagAttr n "tight" true

/-- The markers of the items of a list. -/
def markersOf (n : Node) : Except Error (List Text) := do
  let start ← intAttr n "start" 1
  return n.children.mapIdx (itemMarker (flagAttr n "ordered" false) n.markup start)

/-- The contents of the items of a list. -/
def contentsOf (opts : Options) (n : Node) : Except Error (List Text) := n.children.mapM (contentOf opts (isTight n))

theorem block_of_quote (hkind : n.kind = .blockquote) (hcontent : contentOf opts false n = .ok content) :
    block opts n = .ok (quote content) := by
  obtain ⟨kind, value, url, title, markup, info, attrs, children⟩ := n
  cases hkind
  obtain ⟨ts, hts, heq⟩ := exists_of_bind_eq_ok hcontent
  cases heq
  rw [block, hts]
  rfl

theorem exists_items {markerAt : Nat → Node → Text} {i : Nat}
    (hmarker : ∀ k it, markerAt k { it with children := [] } = markerAt k it)
    (hcontents : ns.mapM (contentOf opts tight) = .ok contents) :
    ∃ its : List (Text × Text), items opts tight markerAt i ns = .ok (its.map fun it => listItem opts it.1 it.2)
      ∧ its.map Prod.fst = ns.mapIdx (fun k it => markerAt (i + k) it) ∧ its.map Prod.snd = contents := by
  induction ns generalizing i contents with
  | nil =>
    cases hcontents
    exact ⟨[], rfl, rfl, rfl⟩
  | cons it ns ih =>
    rw [List.mapM_cons] at hcontents
    obtain ⟨c, hc, hcontents⟩ := exists_of_bind_eq_ok hcontents
    obtain ⟨cs, hcs, heq⟩ := exists_of_bind_eq_ok hcontents
    cases heq
    obtain ⟨its, hitems, hmarkers, hsnd⟩ := ih (i := i + 1) hcs
    have hitem : item opts tight (markerAt i) it = .ok (listItem opts (markerAt i it) c) := by
      obtain ⟨ts, hts, heq⟩ := exists_of_bind_eq_ok hc
      cases heq
      rw [← hmarker i it]
      obtain ⟨kind, value, url, title, markup, info, attrs, children⟩ := it
      rw [item, hts]
      rfl
    refine ⟨(markerAt i it, c) :: its, ?_, ?_, ?_⟩
    · rw [items, hitem, hitems]
      rfl
    · rw [List.map_cons, List.mapIdx_cons, hmarkers]
      simp [Nat.add_comm, Nat.add_left_comm]
    · rw [List.map_cons, hsnd]

theorem exists_block_of_list {markers : List Text} (hkind : n.kind = .list) (hmarkers : markersOf n = .ok markers)
    (hcontents : contentsOf opts n = .ok contents) :
    ∃ its : List (Text × Text), block opts n = .ok (listText opts (isTight n) its)
      ∧ its.map Prod.fst = markers ∧ its.map Prod.snd = contents := by
  obtain ⟨start, hstart, heq⟩ := exists_of_bind_eq_ok hmarkers
  cases heq
  have hmarker : ∀ k it, itemMarker (flagAttr n "ordered" false) n.markup start k { it with children := [] }
      = itemMarker (flagAttr n "ordered" false) n.markup start k it := fun _ _ => rfl
  obtain ⟨its, hitems, hfst, hsnd⟩ := exists_items (i := 0) hmarker hcontents
  refine ⟨its, ?_, by simpa using hfst, hsnd⟩
  obtain ⟨kind, value, url, title, markup, info, attrs, children⟩ := n
  cases hkind
  simp only [isTight] at hitems
  rw [block]
  simp only [hstart, ok_bind, hitems]
  rfl

theorem ne_nil_of_markersOf {markers : List Text} (hne : n.children ≠ []) (hmarkers : markersOf n = .ok markers) :
    markers ≠ [] := by
  obtain ⟨start, -, heq⟩ := exists_of_bind_eq_ok hmarkers
  cases heq
  simpa using hne

/-- Quotes and lists are laid out reversibly, whatever is in them: the content of a quote that holds something and
the contents of the items of a list that has some are read back from the text alone, given the markers. -/
theorem container_reversible (hspace : blank ' ' = true) (opts : Options) (n : Node) :
    (∀ content, n.kind = .blockquote → contentOf opts false n = .ok content → content ≠ [] →
      ∃ t, block opts n = .ok t ∧ unquote? t = some content)
    ∧ (∀ markers contents, n.kind = .list → n.children ≠ [] →
      markersOf n = .ok markers → (∀ m ∈ markers, Marks blank m) → contentsOf opts n = .ok contents →
      ∃ t, block opts n = .ok t ∧ readItems? blank opts (isTight n) markers t = some contents) := by
  refine ⟨?_, ?_⟩
  · intro content hkind hcontent hne
    exact ⟨_, block_of_quote hkind hcontent, unquote?_quote hne⟩
  · intro markers contents hkind hne hmarkers hmarks hcontents
    have hne := ne_nil_of_markersOf hne hmarkers
    obtain ⟨its, hblock, rfl, rfl⟩ := exists_block_of_list hkind hmarkers hcontents
    have hits : its ≠ [] := by simpa using hne
    exact ⟨_, hblock, readItems?_listText hspace opts (isTight n) hits (by simpa using hmarks)⟩

/-- A quote of a text with an empty line and a line that looks quoted; a loose numbered list with markers of two
widths, an empty item, and code that looks like an item. -/
theorem container_reversible_sample :
    (∃ t, block {} { kind := .blockquote, children := [{ kind := .html, value := some "<b>\n\n> a".toList }] } = .ok t
      ∧ unquote? t = some "<b>\n\n> a".toList)
    ∧ ∃ t, block {}
        { kind := .list
          attrs := [("tight".toList, .bool false), ("ordered".toList, .bool true), ("start".toList, .int 9)]
          children := [{ kind := .listItem },
            { kind := .listItem, children := [{ kind := .code, value := some "- a\n\n  b".toList }] }] } = .ok t
      ∧ readItems? isIndent {} false ["9.".toList, "10.".toList] t = some [[], "```\n- a\n\n  b\n```".toList] :=
  ⟨(@container_reversible isIndent rfl {} _).1 _ rfl rfl (by decide),
    (@container_reversible isIndent rfl {} _).2 _ _ rfl (by simp) rfl (by unfold Marks; decide) rfl⟩

end Layout
end MdxSafe
