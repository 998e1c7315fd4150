-- SUMMARY: Where expressions stand in a text, and that a scan tells of every one of them, node by node.
import Mathlib.Data.List.Forall2
import Mathlib.Data.List.Infix
import MdxSafe.Proofs.Text.Search
import MdxSafe.Proofs.Tree.Walk
import MdxSafe.Scan.Basic
import MdxSafe.Settings.Basic

/-!
# Expressions in a tree

Reading a text from the left gives expressions that do not overlap, each one from a place where an expression starts to
the first closing brace behind it, and every place where one starts lies inside of them (`AreExpressions`,
`Expression.exists_spans`). So a text has an expression just if one starts somewhere, and a scan gives a warning for
each text node in which one does, and for no other node (`Scan.run_curlyBraces`).
-/

namespace MdxSafe

namespace Expression

variable {t u e : Text} {i : Nat} {spans : List (Nat × Nat)}

-- ---------------------------------------------------------------------------
-- Places
-- ---------------------------------------------------------------------------

/-- A character may stand behind the brace that opens an expression. -/
def MayFollow (c : Char) : Prop := c ≠ '/' ∧ c ≠ '*' ∧ isBlank c = false

/-- An expression starts at a position: an opening brace, a character that may follow it, and somewhere behind that a
closing brace. -/
structure IsStart (t : Text) (i : Nat) : Prop where
  opens : t[i]? = some '\x7b'
  inside : ∃ c, t[i + 1]? = some c ∧ MayFollow c
  closes : ∃ j, i + 2 ≤ j ∧ t[j]? = some '\x7d'

/-- From the first of two positions to the second there is an expression: it starts there and ends at the first closing
brace that may end it. -/
structure IsExpression (t : Text) (span : Nat × Nat) : Prop where
  starts : IsStart t span.1
  ge : span.1 + 2 ≤ span.2
  closes : t[span.2]? = some '\x7d'
  first : ∀ j, span.1 + 2 ≤ j → t[j]? = some '\x7d' → span.2 ≤ j

/-- The expressions of a text, each one behind the one before it, and such that none starts outside of them. -/
structure AreExpressions (t : Text) (spans : List (Nat × Nat)) : Prop where
  each : ∀ span ∈ spans, IsExpression t span
  ordered : spans.Pairwise fun span next => span.2 < next.1
  covers : ∀ i, IsStart t i → ∃ span ∈ spans, span.1 ≤ i ∧ i ≤ span.2

/-- The part of a text between two positions, both included. -/
def part (t : Text) (span : Nat × Nat) : Text := (t.drop span.1).take (span.2 + 1 - span.1)

/-- Positions moved to the right. -/
def shift (n : Nat) (span : Nat × Nat) : Nat × Nat := (n + span.1, n + span.2)

theorem getElem?_append_add (t u : Text) (i : Nat) : (t ++ u)[t.length + i]? = u[i]? := by
  rw [List.getElem?_append_right (Nat.le_add_right _ _), Nat.add_sub_cancel_left]

/-- Whether an expression starts at a position is decided by what stands from there on. -/
theorem isStart_append_iff (t u : Text) (i : Nat) : IsStart (t ++ u) (t.length + i) ↔ IsStart u i := by
  constructor
  · rintro ⟨hopens, ⟨c, hc, hinside⟩, j, hj, hcloses⟩
    obtain ⟨k, rfl⟩ := Nat.exists_eq_add_of_le (show t.length ≤ j by omega)
    rw [Nat.add_assoc, getElem?_append_add] at hc
    rw [getElem?_append_add] at hopens hcloses
    exact ⟨hopens, ⟨c, hc, hinside⟩, k, by omega, hcloses⟩
  · rintro ⟨hopens, ⟨c, hc, hinside⟩, j, hj, hcloses⟩
    refine ⟨?_, ⟨c, ?_, hinside⟩, t.length + j, by omega, ?_⟩
    · rwa [getElem?_append_add]
    · rwa [Nat.add_assoc, getElem?_append_add]
    · rwa [getElem?_append_add]

theorem IsExpression.shift {span : Nat × Nat} (h : IsExpression u span) (t : Text) :
    IsExpression (t ++ u) (shift t.length span) where
  starts := (isStart_append_iff t u span.1).2 h.starts
  ge := by
    have hge := h.ge
    unfold Expression.shift
    omega
  closes := by
    rw [Expression.shift, getElem?_append_add]
    exact h.closes
  first := by
    intro j hj hclose
    unfold Expression.shift at hj ⊢
    obtain ⟨k, rfl⟩ := Nat.exists_eq_add_of_le (show t.length ≤ j by omega)
    rw [getElem?_append_add] at hclose
    have hle := h.first k (by omega) hclose
    omega

theorem part_shift (t u : Text) (span : Nat × Nat) : part (t ++ u) (shift t.length span) = part u span := by
  rw [part, shift, List.drop_append, List.drop_eq_nil_of_le (Nat.le_add_right _ _), List.nil_append,
    Nat.add_sub_cancel_left, part]
  congr 1
  omega

-- ---------------------------------------------------------------------------
-- The expression at the start of a text
-- ---------------------------------------------------------------------------

theorem isExpression_cons {c : Char} (hc : MayFollow c) {body : Text} (hbody : '\x7d' ∉ body) (rest : Text) :
    IsExpression ('\x7b' :: c :: (body ++ '\x7d' :: rest)) (0, body.length + 2) where
  starts := by
    refine ⟨rfl, ⟨c, rfl, hc⟩, body.length + 2, by omega, ?_⟩
    rw [List.getElem?_cons_succ, List.getElem?_cons_succ]
    exact getElem?_append_add body _ 0
  ge := Nat.le_add_left 2 body.length
  closes := by
    rw [List.getElem?_cons_succ, List.getElem?_cons_succ]
    exact getElem?_append_add body _ 0
  first := by
    intro j hj hclose
    obtain ⟨k, rfl⟩ := Nat.exists_eq_add_of_le' (show 2 ≤ j from hj)
    rw [List.getElem?_cons_succ, List.getElem?_cons_succ] at hclose
    refine Nat.add_le_add_right (Nat.le_of_not_lt fun hk => ?_) 2
    rw [List.getElem?_append_left hk] at hclose
    exact hbody (List.mem_of_getElem? hclose)

/-- What is read at the start of a text is an expression there. -/
theorem of_read? (h : read? t = some e) :
    ∃ rest, t = e ++ rest ∧ IsExpression t (0, e.length - 1) ∧ 2 < e.length := by
  unfold read? at h
  split at h
  · next c t =>
    split at h
    · cases h
    · next hc =>
      obtain ⟨⟨body, rest⟩, hcut, rfl⟩ := Option.map_eq_some_iff.1 h
      obtain ⟨rfl, hbody⟩ := Text.cut?_eq_some hcut (List.cons_ne_nil _ _)
      rw [List.singleton_infix_iff] at hbody
      have hfollow : MayFollow c := by simpa [MayFollow, and_assoc, and_comm, and_left_comm] using hc
      refine ⟨rest, by simp, ?_, by simp⟩
      have hlast : ('\x7b' :: c :: body ++ ['\x7d']).length - 1 = body.length + 2 := by simp
      have htext : body ++ ['\x7d'] ++ rest = body ++ '\x7d' :: rest := by simp
      rw [hlast, htext]
      exact isExpression_cons hfollow hbody rest
  · cases h

/-- Where nothing is read, no expression starts. -/
theorem not_isStart_of_read? (h : read? t = none) : ¬ IsStart t 0 := by
  rintro ⟨hopens, ⟨c, hc, hinside⟩, j, hj, hcloses⟩
  rcases t with _ | ⟨b, _ | ⟨d, t⟩⟩
  · cases hopens
  · cases hc
  · cases hopens
    cases hc
    obtain ⟨k, rfl⟩ := Nat.exists_eq_add_of_le' hj
    have hmem : '\x7d' ∈ t := List.mem_of_getElem? hcloses
    obtain ⟨hslash, hstar, hblank⟩ := hinside
    have hfollow : ¬ (isBlank c || decide (c = '/') || decide (c = '*')) = true := by simp [hslash, hstar, hblank]
    rw [read?, if_neg hfollow, Option.map_eq_none_iff, Text.cut?_eq_none_iff, List.singleton_infix_iff] at h
    exact h hmem

-- ---------------------------------------------------------------------------
-- All expressions of a text
-- ---------------------------------------------------------------------------

theorem findFrom_eq (skip : Nat) (t : Text) : findFrom skip t = findAll (t.drop skip) := by
  induction skip generalizing t with
  | zero => rfl
  | succ skip ih =>
    cases t with
    | nil => rfl
    | cons c t => exact ih t

theorem findAll_append {rest : Text} (h : read? (e ++ rest) = some e) (he : 2 < e.length) :
    findAll (e ++ rest) = e :: findAll rest := by
  cases e with
  | nil => cases he
  | cons c e =>
    rw [List.cons_append] at h ⊢
    rw [findAll, findFrom, h]
    dsimp only
    rw [findFrom_eq, List.length_cons, Nat.add_sub_cancel, List.drop_left]

theorem findAll_cons {c : Char} (h : read? (c :: t) = none) : findAll (c :: t) = findAll t := by
  rw [findAll, findFrom, h]
  rfl

/-- The expressions of a text, given those that start in a leading part of it, none of which leads out of that part,
and those of the rest. -/
theorem AreExpressions.append {lead : Text} {own : List (Nat × Nat)}
    (hown : ∀ span ∈ own, IsExpression (lead ++ u) span) (hordered : own.Pairwise fun span next => span.2 < next.1)
    (hwithin : ∀ span ∈ own, span.2 < lead.length)
    (hcovers : ∀ i < lead.length, IsStart (lead ++ u) i → ∃ span ∈ own, span.1 ≤ i ∧ i ≤ span.2)
    (h : AreExpressions u spans) : AreExpressions (lead ++ u) (own ++ spans.map (Expression.shift lead.length)) where
  each := by
    intro span hspan
    rcases List.mem_append.1 hspan with hspan | hspan
    · exact hown span hspan
    · obtain ⟨inner, hinner, rfl⟩ := List.mem_map.1 hspan
      exact (h.each inner hinner).shift lead
  ordered := by
    rw [List.pairwise_append]
    refine ⟨hordered, List.pairwise_map.2 (h.ordered.imp fun hlt => Nat.add_lt_add_left hlt lead.length), ?_⟩
    intro span hspan next hnext
    obtain ⟨next, -, rfl⟩ := List.mem_map.1 hnext
    exact (hwithin span hspan).trans_le (Nat.le_add_right _ _)
  covers := by
    intro i hi
    by_cases hlt : i < lead.length
    · obtain ⟨span, hspan, hin⟩ := hcovers i hlt hi
      exact ⟨span, List.mem_append_left _ hspan, hin⟩
    · obtain ⟨k, rfl⟩ := Nat.exists_eq_add_of_le (Nat.le_of_not_lt hlt)
      obtain ⟨span, hspan, hle, hge⟩ := h.covers k ((isStart_append_iff lead u k).1 hi)
      exact ⟨_, List.mem_append_right _ (List.mem_map_of_mem hspan), Nat.add_le_add_left hle _,
        Nat.add_le_add_left hge _⟩

theorem areExpressions_nil : AreExpressions [] [] where
  each := nofun
  ordered := .nil
  covers := by
    rintro i ⟨hopens, -, -⟩
    cases hopens

/-- What is found in a text are its expressions. -/
theorem exists_spans (t : Text) : ∃ spans, AreExpressions t spans ∧ findAll t = spans.map (part t) := by
  induction hlength : t.length using Nat.strong_induction_on generalizing t with
  | _ length ih =>
    cases hread : read? t with
    | some e =>
      obtain ⟨rest, rfl, hfirst, he⟩ := of_read? hread
      obtain ⟨spans, hspans, hfound⟩ := ih rest.length (by rw [List.length_append] at hlength; omega) rest rfl
      refine ⟨[(0, e.length - 1)] ++ spans.map (shift e.length), ?_, ?_⟩
      · refine hspans.append (List.forall_mem_singleton.2 hfirst) (List.pairwise_singleton _ _) ?_ ?_
        · exact List.forall_mem_singleton.2 (Nat.sub_one_lt (by omega))
        · exact fun i hi _ => ⟨_, List.mem_singleton_self _, Nat.zero_le i, Nat.le_sub_one_of_lt hi⟩
      · have hpart : part (e ++ rest) (0, e.length - 1) = e := by
          have hle : e.length - 1 + 1 - 0 = e.length := by omega
          rw [part, List.drop_zero, hle, List.take_left]
        rw [findAll_append hread he, hfound, List.map_append, List.map_singleton, hpart, List.map_map,
          List.singleton_append]
        congr 2
        exact funext fun span => (part_shift e rest span).symm
    | none =>
      cases t with
      | nil => exact ⟨[], areExpressions_nil, rfl⟩
      | cons c t =>
        obtain ⟨spans, hspans, hfound⟩ := ih t.length (by rw [← hlength]; exact Nat.lt_succ_self _) t rfl
        have hnone := not_isStart_of_read? hread
        refine ⟨spans.map (shift 1), ?_, ?_⟩
        · have hall : AreExpressions ([c] ++ t) ([] ++ spans.map (shift [c].length)) := by
            refine hspans.append nofun .nil nofun fun i hi hstart => ?_
            rw [Nat.lt_one_iff.1 hi] at hstart
            exact absurd hstart hnone
          exact hall
        · rw [findAll_cons hread, hfound, List.map_map]
          congr 1
          exact funext fun span => (part_shift [c] t span).symm

/-- An expression starts somewhere in a text. -/
def HasStart (t : Text) : Prop := ∃ i, IsStart t i

/-- Something is found in a text just if an expression starts somewhere in it. -/
theorem hasStart_iff : HasStart t ↔ findAll t ≠ [] := by
  obtain ⟨spans, hspans, hfound⟩ := exists_spans t
  rw [hfound, ne_eq, List.map_eq_nil_iff]
  constructor
  · rintro ⟨i, hi⟩ rfl
    obtain ⟨span, hspan, -⟩ := hspans.covers i hi
    cases hspan
  · intro hne
    obtain ⟨span, hspan⟩ := List.exists_mem_of_ne_nil spans hne
    exact ⟨span.1, (hspans.each span hspan).starts⟩

instance (t : Text) : Decidable (HasStart t) := decidable_of_iff _ hasStart_iff.symm

end Expression

-- ---------------------------------------------------------------------------
-- Trees
-- ---------------------------------------------------------------------------

namespace Scan

open Expression

variable {s : Settings} {source : Text} {n : Node} {w : Warning}

/-- A warning tells of all expressions in the payload of a node. -/
structure TellsOf (s : Settings) (source : Text) (n : Node) (w : Warning) : Prop where
  source_eq : w.source = source
  excerpt_eq : w.excerpt = n.payload.excerpt s.excerptLength
  code_eq : w.code = "CURLY_BRACE_EXPRESSION".toList
  findings : ∃ spans, AreExpressions n.payload spans ∧ w.findings = spans.map (part n.payload)

/-- The warning about a node whose payload has expressions. -/
def warning (s : Settings) (source : Text) (n : Node) : Warning :=
  ⟨source, n.payload.excerpt s.excerptLength, findAll n.payload, Diagnostic.curlyBraces.code⟩

theorem tellsOf_warning (s : Settings) (source : Text) (n : Node) : TellsOf s source n (warning s source n) :=
  ⟨rfl, rfl, rfl, exists_spans n.payload⟩

theorem warn?_curlyBraces (s : Settings) (source : Text) (n : Node) :
    warn? s.excerptLength source .curlyBraces n = if HasStart n.payload then some (warning s source n) else none := by
  have hfind : Diagnostic.curlyBraces.find n.payload = findAll n.payload := rfl
  unfold warn?
  rw [hfind]
  cases h : findAll n.payload with
  | nil => rw [if_neg fun hstart => hasStart_iff.1 hstart h]
  | cons e es =>
    rw [if_pos (hasStart_iff.2 (by rw [h]; exact List.cons_ne_nil e es)), warning, h]

theorem filterMap_warn?_curlyBraces (ns : List Node) :
    ns.filterMap (warn? s.excerptLength source .curlyBraces)
      = (ns.filter fun n => HasStart n.payload).map (warning s source) := by
  induction ns with
  | nil => rfl
  | cons n ns ih =>
    by_cases h : HasStart n.payload
    · rw [List.filterMap_cons_some ((warn?_curlyBraces s source n).trans (if_pos h)), ih]
      simp [h]
    · rw [List.filterMap_cons_none ((warn?_curlyBraces s source n).trans (if_neg h)), ih]
      simp [h]

/-- A scan for expressions gives one warning for each text node in which an expression starts, in document order at any
depth, and none for other nodes. Each warning tells of all expressions of its node. -/
theorem run_curlyBraces (s : Settings) (source : Text) (tree : Node) :
    List.Forall₂ (TellsOf s source) (tree.nodes.filter fun n => n.kind = .text ∧ HasStart n.payload)
      (run s.excerptLength [.curlyBraces] source tree).warnings := by
  have htargets : (Node.Predicate.kinds Diagnostic.curlyBraces.targets).matches
      = fun n => decide (n.kind = .text) := funext fun n => decide_eq_decide.2 List.mem_singleton
  have hselected : (tree.nodes.filter fun n => n.kind = .text).filter (fun n => HasStart n.payload)
      = tree.nodes.filter fun n => n.kind = .text ∧ HasStart n.payload := by
    rw [List.filter_filter]
    exact List.filter_congr fun n _ => by rw [Bool.decide_and, Bool.and_comm]
  have hwarnings : (run s.excerptLength [.curlyBraces] source tree).warnings
      = (tree.nodes.filter fun n => n.kind = .text ∧ HasStart n.payload).map (warning s source) := by
    rw [run, List.flatMap_singleton, Node.collect_eq, htargets, filterMap_warn?_curlyBraces, hselected]
  rw [hwarnings, List.forall₂_map_right_iff, List.forall₂_same]
  exact fun n _ => tellsOf_warning s source n

end Scan

end MdxSafe
