-- SUMMARY: The tokens of running text and the tame nodes that they file.
import Mathlib.Data.List.Forall2
import MdxSafe.Proofs.Layout.Break
import MdxSafe.Proofs.Tree.Filing

/-!
# Tokens that file tame nodes

`Seat.Takes` gives every token of running text a seat. A token in a free seat files a tame node wherever it stands, or
opens or closes one. An autolink takes three seats in a row, as nothing is asked of the text it shows. Tokens on a row
of seats file tame nodes (`preserves_isTame`).
-/

namespace MdxSafe

-- ---------------------------------------------------------------------------
-- Tokens
-- ---------------------------------------------------------------------------

namespace Token

variable {deep : Prop} {t : Token}

/-- A token of running text that files a tame node, or that opens or closes one. -/
inductive IsTame (deep : Prop) : Token → Prop
  | text {t : Token} (hkind : t.kind = .text) (hstands : t.nesting = .stands) (hcontent : '\n' ∈ t.content → deep) :
    IsTame deep t
  | special {t : Token} (hkind : t.kind = .textSpecial) (hstands : t.nesting = .stands) (hne : t.markup ≠ [])
    (hmarkup : '\n' ∉ t.markup) : IsTame deep t
  | lineEnd {t : Token} (hkind : t.kind = .softBreak ∨ t.kind = .hardBreak) (hstands : t.nesting = .stands) :
    IsTame deep t
  | code {t : Token} (hkind : t.kind = .codeInline) (hstands : t.nesting = .stands) (hmarkup : '\n' ∉ t.markup)
    (hcontent : '\n' ∉ t.content) : IsTame deep t
  | html {t : Token} {u : Text} (hkind : t.kind = .htmlInline) (hstands : t.nesting = .stands)
    (hcontent : t.content = '<' :: (u ++ ['>'])) : IsTame deep t
  | opens {t : Token} (hkind : t.kind = .emOpen ∨ t.kind = .strongOpen ∨ t.kind = .strikeOpen)
    (hopens : t.nesting = .opens) (hmarkup : '\n' ∉ t.markup) : IsTame deep t
  | link {t : Token} (hkind : t.kind = .linkOpen) (hopens : t.nesting = .opens) (hmarkup : t.markup = [])
    (hhref : '\n' ∉ t.attrText "href") : IsTame deep t
  | closes {t : Token}
    (hkind : t.kind = .emClose ∨ t.kind = .strongClose ∨ t.kind = .strikeClose ∨ t.kind = .linkClose)
    (hcloses : t.nesting = .closes) : IsTame deep t
  | image {t : Token} (hkind : t.kind = .image) (hstands : t.nesting = .stands) (hsrc : '\n' ∉ t.attrText "src")
    (hinside : ∀ n, Node.emptyRoot.assemble t.children = .ok n → ∀ m ∈ n.children, m.IsTame deep) : IsTame deep t

/-- A text is tame only as a text. -/
theorem IsTame.of_text (h : t.IsTame deep) (hkind : t.kind = .text) : t.nesting = .stands ∧ ('\n' ∈ t.content → deep) := by
  cases h with
  | text _ hstands hcontent => exact ⟨hstands, hcontent⟩
  | lineEnd hkind' | opens hkind' | closes hkind' => simp [hkind] at hkind'
  | special hkind' | code hkind' | html hkind' | link hkind' | image hkind' => cases hkind.symm.trans hkind'

theorem isTame_literal {u : Text} (h : '\n' ∈ u → deep) : IsTame deep (literal u) := .text rfl rfl h

end Token

-- ---------------------------------------------------------------------------
-- Seats
-- ---------------------------------------------------------------------------

/-- What a token may be, by its place among others: any tame one with so many links, or one of the three of an
autolink. -/
inductive Seat where
  | free (links : Nat)
  | autoOpen | autoText | autoClose
  deriving DecidableEq

namespace Seat

/-- Whether a token may take a seat. -/
def Takes (deep : Prop) : Seat → Token → Prop
  | free k, t => t.IsTame deep ∧ t.links = k
  | autoOpen, t => t.kind = .linkOpen ∧ t.nesting = .opens ∧ t.markup = "autolink".toList
      ∧ '\n' ∉ t.attrText "href" ∧ t.attrText? "title" = none
  | autoText, t => t.kind = .text ∧ t.nesting = .stands
  | autoClose, t => t.kind = .linkClose ∧ t.nesting = .closes

/-- The number of links of what may take a seat. -/
def links : Seat → Nat
  | free k => k
  | autoOpen => 1
  | _ => 0

variable {deep : Prop} {l : Seat} {t : Token}

theorem Takes.links_eq (h : l.Takes deep t) : t.links = l.links := by
  cases l with
  | free k => exact h.2
  | autoOpen => exact Token.links_of_linkOpen h.1 h.2.1
  | autoText => exact Token.links_of_kind (by simp [h.1])
  | autoClose => exact Token.links_of_kind (by simp [h.1])

end Seat

/-- Seats in a row: those of an autolink stand together. -/
inductive IsRow : List Seat → Prop
  | nil : IsRow []
  | free (k : Nat) {ls : List Seat} (h : IsRow ls) : IsRow (.free k :: ls)
  | auto {ls : List Seat} (h : IsRow ls) : IsRow (.autoOpen :: .autoText :: .autoClose :: ls)

namespace IsRow

variable {ls ms : List Seat} {i : Nat}

theorem append (h : IsRow ls) (h' : IsRow ms) : IsRow (ls ++ ms) := by
  induction h with
  | nil => exact h'
  | free k _ ih => exact .free k ih
  | auto _ ih => exact .auto ih

/-- A free seat follows a free one, or the last one of an autolink. -/
theorem before_free (h : IsRow ls) {k : Nat} (hfree : ls[i + 1]? = some (.free k)) :
    (∃ j, ls[i]? = some (.free j)) ∨ ls[i]? = some .autoClose := by
  induction h generalizing i with
  | nil => simp at hfree
  | free j _ ih =>
    cases i with
    | zero => exact .inl ⟨j, rfl⟩
    | succ i => exact ih (by simpa using hfree)
  | auto _ ih =>
    match i with
    | 0 | 1 => simp at hfree
    | 2 => exact .inr rfl
    | i + 3 => exact ih (by simpa using hfree)

end IsRow

/-- Tokens that take a row of seats. -/
def AreSeated (deep : Prop) (ts : List Token) : Prop := ∃ ls, IsRow ls ∧ List.Forall₂ (Seat.Takes deep) ls ts

namespace AreSeated

variable {deep : Prop} {t : Token} {ts us : List Token}

theorem nil : AreSeated deep [] := ⟨[], .nil, .nil⟩

theorem cons {k : Nat} (ht : (Seat.free k).Takes deep t) (h : AreSeated deep ts) : AreSeated deep (t :: ts) := by
  obtain ⟨ls, hrow, hts⟩ := h
  exact ⟨.free k :: ls, .free k hrow, .cons ht hts⟩

theorem append (h : AreSeated deep ts) (h' : AreSeated deep us) : AreSeated deep (ts ++ us) := by
  obtain ⟨ls, hrow, hts⟩ := h
  obtain ⟨ms, hrow', hus⟩ := h'
  exact ⟨ls ++ ms, hrow.append hrow', List.rel_append hts hus⟩

/-- Tame tokens without links are seated wherever they stand. -/
theorem single (ht : t.IsTame deep) (h : t.kind ∉ [.linkOpen, .inline, .image]) : AreSeated deep [t] :=
  nil.cons (k := 0) ⟨ht, Token.links_of_kind h⟩

end AreSeated

-- ---------------------------------------------------------------------------
-- Nodes
-- ---------------------------------------------------------------------------

namespace Token

variable {deep : Prop} {t : Token}

theorem IsTame.isPlain (h : t.IsTame deep) : Assembly.isPlain t := by
  have hkind : t.kind.isTableSection = false ∧ t.kind ≠ .inline := by
    cases h with
    | lineEnd hkind => rcases hkind with h | h <;> rw [h] <;> exact ⟨rfl, nofun⟩
    | opens hkind => rcases hkind with h | h | h <;> rw [h] <;> exact ⟨rfl, nofun⟩
    | closes hkind => rcases hkind with h | h | h | h <;> rw [h] <;> exact ⟨rfl, nofun⟩
    | text hkind | special hkind | code hkind | html hkind | link hkind | image hkind =>
      rw [hkind]
      exact ⟨rfl, nofun⟩
  simp [Assembly.isPlain, hkind]

/-- A tame token that stands alone, and is no image, makes a tame leaf. -/
theorem IsTame.leafNode (h : t.IsTame deep) (hstands : t.nesting = .stands) (himage : t.kind ≠ .image) :
    t.leafNode.IsTame deep := by
  obtain ⟨kind, nesting, tag, attrs, content, markup, info, hidden, children⟩ := t
  cases h with
  | text hkind _ hcontent =>
    cases hkind
    exact .text rfl hcontent rfl
  | special hkind _ hne hmarkup =>
    cases hkind
    refine .escape rfl ?_ rfl
    have hpayload : (if markup = [] then content else markup) = markup := if_neg hne
    simpa only [Token.leafNode, Node.payload, hpayload, Option.getD_some] using hmarkup
  | lineEnd hkind =>
    rcases hkind with hkind | hkind
    · cases hkind
      exact .lineEnd (.inl rfl) rfl
    · cases hkind
      exact .lineEnd (.inr rfl) rfl
  | code hkind _ hmarkup hcontent =>
    cases hkind
    refine .code rfl ?_ hcontent rfl
    show '\n' ∉ if markup = [] then ['`'] else markup
    split
    · decide
    · exact hmarkup
  | html hkind _ hcontent =>
    cases hkind
    exact .html rfl hcontent rfl
  | opens _ hopens | link _ hopens | closes _ hopens =>
    rw [hstands] at hopens
    cases hopens
  | image hkind => exact absurd hkind himage

end Token

namespace Assembly

variable {deep : Prop} {t : Token} {ts : List Token}

/-- An element that a tame token opens is tame with tame nodes in it. -/
theorem keeps_isTame {n : Node} {inHead : Bool} (h : t.IsTame deep) (hopens : t.nesting = .opens)
    (hopen : t.openedNode inHead = .ok n) : ({ node := n } : Frame).Keeps (Node.IsTame deep) := by
  obtain ⟨kind, nesting, tag, attrs, content, markup, info, hidden, children⟩ := t
  cases h with
  | opens hkind _ hmarkup =>
    rcases hkind with hkind | hkind | hkind <;> cases hkind <;> cases hopen
    · exact .of_node nofun fun ns hns => .marked (.inl rfl) hmarkup hns
    · exact .of_node nofun fun ns hns => .marked (.inr (.inl rfl)) hmarkup hns
    · exact .of_node nofun fun ns hns => .marked (.inr (.inr rfl)) hmarkup hns
  | link hkind _ hmarkup hhref =>
    cases hkind
    cases hmarkup
    cases hopen
    exact .of_node nofun fun ns hns => .link rfl rfl hhref hns
  | closes _ hcloses =>
    rw [hopens] at hcloses
    cases hcloses
  | text _ hstands | special _ hstands | lineEnd _ hstands | code _ hstands | html _ hstands | image _ hstands =>
    rw [hopens] at hstands
    cases hstands

/-- A tame token files a tame node, or opens or closes one. -/
theorem sound_isTame {s s' : State} (ht : t.IsTame deep) (h : Does s t s')
    (hs : Sound (Node.IsTame deep) s.top s.outer) : Sound (Node.IsTame deep) s'.top s'.outer := by
  cases h with
  | ofSection hsection =>
    rw [isTableSection_of_isPlain ht.isPlain] at hsection
    cases hsection
  | opens _ hopens hopen => exact sound_open hs (keeps_isTame ht hopens hopen)
  | closes => exact sound_close hs
  | running hkind =>
    have hplain := ht.isPlain
    rw [isPlain, hkind] at hplain
    cases hplain
  | image hkind _ hinside =>
    cases ht with
    | image _ _ hsrc htame =>
      refine hs.file (.image ?_ ?_ fun m hm => htame _ hinside m hm)
      · simp [Token.leafNode, hkind]
      · simpa [Token.leafNode, hkind, Node.target] using hsrc
    | lineEnd hkind' | opens hkind' | closes hkind' => simp [hkind] at hkind'
    | text hkind' | special hkind' | code hkind' | html hkind' | link hkind' => cases hkind.symm.trans hkind'
  | leaf _ himage hstands => exact hs.file (ht.leafNode hstands himage)

/-- A link that holds its own target as the one it was read with is an autolink, if its markup says so. -/
theorem isAutolink_of_source {n : Node} (hmarkup : n.markup = "autolink".toList)
    (hsource : n.attrs = [("source_url".toList, .text n.target)]) : Layout.isAutolink n = true := by
  have hget : n.attrs.get "source_url" = .text n.target := by
    simp only [hsource, Fields.get, Fields.get?, List.find?_cons, decide_true, Option.map_some, Option.getD_some]
  rw [Layout.isAutolink, hmarkup, hget]
  simp only [decide_true, Bool.and_self]

/-- The three tokens of an autolink file a tame link over a text. -/
theorem preserves_autolink {o u c : Token} (ho : Seat.autoOpen.Takes deep o) (hu : Seat.autoText.Takes deep u)
    (hc : Seat.autoClose.Takes deep c) : Preserves (Node.IsTame deep) [o, u, c] := by
  obtain ⟨hokind, hopens, hmarkup, hhref, htitle⟩ := ho
  let n : Node :=
    { kind := .link, markup := o.markup, info := o.info, url := some (o.attrText "href"), title := o.attrText? "title"
      attrs := [("source_url".toList, .text (o.attrText "href"))] }
  have hopen : ∀ inHead, o.openedNode inHead = .ok n := by
    intro inHead
    simp only [Token.openedNode, hokind, TokenKind.container]
    rfl
  have hplain : ∀ t : Token, t.kind ∈ [.linkOpen, .text, .linkClose] → isPlain t := by
    intro t ht
    simp only [List.mem_cons, List.not_mem_nil, or_false] at ht
    rcases ht with h | h | h <;> rw [isPlain, h] <;> rfl
  have hsteps : ∀ s, steps s [o, u, c] = .ok (s.fileAll [{ n with children := [u.leafNode] }]) := by
    intro s
    rw [steps, step_opens s (isTableSection_of_isPlain (hplain o (by simp [hokind]))) hopens, hopen]
    show steps (s.open n) [u, c] = _
    rw [steps, step_leaf _ (hplain u (by simp [hu.1])) (by simp [hu.1]) hu.2]
    show steps ((s.open n).file u.leafNode) [c] = _
    rw [steps, step_closes _ (isTableSection_of_isPlain (hplain c (by simp [hc.1]))) hc.2]
    rfl
  refine .of_fileAll hsteps fun m hm => ?_
  obtain rfl := List.mem_singleton.1 hm
  refine .autolink rfl (isAutolink_of_source hmarkup rfl) hhref htitle ?_
  simp [Token.leafNode, hu.1]

/-- Tokens on a row of seats file tame nodes. -/
theorem preserves_isTame (h : AreSeated deep ts) : Preserves (Node.IsTame deep) ts := by
  obtain ⟨ls, hrow, h⟩ := h
  induction hrow generalizing ts with
  | nil =>
    cases h
    exact .nil
  | free k _ ih =>
    cases h with
    | cons ht hts => exact .cons (sound_isTame ht.1) (ih hts)
  | auto _ ih =>
    obtain _ | @⟨_, o, _, _, ho, h⟩ := h
    obtain _ | @⟨_, u, _, _, hu, h⟩ := h
    obtain _ | @⟨_, c, _, ts, hc, hts⟩ := h
    exact (preserves_autolink ho hu hc).append (ih hts)

end Assembly
end MdxSafe
