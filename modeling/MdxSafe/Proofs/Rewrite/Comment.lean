-- SUMMARY: What converting comments leaves of a text: which comments go, and which come into being.
import MdxSafe.Proofs.Text.Search
import MdxSafe.Proofs.Text.Trim
import MdxSafe.Rewrite.Comment

/-!
# Converted texts

`Converted` says what a text is converted to, comment by comment. Every comment that goes takes one `<` with it, so
a conversion that changes a text leaves fewer of them, and a text stays as it is just if it holds no comment.
Comments that were converted can leave a comment behind: of an opener inside a comment and a closer after it.
-/

namespace MdxSafe.Comment

variable {t u : Text}

-- ---------------------------------------------------------------------------
-- Comments in a text
-- ---------------------------------------------------------------------------

/-- A text starts with a comment: an opener, and a closer somewhere after it. -/
def Starts (t : Text) : Prop := ∃ rest, t = opener ++ rest ∧ closer <:+: rest

/-- A text holds a comment. -/
def Occurs (t : Text) : Prop := ∃ lead rest, t = lead ++ rest ∧ opener <:+: lead ∧ closer <:+: rest

/-- A text holds an opener between another one and the closer that follows. -/
def Nested (t : Text) : Prop :=
  ∃ lead body rest, t = lead ++ (opener ++ (body ++ (opener ++ rest))) ∧ ¬ closer <:+: body ∧ closer <:+: rest

theorem opener_append (t : Text) : opener ++ t = '<' :: '!' :: '-' :: '-' :: t := rfl

theorem closer_append (t : Text) : closer ++ t = '-' :: '-' :: '>' :: t := rfl

theorem not_occurs_nil : ¬ Occurs [] := by
  rintro ⟨lead, rest, heq, hopener, -⟩
  obtain ⟨rfl, -⟩ := List.append_eq_nil_iff.1 heq.symm
  exact absurd (List.infix_nil.1 hopener) (by decide)

theorem occurs_cons {c : Char} : Occurs (c :: t) ↔ Starts (c :: t) ∨ Occurs t := by
  constructor
  · rintro ⟨lead, rest, heq, hopener, hcloser⟩
    cases lead with
    | nil => exact absurd (List.infix_nil.1 hopener) (by decide)
    | cons d lead =>
      obtain ⟨rfl, rfl⟩ := List.cons_eq_cons.1 (heq.trans (List.cons_append ..))
      rcases List.infix_cons_iff.1 hopener with ⟨v, hv⟩ | hopener
      · refine .inl ⟨v ++ rest, ?_, hcloser.trans (List.suffix_append v rest).isInfix⟩
        rw [← List.append_assoc, hv, List.cons_append]
      · exact .inr ⟨lead, rest, rfl, hopener, hcloser⟩
  · rintro (⟨rest, heq, hcloser⟩ | ⟨lead, rest, rfl, hopener, hcloser⟩)
    · exact ⟨opener, rest, heq, List.infix_rfl, hcloser⟩
    · exact ⟨c :: lead, rest, rfl, hopener.trans (List.suffix_cons c lead).isInfix, hcloser⟩

theorem Occurs.of_infix (h : Occurs t) (hin : t <:+: u) : Occurs u := by
  obtain ⟨lead, rest, rfl, hopener, hcloser⟩ := h
  obtain ⟨x, y, rfl⟩ := hin
  refine ⟨x ++ lead, rest ++ y, by simp, ?_, ?_⟩
  · exact hopener.trans (List.suffix_append x lead).isInfix
  · exact hcloser.trans (List.prefix_append rest y).isInfix

/-- A comment across a character that is in neither mark is opened on the one side and closed on the other. -/
theorem occurs_of_occurs_append_cons {c : Char} {x y : Text} (hnotOpener : c ∉ opener) (hnotCloser : c ∉ closer)
    (h : Occurs (x ++ c :: y)) : Occurs x ∨ (opener <:+: x ∧ closer <:+: y) ∨ Occurs y := by
  obtain ⟨lead, rest, heq, hopener, hcloser⟩ := h
  rcases List.append_eq_append_iff.1 heq with ⟨v, rfl, hv⟩ | ⟨v, rfl, rfl⟩
  · cases v with
    | nil =>
      rw [List.append_nil] at hopener
      rw [← List.nil_append rest, ← hv, ← List.nil_append (c :: y)] at hcloser
      rcases Text.infix_of_infix_append_cons hnotCloser hcloser with hcloser | hcloser
      · exact absurd hcloser (by decide)
      · exact .inr (.inl ⟨hopener, hcloser⟩)
    | cons d v =>
      obtain ⟨rfl, rfl⟩ := List.cons_eq_cons.1 (hv.trans (List.cons_append ..))
      rcases Text.infix_of_infix_append_cons hnotOpener hopener with hopener | hopener
      · exact .inr (.inl ⟨hopener, hcloser.trans (List.suffix_append v rest).isInfix⟩)
      · exact .inr (.inr ⟨v, rest, rfl, hopener, hcloser⟩)
  · rcases Text.infix_of_infix_append_cons hnotCloser hcloser with hcloser | hcloser
    · exact .inl ⟨lead, v, rfl, hopener, hcloser⟩
    · exact .inr (.inl ⟨hopener.trans (List.prefix_append lead v).isInfix, hcloser⟩)

theorem Nested.append (h : Nested t) (x : Text) : Nested (x ++ t) := by
  obtain ⟨lead, body, rest, rfl, hbody, hrest⟩ := h
  exact ⟨x ++ lead, body, rest, (List.append_assoc ..).symm, hbody, hrest⟩

theorem Nested.two_le_count (h : Nested t) : 2 ≤ t.count '!' := by
  obtain ⟨lead, body, rest, rfl, -, -⟩ := h
  have hopener : opener.count '!' = 1 := rfl
  simp only [List.count_append, hopener]
  omega

theorem nested_of_infix {raw : Text} (hraw : ¬ closer <:+: raw) (h : opener <:+: raw) (rest : Text) :
    Nested (opener ++ (raw ++ (closer ++ rest))) := by
  obtain ⟨x, y, rfl⟩ := h
  refine ⟨[], x, y ++ (closer ++ rest), by simp, fun hx => hraw ?_, ?_⟩
  · exact hx.trans (List.append_assoc x opener y ▸ (List.prefix_append x (opener ++ y)).isInfix)
  · exact (List.prefix_append closer rest).isInfix.trans (List.suffix_append y _).isInfix

-- ---------------------------------------------------------------------------
-- Reading a comment
-- ---------------------------------------------------------------------------

theorem read?_eq_none_iff : read? t = none ↔ ¬ Starts t := by
  rw [read?]
  cases hafter : Text.after? opener t with
  | none =>
    have hno := Text.after?_eq_none_iff.1 hafter
    simp only [true_iff]
    rintro ⟨rest, rfl, -⟩
    exact hno (List.prefix_append opener rest)
  | some rest =>
    obtain rfl := Text.after?_eq_some_iff.1 hafter
    have hiff : Starts (opener ++ rest) ↔ closer <:+: rest := by
      constructor
      · rintro ⟨rest', heq, hcloser⟩
        rwa [List.append_cancel_left heq]
      · exact fun h => ⟨rest, rfl, h⟩
    rw [hiff, ← Text.cut?_eq_none_iff]
    dsimp only
    cases Text.cut? closer rest with
    | none => simp
    | some r => simp

/-- The comment that is read ends at the first closer. -/
theorem exists_of_read? {r : Text × Nat} (h : read? t = some r) :
    ∃ raw rest, t = opener ++ (raw ++ (closer ++ rest)) ∧ ¬ closer <:+: raw
      ∧ r = (Text.trimBlank raw, opener.length + raw.length + closer.length) := by
  rw [read?] at h
  cases hafter : Text.after? opener t with
  | none => simp [hafter] at h
  | some rest =>
    rw [hafter] at h
    dsimp only at h
    cases hcut : Text.cut? closer rest with
    | none => simp [hcut] at h
    | some q =>
      obtain ⟨raw, rest'⟩ := q
      obtain ⟨rfl, hraw⟩ := Text.cut?_eq_some hcut (by decide)
      rw [hcut] at h
      cases h
      refine ⟨raw, rest', ?_, hraw, rfl⟩
      rw [Text.after?_eq_some_iff.1 hafter, List.append_assoc]

-- ---------------------------------------------------------------------------
-- Conversion, comment by comment
-- ---------------------------------------------------------------------------

/-- What a text is converted to: a comment at its start becomes an expression, any other character stays. -/
inductive Converted : Text → Text → Prop where
  | nil : Converted [] []
  | char (c : Char) {t u : Text} : ¬ Starts (c :: t) → Converted t u → Converted (c :: t) (c :: u)
  | comment (raw : Text) {t u : Text} : ¬ closer <:+: raw → Converted t u →
      Converted (opener ++ (raw ++ (closer ++ t))) (expression (Text.trimBlank raw) ++ u)

theorem convertFrom_eq (skip : Nat) (t : Text) : convertFrom skip t = convert (t.drop skip) := by
  induction t generalizing skip with
  | nil => cases skip <;> rfl
  | cons c t ih =>
    cases skip with
    | zero => rfl
    | succ skip => rw [convertFrom, ih, List.drop_succ_cons]

theorem converted_convert : (t : Text) → Converted t (convert t)
  | [] => .nil
  | c :: t => by
    rw [convert, convertFrom]
    cases hread : read? (c :: t) with
    | none => exact .char c (read?_eq_none_iff.1 hread) (converted_convert t)
    | some r =>
      obtain ⟨raw, rest, heq, hraw, rfl⟩ := exists_of_read? hread
      have ht : t = opener.tail ++ (raw ++ (closer ++ rest)) := (List.cons_eq_cons.1 heq).2
      have hdrop : t.drop (opener.length + raw.length + closer.length - 1) = rest := by
        have hlen : opener.length + raw.length + closer.length - 1 = (opener.tail ++ raw ++ closer).length := by
          simp [opener]
          omega
        rw [ht, hlen, ← List.append_assoc, ← List.append_assoc, List.drop_left]
      have hlt : rest.length < t.length + 1 := by
        rw [ht]
        simp only [List.length_append]
        omega
      dsimp only
      rw [convertFrom_eq, hdrop, heq]
      exact .comment raw hraw (converted_convert rest)
termination_by t => t.length

-- ---------------------------------------------------------------------------
-- Comments that go
-- ---------------------------------------------------------------------------

theorem count_expression_trimBlank_le (raw : Text) : (expression (Text.trimBlank raw)).count '<' ≤ raw.count '<' := by
  have htrim : (Text.trimBlank raw).Sublist raw := Text.trim_sublist isBlank raw
  have hexpression : (expression (Text.trimBlank raw)).count '<' = (Text.trimBlank raw).count '<' := by
    simp [expression]
  rw [hexpression]
  exact htrim.count_le '<'

namespace Converted

theorem count_le (h : Converted t u) : u.count '<' ≤ t.count '<' := by
  induction h with
  | nil => exact Nat.le_refl _
  | char c _ _ ih =>
    rw [List.count_cons, List.count_cons]
    omega
  | comment raw _ _ ih =>
    have hraw := count_expression_trimBlank_le raw
    simp only [List.count_append]
    omega

/-- A comment that goes takes its `<` with it. -/
theorem count_lt (h : Converted t u) (hoccurs : Occurs t) : u.count '<' < t.count '<' := by
  induction h with
  | nil => exact absurd hoccurs not_occurs_nil
  | char c hno _ ih =>
    have hlt := ih ((occurs_cons.1 hoccurs).resolve_left hno)
    rw [List.count_cons, List.count_cons]
    omega
  | comment raw _ hconverted _ =>
    have hle := hconverted.count_le
    have hraw := count_expression_trimBlank_le raw
    have hopener : opener.count '<' = 1 := rfl
    simp only [List.count_append, hopener]
    omega

theorem eq_of_not_occurs (h : Converted t u) (hno : ¬ Occurs t) : u = t := by
  induction h with
  | nil => rfl
  | char c _ _ ih => rw [ih fun ht => hno (occurs_cons.2 (.inr ht))]
  | @comment raw t u _ _ _ =>
    refine absurd ⟨opener, raw ++ (closer ++ t), rfl, List.infix_rfl, ?_⟩ hno
    exact ⟨raw, t, List.append_assoc ..⟩

end Converted

/-- Just the texts without a comment stay as they are. -/
theorem convert_eq_self_iff : convert t = t ↔ ¬ Occurs t := by
  constructor
  · intro heq hoccurs
    have hlt := (converted_convert t).count_lt hoccurs
    rw [heq] at hlt
    exact Nat.lt_irrefl _ hlt
  · exact (converted_convert t).eq_of_not_occurs

instance : Decidable (Occurs t) := decidable_of_iff (convert t ≠ t) (by rw [ne_eq, convert_eq_self_iff, not_not])

/-- A conversion that changes a text leaves fewer `<` in it. -/
theorem count_convert_lt (h : convert t ≠ t) : (convert t).count '<' < t.count '<' := by
  rw [ne_eq, convert_eq_self_iff, not_not] at h
  exact (converted_convert t).count_lt h

-- ---------------------------------------------------------------------------
-- Comments that come into being
-- ---------------------------------------------------------------------------

/-- An opener around an expression stands in its body or after it. -/
theorem opener_infix_expression {body rest : Text} (h : opener <:+: expression body ++ rest) :
    opener <:+: body ∨ opener <:+: rest := by
  have hsplit : expression body ++ rest
      = ['\x7b', '/', '*'] ++ ' ' :: (body ++ ' ' :: (['*', '/'] ++ '\x7d' :: rest)) := by
    simp [expression]
  rw [hsplit] at h
  rcases Text.infix_of_infix_append_cons (by decide) h with h | h
  · exact absurd h (by decide)
  rcases Text.infix_of_infix_append_cons (by decide) h with h | h
  · exact .inl h
  rcases Text.infix_of_infix_append_cons (by decide) h with h | h
  · exact absurd h (by decide)
  · exact .inr h

namespace Converted

/-- Only an expression starts with a brace that was not there before. -/
theorem exists_tail {c : Char} (h : Converted t (c :: u)) (hc : c ≠ '\x7b') : ∃ t', t = c :: t' ∧ Converted t' u := by
  generalize hw : c :: u = w at h
  cases h with
  | nil => cases hw
  | char d _ hconverted =>
    obtain ⟨rfl, rfl⟩ := List.cons_eq_cons.1 hw
    exact ⟨_, rfl, hconverted⟩
  | comment raw _ _ => exact absurd (List.cons_eq_cons.1 hw).1 hc

theorem closer_infix (h : Converted t u) (hcloser : closer <:+: u) : closer <:+: t := by
  induction h with
  | nil => exact hcloser
  | @char c t u _ hconverted ih =>
    rcases List.infix_cons_iff.1 hcloser with ⟨v, hv⟩ | hcloser
    · rw [closer_append] at hv
      obtain ⟨rfl, rfl⟩ := List.cons_eq_cons.1 hv
      obtain ⟨t₁, rfl, h₁⟩ := hconverted.exists_tail (by decide)
      obtain ⟨t₂, rfl, -⟩ := h₁.exists_tail (by decide)
      exact ⟨[], t₂, rfl⟩
    · exact (ih hcloser).trans (List.suffix_cons c t).isInfix
  | @comment raw t u _ _ _ => exact ⟨opener ++ raw, t, by simp⟩

/-- A comment in a converted text was opened inside a comment that went. -/
theorem nested_of_occurs (h : Converted t u) (hoccurs : Occurs u) : Nested t := by
  induction h with
  | nil => exact absurd hoccurs not_occurs_nil
  | @char c t u hno hconverted ih =>
    rcases occurs_cons.1 hoccurs with ⟨rest, heq, hcloser⟩ | hoccurs
    · -- the opener and the closer were there before, so the text started with a comment
      rw [opener_append] at heq
      obtain ⟨rfl, rfl⟩ := List.cons_eq_cons.1 heq
      obtain ⟨t₁, rfl, h₁⟩ := hconverted.exists_tail (by decide)
      obtain ⟨t₂, rfl, h₂⟩ := h₁.exists_tail (by decide)
      obtain ⟨t₃, rfl, h₃⟩ := h₂.exists_tail (by decide)
      exact absurd ⟨t₃, rfl, h₃.closer_infix hcloser⟩ hno
    · exact (ih hoccurs).append [c]
  | @comment raw t u hraw _ ih =>
    have hbody : opener <:+: Text.trimBlank raw → Nested (opener ++ (raw ++ (closer ++ t))) := fun h =>
      nested_of_infix hraw (h.trans ((List.rdropWhile_prefix isBlank _).isInfix.trans
        (List.dropWhile_suffix isBlank).isInfix)) t
    obtain ⟨lead, rest, heq, hopener, hcloser⟩ := hoccurs
    rcases List.append_eq_append_iff.1 heq with ⟨v, rfl, rfl⟩ | ⟨v, hv, -⟩
    · rcases opener_infix_expression hopener with h | h
      · exact hbody h
      · have hnested := (ih ⟨v, rest, rfl, h, hcloser⟩).append (opener ++ (raw ++ closer))
        simpa only [List.append_assoc] using hnested
    · have hin : opener <:+: expression (Text.trimBlank raw) ++ [] := by
        rw [List.append_nil, hv]
        exact hopener.trans (List.prefix_append lead v).isInfix
      rcases opener_infix_expression hin with h | h
      · exact hbody h
      · exact absurd h (by decide)

end Converted

/-- Where no comment is opened inside another one, none is left. -/
theorem not_occurs_convert (h : ¬ Nested t) : ¬ Occurs (convert t) :=
  fun hoccurs => h ((converted_convert t).nested_of_occurs hoccurs)

end MdxSafe.Comment
