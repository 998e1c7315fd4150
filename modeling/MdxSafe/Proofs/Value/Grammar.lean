-- SUMMARY: The grammar of JSON texts, and that strings, numbers and words are read as it says.
import Mathlib.Data.List.TakeWhile
import MdxSafe.Proofs.Outcome
import MdxSafe.Proofs.Text.Search
import MdxSafe.Value.Json

/-!
# The grammar of JSON

The grammar says which texts write which values (`Json.IsText`), without regard to how they are read. The reader refuses
an integer of too many digits as soon as it has read it, in a text that the grammar derives as well as in one that it
does not derive for what stands behind (`Json.BreaksOff`).

A number has no end of its own: the reader takes as much as it can, so that a number is read only where nothing follows
that would be taken for a part of it (`Json.Continues`).
-/

namespace MdxSafe.Json

-- ---------------------------------------------------------------------------
-- The grammar
-- ---------------------------------------------------------------------------

/-- What may stand between tokens. -/
def IsGap (gap : Text) : Prop := ∀ c ∈ gap, isSpace c = true

/-- Four hexadecimal digits, and their value. -/
inductive IsHex4 : Text → Nat → Prop where
  | mk {a b c d : Char} {w x y z : Nat} (ha : hexValue? a = some w) (hb : hexValue? b = some x)
    (hc : hexValue? c = some y) (hd : hexValue? d = some z) : IsHex4 [a, b, c, d] (((w * 16 + x) * 16 + y) * 16 + z)

/-- The first half of a character that is written in two halves. -/
abbrev IsHigh (n : Nat) : Prop := 0xD800 ≤ n ∧ n ≤ 0xDBFF

/-- The second half. -/
abbrev IsLow (n : Nat) : Prop := 0xDC00 ≤ n ∧ n ≤ 0xDFFF

/-- A text starts with the second half of a character. -/
def StartsLow (t : Text) : Prop := ∃ ds m v, t = '\\' :: 'u' :: ds ++ v ∧ IsHex4 ds m ∧ IsLow m

/-- A character is written in front of a text. Half of a character counts as a replacement character, unless it is the
first one and the second one follows. -/
inductive Spells : Text → Char → Text → Prop where
  | plain {c : Char} (hquote : c ≠ '"') (hescape : c ≠ '\\') (hcontrol : ¬ c.toNat < 0x20) (u : Text) : Spells [c] c u
  | letter {c d : Char} (h : letterEscape? c = some d) (u : Text) : Spells ['\\', c] d u
  | code {ds : Text} {n : Nat} (hds : IsHex4 ds n) (hhigh : ¬ IsHigh n) (hlow : ¬ IsLow n) (u : Text) :
    Spells ('\\' :: 'u' :: ds) (Char.ofNat n) u
  | pair {ds ds' : Text} {n m : Nat} (hds : IsHex4 ds n) (hhigh : IsHigh n) (hds' : IsHex4 ds' m) (hlow : IsLow m)
    (u : Text) :
    Spells ('\\' :: 'u' :: (ds ++ '\\' :: 'u' :: ds')) (Char.ofNat (0x10000 + (n - 0xD800) * 0x400 + (m - 0xDC00))) u
  | half {ds u : Text} {n : Nat} (hds : IsHex4 ds n) (hhalf : IsHigh n ∨ IsLow n) (hnext : IsHigh n → ¬ StartsLow u) :
    Spells ('\\' :: 'u' :: ds) (Char.ofNat 0xFFFD) u

/-- What stands between quotes writes a text. -/
inductive SpellsAll : Text → Text → Prop where
  | nil : SpellsAll [] []
  | cons {e u s : Text} {c : Char} (hc : Spells e c u) (hs : SpellsAll u s) : SpellsAll (e ++ u) (c :: s)

/-- Digits, at least one. -/
structure IsDigits (ds : Text) : Prop where
  ne_nil : ds ≠ []
  digits : ∀ c ∈ ds, c.isDigit = true

/-- The exponent of a number. -/
structure Exponent where
  letter : Char
  sign : Text
  digits : Text

namespace Exponent

structure IsValid (x : Exponent) : Prop where
  letter : x.letter = 'e' ∨ x.letter = 'E'
  sign : x.sign = [] ∨ x.sign = ['+'] ∨ x.sign = ['-']
  digits : IsDigits x.digits

def text (x : Exponent) : Text := x.letter :: x.sign ++ x.digits

def value (x : Exponent) : Int :=
  if x.sign = ['-'] then -(Text.natOfDigits 0 x.digits : Int) else Text.natOfDigits 0 x.digits

end Exponent

/-- A number as it is written; it need not have a fraction. -/
structure Numeral where
  negative : Bool
  whole : Text
  fraction : Text
  exponent : Option Exponent

namespace Numeral

structure IsValid (n : Numeral) : Prop where
  whole : n.whole = ['0'] ∨ IsDigits n.whole ∧ n.whole.head? ≠ some '0'
  fraction : ∀ c ∈ n.fraction, c.isDigit = true
  exponent : ∀ x ∈ n.exponent, x.IsValid

/-- A fraction with its point. -/
def point (fraction : Text) : Text := if fraction = [] then [] else '.' :: fraction

/-- An exponent, if there is one. -/
def power (exponent : Option Exponent) : Text := (exponent.map Exponent.text).getD []

/-- A number without its sign. -/
def body (n : Numeral) : Text := n.whole ++ (point n.fraction ++ power n.exponent)

def text (n : Numeral) : Text := (if n.negative then ['-'] else []) ++ n.body

/-- A number with neither fraction nor exponent. -/
def IsInteger (n : Numeral) : Prop := n.fraction = [] ∧ n.exponent = none

instance (n : Numeral) : Decidable n.IsInteger := inferInstanceAs (Decidable (_ ∧ _))

def value (n : Numeral) : Value :=
  if n.IsInteger then .int (if n.negative then -(Text.natOfDigits 0 n.whole : Int) else Text.natOfDigits 0 n.whole)
  else
    .float (.ofDecimal n.negative (Text.natOfDigits 0 (n.whole ++ n.fraction))
      ((n.exponent.map Exponent.value).getD 0 - n.fraction.length))

end Numeral

/-- A text starts with a fraction. -/
def StartsFraction (t : Text) : Prop := ∃ c u, t = '.' :: c :: u ∧ c.isDigit = true

/-- A text starts with an exponent. -/
def StartsExponent (t : Text) : Prop := ∃ x v, t = x.text ++ v ∧ Exponent.IsValid x

/-- What follows a number would be taken for a part of it. -/
def Continues (v : Text) : Prop := v.head?.any Char.isDigit = true ∨ StartsFraction v ∨ StartsExponent v

/-- What a part of a text stands for: a value, a member of an object, or what is left of a list or an object. -/
inductive Phrase where
  | value (v : Value)
  | member (m : Text × Value)
  | items (vs : List Value)
  | members (fs : List (Text × Value))

/-- A part of a text writes a value or a member, or what is left of a list or an object up to its closing bracket. -/
inductive Writes : Text → Phrase → Prop where
  | text {u s : Text} (h : SpellsAll u s) : Writes ('"' :: (u ++ ['"'])) (.value (.text s))
  | word {w : Text} {v : Value} (h : (w, v) ∈ words) : Writes w (.value v)
  | number {k : Numeral} (h : k.IsValid) : Writes k.text (.value k.value)
  | noItems {gap : Text} (hgap : IsGap gap) : Writes ('[' :: (gap ++ [']'])) (.value (.list []))
  | list {gap t : Text} {vs : List Value} (hgap : IsGap gap) (h : Writes t (.items vs)) :
    Writes ('[' :: (gap ++ t)) (.value (.list vs))
  | noMembers {gap : Text} (hgap : IsGap gap) : Writes ('\x7b' :: (gap ++ ['\x7d'])) (.value (.object []))
  | object {gap t : Text} {fs : List (Text × Value)} (hgap : IsGap gap) (h : Writes t (.members fs)) :
    Writes ('\x7b' :: (gap ++ t)) (.value (.object (Fields.ofEntries fs)))
  | member {u k gap gap' t : Text} {v : Value} (hkey : SpellsAll u k) (hgap : IsGap gap) (hgap' : IsGap gap')
    (h : Writes t (.value v)) : Writes ('"' :: (u ++ '"' :: (gap ++ ':' :: (gap' ++ t)))) (.member (k, v))
  | lastItem {t gap : Text} {v : Value} (h : Writes t (.value v)) (hgap : IsGap gap) :
    Writes (t ++ (gap ++ [']'])) (.items [v])
  | item {t gap gap' t' : Text} {v : Value} {vs : List Value} (h : Writes t (.value v)) (hgap : IsGap gap)
    (hgap' : IsGap gap') (hrest : Writes t' (.items vs)) : Writes (t ++ (gap ++ ',' :: (gap' ++ t'))) (.items (v :: vs))
  | lastMember {t gap : Text} {f : Text × Value} (h : Writes t (.member f)) (hgap : IsGap gap) :
    Writes (t ++ (gap ++ ['\x7d'])) (.members [f])
  | cons {t gap gap' t' : Text} {f : Text × Value} {fs : List (Text × Value)} (h : Writes t (.member f))
    (hgap : IsGap gap) (hgap' : IsGap gap') (hrest : Writes t' (.members fs)) :
    Writes (t ++ (gap ++ ',' :: (gap' ++ t'))) (.members (f :: fs))

/-- What the reader is at. -/
inductive Place where
  | value | member | items | members

/-- The reader comes to an integer of too many digits, and to nothing wrong before. What stands behind does not count. -/
inductive Breaks : Place → Text → Prop where
  | number {k : Numeral} {v : Text} (h : k.IsValid) (hinteger : k.IsInteger) (hlong : Text.maxDigits < k.whole.length)
    (hv : ¬ Continues v) : Breaks .value (k.text ++ v)
  | list {gap t : Text} (hgap : IsGap gap) (h : Breaks .items t) : Breaks .value ('[' :: (gap ++ t))
  | object {gap t : Text} (hgap : IsGap gap) (h : Breaks .members t) : Breaks .value ('\x7b' :: (gap ++ t))
  | member {u k gap gap' t : Text} (hkey : SpellsAll u k) (hgap : IsGap gap) (hgap' : IsGap gap')
    (h : Breaks .value t) : Breaks .member ('"' :: (u ++ '"' :: (gap ++ ':' :: (gap' ++ t))))
  | firstItem {t : Text} (h : Breaks .value t) : Breaks .items t
  | laterItem {t gap gap' t' : Text} {v : Value} (h : Writes t (.value v)) (hgap : IsGap gap) (hgap' : IsGap gap')
    (hrest : Breaks .items t') : Breaks .items (t ++ (gap ++ ',' :: (gap' ++ t')))
  | firstMember {t : Text} (h : Breaks .member t) : Breaks .members t
  | laterMember {t gap gap' t' : Text} {f : Text × Value} (h : Writes t (.member f)) (hgap : IsGap gap)
    (hgap' : IsGap gap') (hrest : Breaks .members t') : Breaks .members (t ++ (gap ++ ',' :: (gap' ++ t')))

/-- A whole text writes a value. -/
def IsText (t : Text) (v : Value) : Prop :=
  ∃ gap u gap', t = gap ++ (u ++ gap') ∧ IsGap gap ∧ IsGap gap' ∧ Writes u (.value v)

/-- Reading a whole text breaks off at an integer of too many digits. -/
def BreaksOff (t : Text) : Prop := ∃ gap u, t = gap ++ u ∧ IsGap gap ∧ Breaks .value u

variable {t u v gap ds s rest : Text} {c d : Char} {n m fuel : Nat}

-- ---------------------------------------------------------------------------
-- Gaps
-- ---------------------------------------------------------------------------

theorem skip_append (hgap : IsGap gap) (ht : t.head?.any isSpace = false) : skip (gap ++ t) = t := by
  rw [skip, List.dropWhile_append_of_pos hgap]
  cases t with
  | nil => rfl
  | cons c t => rw [List.dropWhile_cons_of_neg (by simpa using ht)]

theorem skip_append_cons (hgap : IsGap gap) (hc : isSpace c = false) (v : Text) : skip (gap ++ c :: v) = c :: v :=
  skip_append hgap hc

theorem head?_dropWhile (p : Char → Bool) (t : Text) : (t.dropWhile p).head?.any p = false := by
  have h := List.head?_dropWhile_not p t
  cases hhead : (t.dropWhile p).head? with
  | none => rfl
  | some c => simpa [hhead] using h

theorem exists_gap (t : Text) : ∃ gap, IsGap gap ∧ t = gap ++ skip t :=
  ⟨t.takeWhile isSpace, fun _ hc => List.mem_takeWhile_imp hc, List.takeWhile_append_dropWhile.symm⟩

-- ---------------------------------------------------------------------------
-- Strings
-- ---------------------------------------------------------------------------

theorem takeHex4?_eq_some_iff : takeHex4? t = some (n, v) ↔ ∃ ds, t = ds ++ v ∧ IsHex4 ds n := by
  constructor
  · intro h
    unfold takeHex4? at h
    split at h
    · next a b c d t =>
      obtain ⟨w, hw, h⟩ := Option.bind_eq_some_iff.1 h
      obtain ⟨x, hx, h⟩ := Option.bind_eq_some_iff.1 h
      obtain ⟨y, hy, h⟩ := Option.bind_eq_some_iff.1 h
      obtain ⟨z, hz, h⟩ := Option.bind_eq_some_iff.1 h
      cases h
      exact ⟨[a, b, c, d], rfl, .mk hw hx hy hz⟩
    · cases h
  · rintro ⟨ds, rfl, ⟨ha, hb, hc, hd⟩⟩
    simp [takeHex4?, ha, hb, hc, hd]

theorem takeLow?_eq_some_iff : takeLow? t = some (m, v) ↔ ∃ ds, t = '\\' :: 'u' :: ds ++ v ∧ IsHex4 ds m ∧ IsLow m := by
  constructor
  · intro h
    unfold takeLow? at h
    split at h
    · next t =>
      split at h
      · next n w hhex =>
        split at h
        · next hlow =>
          cases h
          obtain ⟨ds, rfl, hds⟩ := takeHex4?_eq_some_iff.1 hhex
          exact ⟨ds, rfl, hds, hlow⟩
        · cases h
      · cases h
    · cases h
  · rintro ⟨ds, rfl, hds, hlow⟩
    rw [List.cons_append, List.cons_append, takeLow?, takeHex4?_eq_some_iff.2 ⟨ds, rfl, hds⟩]
    exact if_pos hlow

theorem takeLow?_eq_none_iff : takeLow? t = none ↔ ¬ StartsLow t := by
  constructor
  · rintro h ⟨ds, m, v, hlow⟩
    rw [takeLow?_eq_some_iff.2 ⟨ds, hlow⟩] at h
    cases h
  · intro h
    cases hlow : takeLow? t with
    | none => rfl
    | some r =>
      obtain ⟨ds, hds⟩ := takeLow?_eq_some_iff.1 hlow
      exact absurd ⟨ds, r.1, r.2, hds⟩ h

/-- A numeric escape is read as the character that it is. -/
theorem escaped?_eq_some_iff : escaped? t = some (c, v) ↔ ∃ e, t = e ++ v ∧ Spells ('\\' :: 'u' :: e) c v := by
  constructor
  · intro h
    unfold escaped? at h
    split at h
    · cases h
    · next n w hhex =>
      obtain ⟨ds, rfl, hds⟩ := takeHex4?_eq_some_iff.1 hhex
      split at h
      · next hhigh =>
        split at h
        · next m w' hlow =>
          obtain ⟨rfl, rfl⟩ := Prod.mk.inj (Option.some.inj h)
          obtain ⟨ds', rfl, hds', hlow⟩ := takeLow?_eq_some_iff.1 hlow
          exact ⟨ds ++ '\\' :: 'u' :: ds', by simp, .pair hds hhigh hds' hlow _⟩
        · next hlow =>
          cases h
          exact ⟨ds, rfl, .half hds (.inl hhigh) fun _ => takeLow?_eq_none_iff.1 hlow⟩
      · next hhigh =>
        split at h
        · next hlow =>
          cases h
          exact ⟨ds, rfl, .half hds (.inr hlow) fun h => absurd h hhigh⟩
        · next hlow =>
          cases h
          exact ⟨ds, rfl, .code hds hhigh hlow v⟩
  · rintro ⟨e, rfl, h⟩
    have hhex : ∀ {ds n v}, IsHex4 ds n → takeHex4? (ds ++ v) = some (n, v) := fun hds =>
      takeHex4?_eq_some_iff.2 ⟨_, rfl, hds⟩
    unfold escaped?
    cases h with
    | letter h => cases h
    | code hds hhigh hlow =>
      rw [hhex hds]
      dsimp only
      rw [if_neg hhigh, if_neg hlow]
    | pair hds hhigh hds' hlow =>
      rw [List.append_assoc, hhex hds]
      dsimp only
      rw [if_pos hhigh, takeLow?_eq_some_iff.2 ⟨_, rfl, hds', hlow⟩]
    | @half _ _ n hds hhalf hnext =>
      rw [hhex hds]
      dsimp only
      by_cases hhigh : IsHigh n
      · rw [if_pos hhigh, takeLow?_eq_none_iff.2 (hnext hhigh)]
      · rw [if_neg hhigh, if_pos (hhalf.resolve_left hhigh)]

/-- The character of an escape, given what follows its backslash, and the rest. -/
def escape? : Text → Option (Char × Text)
  | [] => none
  | c :: t => if c = 'u' then escaped? t else (letterEscape? c).map fun d => (d, t)

/-- The character at the start of a string, and the rest. -/
def character? : Text → Option (Char × Text)
  | [] => none
  | c :: t => if c = '\\' then escape? t else if c = '"' ∨ c.toNat < 0x20 then none else some (c, t)

/-- A string is read character by character up to its closing quote. -/
theorem string?_succ (fuel : Nat) (ht : t.head? ≠ some '"') :
    string? (fuel + 1) t = (character? t).bind fun r => (string? fuel r.2).map fun s => (r.1 :: s.1, s.2) := by
  have hmap : ∀ {x : Option (Text × Text)} {c : Char},
      (x.bind fun r => some (c :: r.1, r.2)) = x.map fun r => (c :: r.1, r.2) := fun {x} {c} => by cases x <;> rfl
  cases t with
  | nil => rfl
  | cons c t =>
    have hquote : c ≠ '"' := fun h => ht (congrArg some h)
    rw [character?]
    by_cases hc : c = '\\'
    · subst hc
      rw [if_pos rfl]
      cases t with
      | nil => cases fuel <;> simp [string?, escape?]
      | cons d t =>
        rw [escape?]
        by_cases hd : d = 'u'
        · subst hd
          rw [string?, if_pos rfl]
          cases escaped? t with
          | none => rfl
          | some r => exact hmap
        · rw [string?, if_neg hd]
          · cases letterEscape? d with
            | none => rfl
            | some r => exact hmap
          · exact hd
    · rw [string?, if_neg hc]
      · by_cases hcontrol : c.toNat < 0x20
        · rw [if_pos hcontrol, if_pos (.inr hcontrol)]
          rfl
        · rw [if_neg hcontrol, if_neg (not_or.2 ⟨hquote, hcontrol⟩)]
          exact hmap
      · exact hquote
      · exact fun t hc' => absurd hc' hc
      · exact fun d t hc' => absurd hc' hc

theorem character?_eq_some_iff : character? t = some (c, v) ↔ ∃ e, t = e ++ v ∧ Spells e c v := by
  constructor
  · intro h
    cases t with
    | nil => cases h
    | cons d t =>
      rw [character?] at h
      split at h
      · next hd =>
        subst hd
        cases t with
        | nil => cases h
        | cons d t =>
          rw [escape?] at h
          split at h
          · next hd =>
            subst hd
            obtain ⟨e, rfl, he⟩ := escaped?_eq_some_iff.1 h
            exact ⟨'\\' :: 'u' :: e, rfl, he⟩
          · obtain ⟨d', hletter, hd'⟩ := Option.map_eq_some_iff.1 h
            cases hd'
            exact ⟨['\\', d], rfl, .letter hletter v⟩
      · next hd =>
        split at h
        · cases h
        · next hplain =>
          rw [not_or] at hplain
          cases h
          exact ⟨[c], rfl, .plain hplain.1 hd hplain.2 v⟩
  · rintro ⟨e, rfl, h⟩
    have hcode : ∀ {e'}, e = '\\' :: 'u' :: e' → character? (e ++ v) = some (c, v) := by
      rintro e' rfl
      exact escaped?_eq_some_iff.2 ⟨e', rfl, h⟩
    cases h with
    | plain hquote hescape hcontrol =>
      rw [List.singleton_append, character?, if_neg hescape, if_neg (not_or.2 ⟨hquote, hcontrol⟩)]
    | @letter d _ h =>
      have hd : d ≠ 'u' := by
        rintro rfl
        cases h
      rw [List.cons_append, List.singleton_append, character?, if_pos rfl, escape?, if_neg hd, h]
      rfl
    | code => exact hcode rfl
    | pair => exact hcode rfl
    | half => exact hcode rfl

theorem startsLow_append_quote_iff : StartsLow (u ++ '"' :: rest) ↔ StartsLow u := by
  constructor
  · rintro ⟨ds, m, v, heq, hds, hlow⟩
    have hquote : '"' ∉ '\\' :: 'u' :: ds := by
      obtain ⟨ha, hb, hc, hd⟩ := hds
      have hne : ∀ {x w}, hexValue? x = some w → '"' ≠ x := by
        rintro x w h rfl
        cases h
      simp [hne ha, hne hb, hne hc, hne hd]
    obtain ⟨z, rfl, -⟩ := Text.exists_of_append_cons_eq_append heq hquote
    exact ⟨ds, m, z, rfl, hds, hlow⟩
  · rintro ⟨ds, m, v, rfl, hds, hlow⟩
    exact ⟨ds, m, v ++ '"' :: rest, by simp, hds, hlow⟩

theorem spells_append_quote_iff {e : Text} : Spells e c (u ++ '"' :: rest) ↔ Spells e c u := by
  constructor
  · intro h
    cases h with
    | plain hquote hescape hcontrol => exact .plain hquote hescape hcontrol u
    | letter h => exact .letter h u
    | code hds hhigh hlow => exact .code hds hhigh hlow u
    | pair hds hhigh hds' hlow => exact .pair hds hhigh hds' hlow u
    | half hds hhalf hnext => exact .half hds hhalf fun hhigh => mt startsLow_append_quote_iff.2 (hnext hhigh)
  · intro h
    cases h with
    | plain hquote hescape hcontrol => exact .plain hquote hescape hcontrol _
    | letter h => exact .letter h _
    | code hds hhigh hlow => exact .code hds hhigh hlow _
    | pair hds hhigh hds' hlow => exact .pair hds hhigh hds' hlow _
    | half hds hhalf hnext => exact .half hds hhalf fun hhigh => mt startsLow_append_quote_iff.1 (hnext hhigh)

theorem Spells.exists_cons {e : Text} (h : Spells e c u) : ∃ d e', e = d :: e' ∧ d ≠ '"' := by
  cases h with
  | plain hquote => exact ⟨c, [], rfl, hquote⟩
  | letter => exact ⟨_, _, rfl, by decide⟩
  | code => exact ⟨_, _, rfl, by decide⟩
  | pair => exact ⟨_, _, rfl, by decide⟩
  | half => exact ⟨_, _, rfl, by decide⟩

theorem exists_of_string? (h : string? fuel t = some (s, rest)) : ∃ u, t = u ++ '"' :: rest ∧ SpellsAll u s := by
  induction fuel generalizing t s with
  | zero => cases h
  | succ fuel ih =>
    by_cases ht : t.head? = some '"'
    · obtain ⟨v, rfl⟩ := List.head?_eq_some_iff.1 ht
      cases h
      exact ⟨[], rfl, .nil⟩
    · rw [string?_succ fuel ht] at h
      obtain ⟨⟨c, v⟩, hc, h⟩ := Option.bind_eq_some_iff.1 h
      obtain ⟨⟨s', rest'⟩, hs, h⟩ := Option.map_eq_some_iff.1 h
      cases h
      obtain ⟨e, rfl, he⟩ := character?_eq_some_iff.1 hc
      obtain ⟨u, rfl, hu⟩ := ih hs
      exact ⟨e ++ u, by simp, .cons (spells_append_quote_iff.1 he) hu⟩

theorem string?_append (h : SpellsAll u s) (rest : Text) (hfuel : u.length < fuel) :
    string? fuel (u ++ '"' :: rest) = some (s, rest) := by
  induction h generalizing fuel with
  | nil =>
    cases fuel with
    | zero => cases hfuel
    | succ fuel => rfl
  | @cons e u s c hc hs ih =>
    obtain ⟨d, e', rfl, hd⟩ := hc.exists_cons
    have hhead : (d :: e' ++ u ++ '"' :: rest).head? ≠ some '"' := fun h => hd (Option.some.inj h)
    have hcharacter : character? (d :: e' ++ (u ++ '"' :: rest)) = some (c, u ++ '"' :: rest) :=
      character?_eq_some_iff.2 ⟨d :: e', rfl, spells_append_quote_iff.2 hc⟩
    cases fuel with
    | zero => cases hfuel
    | succ fuel =>
      rw [List.length_append, List.length_cons] at hfuel
      rw [string?_succ fuel hhead, List.append_assoc, hcharacter, Option.bind_some, ih (by omega)]
      rfl

-- ---------------------------------------------------------------------------
-- Numbers
-- ---------------------------------------------------------------------------

theorem takeDigits_append (hds : ∀ c ∈ ds, c.isDigit = true) (hv : v.head?.any Char.isDigit = false) :
    takeDigits (ds ++ v) = (ds, v) := by
  have hnone : v.takeWhile Char.isDigit = [] := by
    cases v with
    | nil => rfl
    | cons c v => exact List.takeWhile_cons_of_neg (by simpa using hv)
  unfold takeDigits
  dsimp only
  rw [List.takeWhile_append_of_pos hds, hnone, List.append_nil, List.drop_left]

theorem exists_takeDigits (t : Text) :
    ∃ ds v, t = ds ++ v ∧ (∀ c ∈ ds, c.isDigit = true) ∧ v.head?.any Char.isDigit = false ∧ takeDigits t = (ds, v) := by
  have hds : ∀ c ∈ t.takeWhile Char.isDigit, c.isDigit = true := fun _ hc => List.mem_takeWhile_imp hc
  have hv := head?_dropWhile Char.isDigit t
  refine ⟨_, _, List.takeWhile_append_dropWhile.symm, hds, hv, ?_⟩
  rw [← takeDigits_append hds hv, List.takeWhile_append_dropWhile]

theorem takeDigits_eq_nil_iff : (takeDigits t).1 = [] ↔ t.head?.any Char.isDigit = false := by
  obtain ⟨ds, v, rfl, hds, hv, htake⟩ := exists_takeDigits t
  rw [htake]
  cases ds with
  | nil => exact iff_of_true rfl hv
  | cons c ds =>
    refine iff_of_false (List.cons_ne_nil c ds) ?_
    simp [hds c List.mem_cons_self]

theorem takeWhole_append {whole : Text} (h : whole = ['0'] ∨ IsDigits whole ∧ whole.head? ≠ some '0')
    (hv : v.head?.any Char.isDigit = false) : takeWhole (whole ++ v) = (whole, v) := by
  rcases h with rfl | ⟨hds, hzero⟩
  · rfl
  · obtain ⟨c, ds, rfl⟩ := List.exists_cons_of_ne_nil hds.ne_nil
    rw [List.cons_append, takeWhole]
    · exact takeDigits_append hds.digits hv
    · rintro u heq
      exact hzero (congrArg List.head? heq)

theorem exists_takeWhole (t : Text) : (takeWhole t).1 = [] ∨ ∃ whole v, t = whole ++ v ∧ takeWhole t = (whole, v)
    ∧ (whole = ['0'] ∨ IsDigits whole ∧ whole.head? ≠ some '0' ∧ v.head?.any Char.isDigit = false) := by
  fun_cases takeWhole t with
  | case1 u => exact .inr ⟨['0'], u, rfl, rfl, .inl rfl⟩
  | case2 t hzero =>
    obtain ⟨ds, v, rfl, hds, hv, htake⟩ := exists_takeDigits t
    rw [htake]
    cases ds with
    | nil => exact .inl rfl
    | cons c ds =>
      refine .inr ⟨c :: ds, v, rfl, rfl, .inr ⟨⟨List.cons_ne_nil c ds, hds⟩, fun hc => ?_, hv⟩⟩
      exact hzero (ds ++ v) (congrArg (· :: (ds ++ v)) (Option.some.inj hc))

theorem startsFraction_cons_iff : StartsFraction ('.' :: t) ↔ t.head?.any Char.isDigit = true := by
  unfold StartsFraction
  cases t <;> simp

theorem takeFraction_cons (t : Text) :
    takeFraction ('.' :: t) = if (takeDigits t).1 = [] then ([], '.' :: t) else takeDigits t := rfl

theorem takeFraction_of_not_startsFraction (h : ¬ StartsFraction t) : takeFraction t = ([], t) := by
  fun_cases takeFraction t with
  | case1 => rfl
  | case2 u r hr => exact absurd (takeDigits_eq_nil_iff.2 (by simpa [startsFraction_cons_iff] using h)) hr
  | case3 => rfl

theorem takeFraction_append (hds : ∀ c ∈ ds, c.isDigit = true) (hv : v.head?.any Char.isDigit = false)
    (hpoint : ¬ StartsFraction v) : takeFraction (Numeral.point ds ++ v) = (ds, v) := by
  cases ds with
  | nil => exact takeFraction_of_not_startsFraction hpoint
  | cons c ds =>
    rw [Numeral.point, if_neg (List.cons_ne_nil c ds), List.cons_append, takeFraction_cons, takeDigits_append hds hv,
      if_neg (List.cons_ne_nil c ds)]

theorem exists_takeFraction (t : Text) : ∃ ds v, t = Numeral.point ds ++ v ∧ takeFraction t = (ds, v)
    ∧ (∀ c ∈ ds, c.isDigit = true) ∧ (ds = [] → ¬ StartsFraction v) := by
  by_cases h : StartsFraction t
  · obtain ⟨c, u, rfl, hc⟩ := h
    obtain ⟨ds, v, hu, hds, hv, htake⟩ := exists_takeDigits (c :: u)
    have hne : ds ≠ [] := by
      rintro rfl
      rw [List.nil_append] at hu
      rw [← hu] at hv
      simp [hc] at hv
    refine ⟨ds, v, ?_, ?_, hds, fun h => absurd h hne⟩
    · rw [Numeral.point, if_neg hne, hu, List.cons_append]
    · rw [takeFraction_cons, htake, if_neg hne]
  · exact ⟨[], t, rfl, takeFraction_of_not_startsFraction h, nofun, fun _ => h⟩

theorem exists_readSign (t : Text) : ∃ sign v, t = sign ++ v ∧ (sign = [] ∨ sign = ['+'] ∨ sign = ['-'])
    ∧ Binary64.readSign t = (decide (sign = ['-']), v) := by
  fun_cases Binary64.readSign t with
  | case1 t => exact ⟨['-'], t, rfl, .inr (.inr rfl), rfl⟩
  | case2 t => exact ⟨['+'], t, rfl, .inr (.inl rfl), rfl⟩
  | case3 t => exact ⟨[], t, rfl, .inl rfl, rfl⟩

theorem readSign_append {sign : Text} (hsign : sign = [] ∨ sign = ['+'] ∨ sign = ['-']) (hds : IsDigits ds) (v : Text) :
    Binary64.readSign (sign ++ (ds ++ v)) = (decide (sign = ['-']), ds ++ v) := by
  obtain ⟨c, ds, rfl⟩ := List.exists_cons_of_ne_nil hds.ne_nil
  have hc := hds.digits c List.mem_cons_self
  rcases hsign with rfl | rfl | rfl
  · rw [List.nil_append, List.cons_append, Binary64.readSign]
    · rfl
    · rintro u heq
      rw [(List.cons.inj heq).1] at hc
      cases hc
    · rintro u heq
      rw [(List.cons.inj heq).1] at hc
      cases hc
  · rfl
  · rfl

theorem takeExponent_append {x : Exponent} (hx : x.IsValid) (hv : v.head?.any Char.isDigit = false) :
    takeExponent (x.text ++ v) = (some x.value, v) := by
  have hsplit : x.text ++ v = x.letter :: (x.sign ++ (x.digits ++ v)) := by simp [Exponent.text]
  rw [hsplit, takeExponent, if_pos hx.letter, readSign_append hx.sign hx.digits]
  dsimp only
  rw [takeDigits_append hx.digits.digits hv, if_neg hx.digits.ne_nil]
  simp [Exponent.value]

theorem takeExponent_of_not_startsExponent (h : ¬ StartsExponent t) : takeExponent t = (none, t) := by
  cases t with
  | nil => rfl
  | cons c t =>
    rw [takeExponent]
    by_cases hc : c = 'e' ∨ c = 'E'
    · obtain ⟨sign, v, rfl, hsign, hread⟩ := exists_readSign t
      obtain ⟨ds, w, rfl, hds, -, htake⟩ := exists_takeDigits v
      rw [if_pos hc, hread]
      dsimp only
      rw [htake]
      by_cases hnil : ds = []
      · exact if_pos hnil
      · exact absurd ⟨⟨c, sign, ds⟩, w, by simp [Exponent.text], hc, hsign, hnil, hds⟩ h
    · exact if_neg hc

/-- The digits of an exponent go on as long as digits follow. -/
theorem exists_takeExponent (t : Text) : ∃ x v, t = Numeral.power x ++ v ∧ takeExponent t = (x.map Exponent.value, v)
    ∧ (∀ y ∈ x, Exponent.IsValid y) ∧ (x = none → ¬ StartsExponent v) := by
  by_cases h : StartsExponent t
  · obtain ⟨x, v, rfl, hx⟩ := h
    obtain ⟨ds, w, rfl, hds, hw, -⟩ := exists_takeDigits v
    let y : Exponent := ⟨x.letter, x.sign, x.digits ++ ds⟩
    have hy : y.IsValid := by
      refine ⟨hx.letter, hx.sign, List.append_ne_nil_of_left_ne_nil hx.digits.ne_nil ds, fun c hc => ?_⟩
      exact (List.mem_append.1 hc).elim (hx.digits.digits c) (hds c)
    have hsplit : x.text ++ (ds ++ w) = y.text ++ w := by simp [Exponent.text, y]
    refine ⟨some y, w, hsplit, ?_, fun z hz => ?_, nofun⟩
    · rw [hsplit]
      exact takeExponent_append hy hw
    · rwa [← Option.some.inj hz]
  · exact ⟨none, t, rfl, takeExponent_of_not_startsExponent h, nofun, fun _ => h⟩

/-- What the reader gives for a number in front of a text. -/
def Numeral.outcome (n : Numeral) (v : Text) : Except Fault (Value × Text) :=
  if n.IsInteger ∧ Text.maxDigits < n.whole.length then .error (.tooManyDigits n.whole.length) else .ok (n.value, v)

theorem number_eq_outcome {k : Numeral} (hne : k.whole ≠ [])
    (hwhole : takeWhole t = (k.whole, Numeral.point k.fraction ++ (Numeral.power k.exponent ++ v)))
    (hfraction : takeFraction (Numeral.point k.fraction ++ (Numeral.power k.exponent ++ v))
      = (k.fraction, Numeral.power k.exponent ++ v))
    (hpower : takeExponent (Numeral.power k.exponent ++ v) = (k.exponent.map Exponent.value, v)) :
    number k.negative t = k.outcome v := by
  have hinteger : k.fraction = [] ∧ k.exponent.map Exponent.value = none ↔ k.IsInteger := by
    rw [Option.map_eq_none_iff]
    rfl
  unfold number
  dsimp only
  rw [hwhole]
  dsimp only
  rw [if_neg hne, hfraction]
  dsimp only
  rw [hpower]
  dsimp only
  unfold Numeral.outcome Numeral.value
  by_cases h : k.IsInteger
  · rw [if_pos (hinteger.2 h), if_pos h]
    by_cases hlong : Text.maxDigits < k.whole.length
    · rw [if_pos hlong, if_pos ⟨h, hlong⟩]
    · have hshort : ¬ (k.IsInteger ∧ Text.maxDigits < k.whole.length) := fun h' => hlong h'.2
      rw [if_neg hlong, if_neg hshort, h.1, h.2]
      rfl
  · rw [if_neg (mt hinteger.1 h), if_neg fun h' => h h'.1, if_neg h]

/-- A fraction that may be missing, and an exponent that may be missing, hide nothing from what stands before them. -/
theorem head?_power {x : Option Exponent} (hx : ∀ y ∈ x, y.IsValid) (hv : ¬ Continues v) :
    (Numeral.power x ++ v).head?.any Char.isDigit = false ∧ ¬ StartsFraction (Numeral.power x ++ v) := by
  cases x with
  | none => exact ⟨Bool.eq_false_iff.2 fun h => hv (.inl h), fun h => hv (.inr (.inl h))⟩
  | some y =>
    have hy : Numeral.power (some y) ++ v = y.letter :: (y.sign ++ y.digits ++ v) := rfl
    rw [hy]
    refine ⟨?_, ?_⟩
    · rcases (hx y rfl).letter with hletter | hletter <;> simp [hletter]
    · rintro ⟨c, u, heq, -⟩
      rcases (hx y rfl).letter with hletter | hletter <;> simp [hletter] at heq

theorem number_append {k : Numeral} (hk : k.IsValid) (hv : ¬ Continues v) :
    number k.negative (k.body ++ v) = k.outcome v := by
  obtain ⟨hpower, hpoint⟩ := head?_power hk.exponent hv
  have hne : k.whole ≠ [] := by
    rcases hk.whole with h | h
    · rw [h]
      exact List.cons_ne_nil _ _
    · exact h.1.ne_nil
  have hwhole : (Numeral.point k.fraction ++ (Numeral.power k.exponent ++ v)).head?.any Char.isDigit = false := by
    unfold Numeral.point
    split
    · exact hpower
    · rfl
  have hexponent : takeExponent (Numeral.power k.exponent ++ v) = (k.exponent.map Exponent.value, v) := by
    cases hx : k.exponent with
    | none => exact takeExponent_of_not_startsExponent fun h => hv (.inr (.inr h))
    | some x => exact takeExponent_append (hk.exponent x hx) (Bool.eq_false_iff.2 fun h => hv (.inl h))
  have hbody : k.body ++ v = k.whole ++ (Numeral.point k.fraction ++ (Numeral.power k.exponent ++ v)) := by
    simp [Numeral.body]
  rw [hbody]
  exact number_eq_outcome hne (takeWhole_append hk.whole hwhole) (takeFraction_append hk.fraction hpower hpoint) hexponent

theorem exists_number (negative : Bool) (t : Text) : number negative t = .error .malformed ∨ ∃ k v,
    k.negative = negative ∧ t = Numeral.body k ++ v ∧ k.IsValid ∧ number negative t = k.outcome v
      ∧ (k.IsInteger → k.whole ≠ ['0'] → ¬ Continues v) := by
  rcases exists_takeWhole t with hnil | ⟨whole, v₁, rfl, htake, hwhole⟩
  · left
    unfold number
    dsimp only
    rw [if_pos hnil]
  right
  obtain ⟨fraction, v₂, rfl, hfraction, hdigits, hnofraction⟩ := exists_takeFraction v₁
  obtain ⟨exponent, v, rfl, hexponent, hvalid, hnoexponent⟩ := exists_takeExponent v₂
  let k : Numeral := ⟨negative, whole, fraction, exponent⟩
  have hk : k.IsValid := ⟨hwhole.imp_right fun h => ⟨h.1, h.2.1⟩, hdigits, hvalid⟩
  have hne : whole ≠ [] := by
    rcases hwhole with rfl | h
    · exact List.cons_ne_nil _ _
    · exact h.1.ne_nil
  refine ⟨k, v, rfl, by simp [Numeral.body, k], hk, number_eq_outcome (k := k) hne htake hfraction hexponent, ?_⟩
  rintro ⟨hnil, hnone⟩ hzero
  obtain rfl : fraction = [] := hnil
  obtain rfl : exponent = none := hnone
  obtain ⟨-, -, hhead⟩ := hwhole.resolve_left hzero
  rintro (h | h | h)
  · rw [show v.head?.any Char.isDigit = false from hhead] at h
    cases h
  · exact hnofraction rfl h
  · exact hnoexponent rfl h

-- ---------------------------------------------------------------------------
-- Words and numbers
-- ---------------------------------------------------------------------------

/-- A number with its sign, and the rest. -/
def numeral : Text → Except Fault (Value × Text)
  | '-' :: u => number true u
  | u => number false u

theorem value_of_other (h : ∀ c ∈ t.head?, c ≠ '"' ∧ c ≠ '[' ∧ c ≠ '\x7b') :
    value (fuel + 1) t = (word? t).elim (numeral t) .ok := by
  cases t with
  | nil => rfl
  | cons c t =>
    obtain ⟨hquote, hbracket, hbrace⟩ := h c rfl
    by_cases hminus : c = '-'
    · subst hminus
      rw [value]
      cases word? ('-' :: t) <;> rfl
    · rw [value, numeral]
      · cases word? (c :: t) <;> rfl
      · exact fun _ h => hminus (List.cons.inj h).1
      · exact fun _ h => hquote (List.cons.inj h).1
      · exact fun _ h => hbracket (List.cons.inj h).1
      · exact fun _ h => hbrace (List.cons.inj h).1
      · exact fun _ h => hminus (List.cons.inj h).1

theorem word?_append {w : Text} {x : Value} (h : (w, x) ∈ words) (v : Text) : word? (w ++ v) = some (x, v) := by
  simp only [words, List.mem_cons, Prod.mk.injEq, List.not_mem_nil, or_false] at h
  rcases h with ⟨rfl, rfl⟩ | ⟨rfl, rfl⟩ | ⟨rfl, rfl⟩ | ⟨rfl, rfl⟩ | ⟨rfl, rfl⟩ | ⟨rfl, rfl⟩
  all_goals rfl

theorem exists_of_word? {x : Value} (h : word? t = some (x, v)) : ∃ w, t = w ++ v ∧ (w, x) ∈ words := by
  obtain ⟨⟨w, y⟩, hw, hafter⟩ := List.exists_of_findSome?_eq_some h
  obtain ⟨rest, hrest, heq⟩ := Option.map_eq_some_iff.1 hafter
  cases heq
  exact ⟨w, Text.after?_eq_some_iff.1 hrest, hw⟩

theorem exists_digit_of_body {k : Numeral} (hk : k.IsValid) : ∃ c u, k.body = c :: u ∧ c.isDigit = true := by
  unfold Numeral.body
  rcases hk.whole with h | ⟨h, -⟩
  · rw [h]
    exact ⟨'0', _, rfl, rfl⟩
  · obtain ⟨c, ds, hds⟩ := List.exists_cons_of_ne_nil h.ne_nil
    rw [hds]
    exact ⟨c, _, rfl, h.digits c (by rw [hds]; exact List.mem_cons_self)⟩

theorem exists_of_mem_words {w : Text} {x : Value} (h : (w, x) ∈ words) :
    ∃ a b u, w = a :: b :: u ∧ a.isDigit = false ∧ (a = '-' → b.isDigit = false) ∧ (a.isAlpha = true ∨ a = '-') := by
  simp only [words, List.mem_cons, Prod.mk.injEq, List.not_mem_nil, or_false] at h
  rcases h with ⟨rfl, -⟩ | ⟨rfl, -⟩ | ⟨rfl, -⟩ | ⟨rfl, -⟩ | ⟨rfl, -⟩ | ⟨rfl, -⟩
  all_goals exact ⟨_, _, _, rfl, rfl, by decide, by decide⟩

/-- No word starts like a number. -/
theorem word?_text_append {k : Numeral} (hk : k.IsValid) (v : Text) : word? (k.text ++ v) = none := by
  obtain ⟨c, u, hbody, hc⟩ := exists_digit_of_body hk
  cases hword : word? (k.text ++ v) with
  | none => rfl
  | some r =>
    obtain ⟨w, heq, hw⟩ := exists_of_word? hword
    obtain ⟨a, b, w, rfl, ha, hb, -⟩ := exists_of_mem_words hw
    rw [Numeral.text, hbody] at heq
    split at heq
    · obtain ⟨hminus, hcons⟩ := List.cons.inj heq
      rw [← (List.cons.inj hcons).1, hc] at hb
      cases hb hminus.symm
    · rw [← (List.cons.inj heq).1, hc] at ha
      cases ha

theorem numeral_append {k : Numeral} (hk : k.IsValid) (hv : ¬ Continues v) : numeral (k.text ++ v) = k.outcome v := by
  obtain ⟨c, u, hbody, hc⟩ := exists_digit_of_body hk
  have hnumber := number_append hk hv
  cases hnegative : k.negative with
  | true =>
    rw [hnegative] at hnumber
    rw [Numeral.text, hnegative]
    exact hnumber
  | false =>
    have htext : k.text = c :: u := by simp [Numeral.text, hnegative, hbody]
    rw [hnegative, hbody] at hnumber
    rw [htext, List.cons_append, numeral]
    · exact hnumber
    · rintro w heq
      rw [(List.cons.inj heq).1] at hc
      cases hc

theorem exists_numeral (t : Text) : numeral t = .error .malformed ∨ ∃ k v, t = Numeral.text k ++ v ∧ k.IsValid
    ∧ numeral t = k.outcome v ∧ (k.IsInteger → k.whole ≠ ['0'] → ¬ Continues v) := by
  fun_cases numeral t with
  | case1 u =>
    refine (exists_number true u).imp_right ?_
    rintro ⟨k, v, hnegative, rfl, hk⟩
    exact ⟨k, v, by simp [Numeral.text, hnegative], hk⟩
  | case2 t =>
    refine (exists_number false t).imp_right ?_
    rintro ⟨k, v, hnegative, rfl, hk⟩
    exact ⟨k, v, by simp [Numeral.text, hnegative], hk⟩

end MdxSafe.Json
