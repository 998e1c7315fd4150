-- SUMMARY: What closing void tags makes of a text: which tags are read, what becomes of them, and that once is enough.
import Mathlib.Logic.Relation
import MdxSafe.Proofs.Text.Case
import MdxSafe.Proofs.Text.Search
import MdxSafe.Proofs.Text.Trim
import MdxSafe.Rewrite.VoidTag

/-!
# Mended texts

`Mended` says what a text becomes, tag by tag. The blanks before the `>` of a tag that is not closed give way to
` /`, and all else stays (`Mended.steps`), so no `<` comes or goes. If the names of the elements hold no blank, slash
or angle bracket, what is read as a tag depends on the text up to its `>` only, and a mended text stays as it is.
-/

namespace MdxSafe.VoidTag

variable {names : List Text} {t u : Text}

-- ---------------------------------------------------------------------------
-- Names
-- ---------------------------------------------------------------------------

/-- A text spells a name in letters of either case. -/
def Spells (name spelled : Text) : Prop := List.Forall₂ (fun a b => sameLetter a b) name spelled

/-- A name without a blank, slash or angle bracket. -/
def IsPlain (name : Text) : Prop := ∀ c ∈ name, isBreak c = false

-- named, lest all characters there are be tried instead of those of the name
instance (name : Text) : Decidable (IsPlain name) := List.decidableBAll (fun c => isBreak c = false) name

theorem spells?_eq_some_iff {name spelled rest : Text} :
    spells? name t = some (spelled, rest) ↔ t = spelled ++ rest ∧ Spells name spelled := by
  induction name generalizing t spelled with
  | nil =>
    rw [spells?]
    constructor
    · intro h
      cases h
      exact ⟨rfl, .nil⟩
    · rintro ⟨rfl, hspells⟩
      cases hspells
      rfl
  | cons a name ih =>
    cases t with
    | nil =>
      constructor
      · intro h
        cases h
      · rintro ⟨heq, hspells⟩
        obtain ⟨rfl, -⟩ := List.append_eq_nil_iff.1 heq.symm
        cases hspells
    | cons b t =>
      rw [spells?]
      constructor
      · intro h
        split at h
        · next hab =>
          obtain ⟨⟨spelled', rest'⟩, hread, heq⟩ := Option.map_eq_some_iff.1 h
          cases heq
          obtain ⟨rfl, hspells⟩ := ih.1 hread
          exact ⟨rfl, .cons hab hspells⟩
        · cases h
      · rintro ⟨heq, hspells⟩
        cases hspells with
        | @cons _ b' _ spelled hab hspells =>
          obtain ⟨rfl, rfl⟩ := List.cons_eq_cons.1 (heq.trans (List.cons_append ..))
          rw [if_pos hab, ih.2 ⟨rfl, hspells⟩]
          rfl

/-- A plain name is spelled plainly. -/
theorem Spells.isPlain {name spelled : Text} (h : Spells name spelled) (hname : IsPlain name) : IsPlain spelled := by
  induction h with
  | nil => exact hname
  | @cons a b name spelled hab _ ih =>
    intro c hc
    rcases List.mem_cons.1 hc with rfl | hc
    · rw [Bool.eq_false_iff]
      intro hbreak
      obtain rfl := eq_of_sameLetter hab hbreak
      rw [hname a List.mem_cons_self] at hbreak
      cases hbreak
    · exact ih (fun d hd => hname d (List.mem_cons_of_mem a hd)) c hc

-- ---------------------------------------------------------------------------
-- Tags
-- ---------------------------------------------------------------------------

/-- `<`, these letters and what comes after them before `>` are a void tag. -/
structure IsVoid (names : List Text) (spelled raw : Text) : Prop where
  name : ∃ name ∈ names, Spells name spelled
  ends : endsName (raw ++ ['>'])
  noLess : '<' ∉ raw
  noGreater : '>' ∉ raw

/-- A void tag as it is read. -/
def tagOf (spelled raw : Text) : Tag := ⟨spelled, Text.trimRight isBlank raw, spelled.length + raw.length + 2⟩

theorem inside?_append {raw : Text} (hless : '<' ∉ raw) (hgreater : '>' ∉ raw) (rest : Text) :
    inside? (raw ++ '>' :: rest) = some raw := by
  induction raw with
  | nil => rfl
  | cons c raw ih =>
    rw [List.mem_cons, not_or] at hless hgreater
    rw [List.cons_append, inside?, if_neg (Ne.symm hgreater.1), if_neg (Ne.symm hless.1), ih hless.2 hgreater.2]
    rfl

theorem exists_of_inside? {raw : Text} (h : inside? t = some raw) :
    ∃ rest, t = raw ++ '>' :: rest ∧ '<' ∉ raw ∧ '>' ∉ raw := by
  induction t generalizing raw with
  | nil => cases h
  | cons c t ih =>
    rw [inside?] at h
    split at h
    · next hgreater =>
      cases h
      exact ⟨t, by rw [hgreater, List.nil_append], List.not_mem_nil, List.not_mem_nil⟩
    · next hgreater =>
      split at h
      · cases h
      · next hless =>
        obtain ⟨raw', hraw', rfl⟩ := Option.map_eq_some_iff.1 h
        obtain ⟨rest, rfl, hnoLess, hnoGreater⟩ := ih hraw'
        refine ⟨rest, rfl, ?_, ?_⟩
        · rw [List.mem_cons, not_or]
          exact ⟨Ne.symm hless, hnoLess⟩
        · rw [List.mem_cons, not_or]
          exact ⟨Ne.symm hgreater, hnoGreater⟩

theorem endsName_append (raw rest : Text) : endsName (raw ++ '>' :: rest) = endsName (raw ++ ['>']) := by
  cases raw <;> rfl

theorem readName?_eq_some_iff {rest name : Text} {tag : Tag} :
    readName? rest name = some tag ↔
      ∃ spelled raw after, rest = spelled ++ (raw ++ '>' :: after) ∧ Spells name spelled ∧ endsName (raw ++ ['>'])
        ∧ '<' ∉ raw ∧ '>' ∉ raw ∧ tag = tagOf spelled raw := by
  rw [readName?]
  constructor
  · intro h
    split at h
    · cases h
    · next spelled rest' hread =>
      obtain ⟨rfl, hspells⟩ := spells?_eq_some_iff.1 hread
      split at h
      · next hends =>
        obtain ⟨raw, hraw, rfl⟩ := Option.map_eq_some_iff.1 h
        obtain ⟨after, rfl, hless, hgreater⟩ := exists_of_inside? hraw
        rw [endsName_append] at hends
        exact ⟨spelled, raw, after, rfl, hspells, hends, hless, hgreater, rfl⟩
      · cases h
  · rintro ⟨spelled, raw, after, rfl, hspells, hends, hless, hgreater, rfl⟩
    rw [spells?_eq_some_iff.2 ⟨rfl, hspells⟩]
    dsimp only
    rw [endsName_append, if_pos hends, inside?_append hless hgreater]
    rfl

/-- A tag that is read is a void tag at the start of the text. -/
theorem exists_of_read? {tag : Tag} (h : read? names t = some tag) :
    ∃ spelled raw after, t = '<' :: (spelled ++ (raw ++ '>' :: after)) ∧ IsVoid names spelled raw
      ∧ tag = tagOf spelled raw := by
  unfold read? at h
  split at h
  · next rest =>
    obtain ⟨name, hname, hread⟩ := List.exists_of_findSome?_eq_some h
    obtain ⟨spelled, raw, after, rfl, hspells, hends, hless, hgreater, rfl⟩ := readName?_eq_some_iff.1 hread
    exact ⟨spelled, raw, after, rfl, ⟨⟨name, hname, hspells⟩, hends, hless, hgreater⟩, rfl⟩
  · cases h

theorem head?_any_of_endsName {raw : Text} (h : endsName (raw ++ ['>'])) (rest : Text) :
    (raw ++ '>' :: rest).head?.any isBreak := by
  rw [← endsName_append raw rest] at h
  cases hraw : raw ++ '>' :: rest with
  | nil => simp at hraw
  | cons c s =>
    rw [hraw] at h
    simp only [endsName, Bool.or_eq_true, decide_eq_true_eq] at h
    rcases h with (h | rfl) | rfl
    · simp [isBreak, h]
    · rfl
    · rfl

theorem IsVoid.isPlain {spelled raw : Text} (h : IsVoid names spelled raw) (hnames : ∀ name ∈ names, IsPlain name) :
    IsPlain spelled := by
  obtain ⟨name, hname, hspells⟩ := h.name
  exact hspells.isPlain (hnames name hname)

/-- The name of a void tag and what follows it up to its `>` hold no `<`. -/
theorem IsVoid.notMem_less (hnames : ∀ name ∈ names, IsPlain name) {spelled raw : Text} (h : IsVoid names spelled raw) :
    '<' ∉ spelled ++ (raw ++ ['>']) := by
  have hspelled : '<' ∉ spelled := fun hmem => absurd (h.isPlain hnames _ hmem) (by decide)
  simp [hspelled, h.noLess]

/-- With plain names what is a void tag is so in one way only. -/
theorem IsVoid.unique (hnames : ∀ name ∈ names, IsPlain name) {spelled raw spelled' raw' rest rest' : Text}
    (h : IsVoid names spelled raw) (h' : IsVoid names spelled' raw')
    (heq : spelled ++ (raw ++ '>' :: rest) = spelled' ++ (raw' ++ '>' :: rest')) :
    spelled = spelled' ∧ raw = raw' ∧ rest = rest' := by
  obtain ⟨rfl, hraw⟩ := Text.append_inj_of_class (h.isPlain hnames) (h'.isPlain hnames)
    (head?_any_of_endsName h.ends rest) (head?_any_of_endsName h'.ends rest') heq
  have hother : ∀ x : Text, '>' ∉ x → ∀ c ∈ x, (c == '>') = false := fun x hx c hc =>
    beq_eq_false_iff_ne.2 (ne_of_mem_of_not_mem hc hx)
  obtain ⟨rfl, hrest⟩ := Text.append_inj_of_class (hother raw h.noGreater) (hother raw' h'.noGreater) rfl rfl hraw
  exact ⟨rfl, rfl, (List.cons_eq_cons.1 hrest).2⟩

/-- With plain names a void tag is read as it stands, whatever follows it. -/
theorem read?_of_isVoid (hnames : ∀ name ∈ names, IsPlain name) {spelled raw : Text} (h : IsVoid names spelled raw)
    (rest : Text) : read? names ('<' :: (spelled ++ (raw ++ '>' :: rest))) = some (tagOf spelled raw) := by
  obtain ⟨name, hname, hspells⟩ := h.name
  have hread : readName? (spelled ++ (raw ++ '>' :: rest)) name = some (tagOf spelled raw) :=
    readName?_eq_some_iff.2 ⟨spelled, raw, rest, rfl, hspells, h.ends, h.noLess, h.noGreater, rfl⟩
  have hsome : (read? names ('<' :: (spelled ++ (raw ++ '>' :: rest)))).isSome := by
    rw [read?, List.findSome?_isSome_iff]
    exact ⟨name, hname, by rw [hread]; rfl⟩
  obtain ⟨tag, htag⟩ := Option.isSome_iff_exists.1 hsome
  obtain ⟨spelled', raw', after', heq, hvoid, rfl⟩ := exists_of_read? htag
  obtain ⟨rfl, rfl, -⟩ := h.unique hnames hvoid (List.cons_eq_cons.1 heq).2
  exact htag

-- ---------------------------------------------------------------------------
-- Mending, tag by tag
-- ---------------------------------------------------------------------------

/-- Whether a slash is the last character before `>`, blanks apart. -/
def EndsInSlash (raw : Text) : Prop := (Text.trimRight isBlank raw).getLast? = some '/'

instance (raw : Text) : Decidable (EndsInSlash raw) :=
  inferInstanceAs (Decidable ((Text.trimRight isBlank raw).getLast? = some '/'))

theorem endsInSlash_append_slash (raw : Text) : EndsInSlash (raw ++ ['/']) := by
  have htrim : Text.trimRight isBlank (raw ++ ['/']) = raw ++ ['/'] := List.rdropWhile_concat_neg isBlank raw '/' (by decide)
  rw [EndsInSlash, htrim, List.getLast?_concat]

theorem EndsInSlash.append_left {raw : Text} (h : EndsInSlash raw) (lead : Text) : EndsInSlash (lead ++ raw) := by
  have hne : Text.trimRight isBlank raw ≠ [] := by
    intro hnil
    rw [EndsInSlash, hnil] at h
    cases h
  rw [EndsInSlash, Text.trimRight_append, if_neg hne, List.getLast?_append_of_ne_nil _ hne]
  exact h

/-- What follows the name in a tag that was closed: a slash in the place of the blanks before `>`. -/
def repaired (raw : Text) : Text := Text.trimRight isBlank raw ++ [' ', '/']

theorem repaired_append (raw rest : Text) :
    Text.trimRight isBlank raw ++ ' ' :: '/' :: '>' :: rest = repaired raw ++ '>' :: rest := by
  simp [repaired]

theorem endsInSlash_repaired (raw : Text) : EndsInSlash (repaired raw) := by
  have hslash := endsInSlash_append_slash (Text.trimRight isBlank raw ++ [' '])
  rwa [List.append_assoc, List.singleton_append] at hslash

/-- A void tag that was closed is one still. -/
theorem IsVoid.repaired {spelled raw : Text} (h : IsVoid names spelled raw) :
    IsVoid names spelled (VoidTag.repaired raw) := by
  have htrimmed := List.rdropWhile_prefix isBlank raw
  refine ⟨h.name, ?_, fun hmem => ?_, fun hmem => ?_⟩
  · have hends := h.ends
    unfold VoidTag.repaired
    cases htrim : Text.trimRight isBlank raw with
    | nil => rfl
    | cons c s =>
      obtain ⟨v, hv⟩ := htrimmed
      rw [← hv, show List.rdropWhile isBlank raw = c :: s from htrim] at hends
      exact hends
  · rcases List.mem_append.1 hmem with hmem | hmem
    · exact h.noLess (htrimmed.subset hmem)
    · exact absurd hmem (by decide)
  · rcases List.mem_append.1 hmem with hmem | hmem
    · exact h.noGreater (htrimmed.subset hmem)
    · exact absurd hmem (by decide)

/-- What a text becomes: a tag at its start is closed unless it is, any other character stays. -/
inductive Mended (names : List Text) : Text → Text → Prop where
  | nil : Mended names [] []
  | char (c : Char) {t u : Text} : read? names (c :: t) = none → Mended names t u → Mended names (c :: t) (c :: u)
  | closed (spelled raw : Text) {t u : Text} : IsVoid names spelled raw → EndsInSlash raw → Mended names t u →
      Mended names ('<' :: (spelled ++ (raw ++ '>' :: t))) ('<' :: (spelled ++ (raw ++ '>' :: u)))
  | unclosed (spelled raw : Text) {t u : Text} : IsVoid names spelled raw → ¬ EndsInSlash raw → Mended names t u →
      Mended names ('<' :: (spelled ++ (raw ++ '>' :: t)))
        ('<' :: (spelled ++ (Text.trimRight isBlank raw ++ ' ' :: '/' :: '>' :: u)))

theorem closeFrom_keep (skip : Nat) (t : Text) :
    closeFrom names true skip t = t.take skip ++ closeFrom names true 0 (t.drop skip) := by
  induction t generalizing skip with
  | nil => cases skip <;> rfl
  | cons c t ih =>
    cases skip with
    | zero => rfl
    | succ skip => rw [closeFrom, if_pos rfl, ih, List.take_succ_cons, List.drop_succ_cons, List.cons_append]

theorem closeFrom_drop (skip : Nat) (t : Text) :
    closeFrom names false skip t = closeFrom names true 0 (t.drop skip) := by
  induction t generalizing skip with
  | nil => cases skip <;> rfl
  | cons c t ih =>
    cases skip with
    | zero => rfl
    | succ skip => rw [closeFrom, if_neg (by simp), ih, List.drop_succ_cons]

theorem closeFrom_char {c : Char} (h : read? names (c :: t) = none) :
    closeFrom names true 0 (c :: t) = c :: closeFrom names true 0 t := by
  rw [closeFrom, h]

theorem closeFrom_tag {spelled raw rest : Text}
    (h : read? names ('<' :: (spelled ++ (raw ++ '>' :: rest))) = some (tagOf spelled raw)) :
    closeFrom names true 0 ('<' :: (spelled ++ (raw ++ '>' :: rest)))
      = if (tagOf spelled raw).isClosed then '<' :: (spelled ++ (raw ++ '>' :: closeFrom names true 0 rest))
        else (tagOf spelled raw).close ++ closeFrom names true 0 rest := by
  have hlen : (tagOf spelled raw).length - 1 = (spelled ++ (raw ++ ['>'])).length := by
    simp [tagOf]
    omega
  have hsplit : spelled ++ (raw ++ '>' :: rest) = spelled ++ (raw ++ ['>']) ++ rest := by simp
  rw [closeFrom, h]
  dsimp only
  rw [closeFrom_keep, closeFrom_drop, hlen, hsplit, List.take_left, List.drop_left]
  simp

theorem isClosed_tagOf (spelled raw : Text) : (tagOf spelled raw).isClosed = true ↔ EndsInSlash raw := by
  rw [Tag.isClosed, decide_eq_true_eq, EndsInSlash, tagOf]

theorem mended_closeFrom (names : List Text) : (t : Text) → Mended names t (closeFrom names true 0 t)
  | [] => .nil
  | c :: t => by
    cases hread : read? names (c :: t) with
    | none =>
      rw [closeFrom_char hread]
      exact .char c hread (mended_closeFrom names t)
    | some tag =>
      obtain ⟨spelled, raw, rest, heq, hvoid, rfl⟩ := exists_of_read? hread
      have hlt : rest.length < t.length + 1 := by
        rw [(List.cons_eq_cons.1 heq).2]
        simp only [List.length_append, List.length_cons]
        omega
      rw [heq] at hread ⊢
      rw [closeFrom_tag hread]
      split
      · next hclosed => exact .closed spelled raw hvoid ((isClosed_tagOf _ _).1 hclosed) (mended_closeFrom names rest)
      · next hopen =>
        rw [isClosed_tagOf] at hopen
        have hmended := Mended.unclosed spelled raw hvoid hopen (mended_closeFrom names rest)
        simpa [tagOf, Tag.close] using hmended
termination_by t => t.length

-- ---------------------------------------------------------------------------
-- Mending, step by step
-- ---------------------------------------------------------------------------

/-- Blanks before a `>` give way to ` /`. -/
inductive Step : Text → Text → Prop where
  | intro (lead blanks rest : Text) : (∀ c ∈ blanks, isBlank c) →
      Step (lead ++ (blanks ++ '>' :: rest)) (lead ++ ' ' :: '/' :: '>' :: rest)

theorem Step.append (lead : Text) (h : Step t u) : Step (lead ++ t) (lead ++ u) := by
  obtain ⟨lead', blanks, rest, hblanks⟩ := h
  rw [← List.append_assoc, ← List.append_assoc lead]
  exact .intro (lead ++ lead') blanks rest hblanks

theorem Step.count_eq (h : Step t u) : u.count '<' = t.count '<' := by
  obtain ⟨lead, blanks, rest, hblanks⟩ := h
  have hnone : blanks.count '<' = 0 := List.count_eq_zero.2 fun hmem => absurd (hblanks _ hmem) (by decide)
  simp [hnone]

namespace Mended

theorem steps (h : Mended names t u) : Relation.ReflTransGen Step t u := by
  induction h with
  | nil => exact .refl
  | char c _ _ ih => exact ih.lift (c :: ·) fun _ _ => Step.append [c]
  | closed spelled raw _ _ _ ih =>
    refine ih.lift (fun t => '<' :: (spelled ++ (raw ++ '>' :: t))) fun t u hstep => ?_
    have happend := hstep.append ('<' :: (spelled ++ (raw ++ ['>'])))
    simpa using happend
  | @unclosed spelled raw t u _ _ _ ih =>
    refine .trans (ih.lift (fun t => '<' :: (spelled ++ (raw ++ '>' :: t))) fun t u hstep => ?_) (.single ?_)
    · have happend := hstep.append ('<' :: (spelled ++ (raw ++ ['>'])))
      simpa using happend
    · have hstep := Step.intro ('<' :: (spelled ++ Text.trimRight isBlank raw)) (raw.rtakeWhile isBlank) u
        fun c hc => List.mem_rtakeWhile_imp hc
      have hraw : raw ++ '>' :: u = Text.trimRight isBlank raw ++ (raw.rtakeWhile isBlank ++ '>' :: u) := by
        rw [← List.append_assoc]
        exact congrArg (· ++ '>' :: u) List.rdropWhile_append_rtakeWhile.symm
      dsimp only
      rw [hraw]
      simpa using hstep

/-- No `<` comes or goes. -/
theorem count_eq (h : Mended names t u) : u.count '<' = t.count '<' := by
  have hsteps := h.steps
  clear h
  induction hsteps with
  | refl => rfl
  | tail _ hstep ih => rw [hstep.count_eq, ih]

-- ---------------------------------------------------------------------------
-- Mending twice
-- ---------------------------------------------------------------------------

theorem exists_tail {c : Char} (h : Mended names t (c :: u)) (hc : c ≠ '<') :
    ∃ t', t = c :: t' ∧ Mended names t' u := by
  generalize hw : c :: u = w at h
  cases h with
  | nil => cases hw
  | char d _ hmended =>
    obtain ⟨rfl, rfl⟩ := List.cons_eq_cons.1 hw
    exact ⟨_, rfl, hmended⟩
  | closed => exact absurd (List.cons_eq_cons.1 hw).1 hc
  | unclosed => exact absurd (List.cons_eq_cons.1 hw).1 hc

/-- What stands before the first `<` of a mended text was there before. -/
theorem exists_append {lead : Text} (h : Mended names t (lead ++ u)) (hlead : '<' ∉ lead) :
    ∃ t', t = lead ++ t' ∧ Mended names t' u := by
  induction lead generalizing t with
  | nil => exact ⟨t, rfl, h⟩
  | cons c lead ih =>
    rw [List.mem_cons, not_or] at hlead
    obtain ⟨t₁, rfl, h₁⟩ := h.exists_tail (Ne.symm hlead.1)
    obtain ⟨t₂, rfl, h₂⟩ := ih h₁ hlead.2
    exact ⟨t₂, rfl, h₂⟩

/-- Mending brings no void tag about. -/
theorem read?_eq_none (hnames : ∀ name ∈ names, IsPlain name) {c : Char} (h : Mended names t u)
    (hread : read? names (c :: t) = none) : read? names (c :: u) = none := by
  cases htag : read? names (c :: u) with
  | none => rfl
  | some tag =>
    obtain ⟨spelled, raw, after, heq, hvoid, -⟩ := exists_of_read? htag
    obtain ⟨rfl, rfl⟩ := List.cons_eq_cons.1 heq
    have hsplit : spelled ++ (raw ++ '>' :: after) = spelled ++ (raw ++ ['>']) ++ after := by simp
    rw [hsplit] at h
    obtain ⟨t', rfl, -⟩ := h.exists_append (hvoid.notMem_less hnames)
    have hvoidRead := read?_of_isVoid hnames hvoid t'
    rw [List.append_assoc, List.append_assoc, List.singleton_append, hvoidRead] at hread
    cases hread

/-- With plain names a mended text has nothing left to mend. -/
theorem closeFrom_eq_self (hnames : ∀ name ∈ names, IsPlain name) (h : Mended names t u) :
    closeFrom names true 0 u = u := by
  induction h with
  | nil => rfl
  | char c hread hmended ih => rw [closeFrom_char (hmended.read?_eq_none hnames hread), ih]
  | @closed spelled raw t u hvoid hslash _ ih =>
    rw [closeFrom_tag (read?_of_isVoid hnames hvoid u), if_pos ((isClosed_tagOf spelled raw).2 hslash), ih]
  | @unclosed spelled raw t u hvoid _ _ ih =>
    -- the tag that was closed is read again, with the slash at its end
    rw [repaired_append, closeFrom_tag (read?_of_isVoid hnames hvoid.repaired u),
      if_pos ((isClosed_tagOf _ _).2 (endsInSlash_repaired raw)), ih]

end Mended

-- ---------------------------------------------------------------------------
-- All tags of a text
-- ---------------------------------------------------------------------------

theorem mem_insertName {name n : Text} {ns : List Text} : n ∈ insertName name ns ↔ n = name ∨ n ∈ ns := by
  induction ns with
  | nil => simp [insertName]
  | cons m ns ih =>
    rw [insertName]
    split
    · simp
    · rw [List.mem_cons, ih, List.mem_cons]
      exact or_left_comm

theorem mem_tryOrder {n : Text} (hnames : names ≠ []) : n ∈ tryOrder names ↔ n ∈ names := by
  rw [tryOrder, if_neg hnames]
  clear hnames
  induction names with
  | nil => rfl
  | cons m names ih => rw [List.foldr_cons, mem_insertName, ih, List.mem_cons]

theorem isPlain_tryOrder (h : ∀ name ∈ names, IsPlain name) : ∀ name ∈ tryOrder names, IsPlain name := by
  by_cases hnames : names = []
  · subst hnames
    intro name hname
    obtain rfl := List.mem_singleton.1 hname
    exact fun c hc => absurd hc List.not_mem_nil
  · exact fun name hname => h name ((mem_tryOrder hnames).1 hname)

theorem isVoid_tryOrder_iff (hnames : names ≠ []) {spelled raw : Text} :
    IsVoid (tryOrder names) spelled raw ↔ IsVoid names spelled raw := by
  constructor
  · rintro ⟨⟨name, hname, hspells⟩, hends, hless, hgreater⟩
    exact ⟨⟨name, (mem_tryOrder hnames).1 hname, hspells⟩, hends, hless, hgreater⟩
  · rintro ⟨⟨name, hname, hspells⟩, hends, hless, hgreater⟩
    exact ⟨⟨name, (mem_tryOrder hnames).2 hname, hspells⟩, hends, hless, hgreater⟩

theorem mended_closeAll (names : List Text) (t : Text) : Mended (tryOrder names) t (closeAll names t) :=
  mended_closeFrom (tryOrder names) t

/-- Closing the tags of a text adds and removes no `<`. -/
theorem count_closeAll (names : List Text) (t : Text) : (closeAll names t).count '<' = t.count '<' :=
  (mended_closeAll names t).count_eq

/-- With plain names, closing the tags of a text once is enough. -/
theorem closeAll_closeAll (hnames : ∀ name ∈ names, IsPlain name) (t : Text) :
    closeAll names (closeAll names t) = closeAll names t :=
  (mended_closeAll names t).closeFrom_eq_self (isPlain_tryOrder hnames)

end MdxSafe.VoidTag
