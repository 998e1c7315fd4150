-- SUMMARY: Closing void tags by the parts of a text: each tag is repaired on its own, and all else stays.
import Mathlib.Data.List.Forall2
import MdxSafe.Proofs.Rewrite.Markup

/-!
# Repair by parts

A text is cut into its void tags and the characters outside of them (`IsCutting`). The tags are those that occur
anywhere in the text: as no angle bracket stands inside a tag, two of them never share a character, and none goes across
a `<` or `>`. Closing void tags repairs each part on its own (`closeVoidTags_repairs`): a tag that lacks the slash gets
` /` in the place of the blanks before its `>`. A tag of another name is no void tag, whatever name its own one starts
with.
-/

namespace MdxSafe.VoidTag

variable {names : List Text} {t u x x' y y' spelled raw : Text} {c : Char}

-- ---------------------------------------------------------------------------
-- Parts of a text
-- ---------------------------------------------------------------------------

/-- A part of a text: a void tag, or a character outside of the void tags. -/
inductive Part where
  | char (c : Char)
  | tag (spelled raw : Text)
  deriving DecidableEq

namespace Part

/-- The text of a part. -/
def written : Part → Text
  | char c => [c]
  | tag spelled raw => '<' :: (spelled ++ (raw ++ ['>']))

/-- The part that a part is repaired to. -/
def repair : Part → Part
  | char c => char c
  | tag spelled raw => if EndsInSlash raw then tag spelled raw else tag spelled (repaired raw)

end Part

/-- The text of parts in order. -/
def textOf (ps : List Part) : Text := ps.flatMap Part.written

@[simp]
theorem textOf_char (c : Char) (ps : List Part) : textOf (.char c :: ps) = c :: textOf ps := rfl

@[simp]
theorem textOf_tag (spelled raw : Text) (ps : List Part) :
    textOf (.tag spelled raw :: ps) = '<' :: (spelled ++ (raw ++ '>' :: textOf ps)) := by
  simp [textOf, Part.written]

/-- Parts make up a text, and the tags among them are the void tags that occur in it, each at its place. -/
structure IsCutting (names : List Text) (t : Text) (ps : List Part) : Prop where
  text_eq : textOf ps = t
  isVoid : ∀ spelled raw, .tag spelled raw ∈ ps → IsVoid names spelled raw
  exists_part : ∀ lead spelled raw rest, t = lead ++ '<' :: (spelled ++ (raw ++ '>' :: rest)) → IsVoid names spelled raw →
    ∃ before after, ps = before ++ .tag spelled raw :: after ∧ textOf before = lead ∧ textOf after = rest

namespace IsCutting

theorem nil : IsCutting names [] [] := by
  refine ⟨rfl, fun spelled raw hmem => absurd hmem List.not_mem_nil, fun lead spelled raw rest heq => ?_⟩
  cases lead <;> cases heq

theorem char (hnames : ∀ name ∈ names, IsPlain name) {ps : List Part} (hread : read? names (c :: t) = none)
    (h : IsCutting names t ps) : IsCutting names (c :: t) (.char c :: ps) := by
  refine ⟨by rw [textOf_char, h.text_eq], fun spelled raw hmem => ?_, fun lead spelled raw rest heq hvoid => ?_⟩
  · exact h.isVoid spelled raw ((List.mem_cons.1 hmem).resolve_left nofun)
  · cases lead with
    | nil =>
      rw [heq, List.nil_append, read?_of_isVoid hnames hvoid rest] at hread
      cases hread
    | cons d lead =>
      obtain ⟨rfl, rfl⟩ := List.cons_eq_cons.1 heq
      obtain ⟨before, after, rfl, rfl, rfl⟩ := h.exists_part lead spelled raw rest rfl hvoid
      exact ⟨.char c :: before, after, rfl, rfl, rfl⟩

theorem tag (hnames : ∀ name ∈ names, IsPlain name) {ps : List Part} (hvoid : IsVoid names spelled raw)
    (h : IsCutting names t ps) :
    IsCutting names ('<' :: (spelled ++ (raw ++ '>' :: t))) (.tag spelled raw :: ps) := by
  refine ⟨by rw [textOf_tag, h.text_eq], fun spelled' raw' hmem => ?_, fun lead spelled' raw' rest heq hvoid' => ?_⟩
  · rcases List.mem_cons.1 hmem with heq | hmem
    · cases heq
      exact hvoid
    · exact h.isVoid spelled' raw' hmem
  · cases lead with
    | nil =>
      obtain ⟨rfl, rfl, rfl⟩ := hvoid.unique hnames hvoid' (List.cons_eq_cons.1 heq).2
      exact ⟨[], ps, rfl, rfl, h.text_eq⟩
    | cons d lead =>
      -- the other tag starts behind this one, which holds no further `<`
      have htail : spelled ++ (raw ++ '>' :: t) = lead ++ '<' :: (spelled' ++ (raw' ++ '>' :: rest)) :=
        (List.cons_eq_cons.1 heq).2
      obtain rfl := (List.cons_eq_cons.1 heq).1
      have hsplit : lead ++ '<' :: (spelled' ++ (raw' ++ '>' :: rest)) = spelled ++ (raw ++ ['>']) ++ t := by
        rw [← htail]
        simp
      obtain ⟨lead, rfl, rfl⟩ := Text.exists_of_append_cons_eq_append hsplit (hvoid.notMem_less hnames)
      obtain ⟨before, after, rfl, rfl, rfl⟩ := h.exists_part lead spelled' raw' rest rfl hvoid'
      exact ⟨.tag spelled raw :: before, after, rfl, by simp, rfl⟩

end IsCutting

/-- A mended text has the parts of the text that it came from, each of them repaired. -/
theorem Mended.exists_cutting (hnames : ∀ name ∈ names, IsPlain name) (h : Mended names t u) :
    ∃ ps, IsCutting names t ps ∧ IsCutting names u (ps.map Part.repair) := by
  induction h with
  | nil => exact ⟨[], .nil, .nil⟩
  | char c hread hmended ih =>
    obtain ⟨ps, ht, hu⟩ := ih
    exact ⟨.char c :: ps, ht.char hnames hread, hu.char hnames (hmended.read?_eq_none hnames hread)⟩
  | closed spelled raw hvoid hslash _ ih =>
    obtain ⟨ps, ht, hu⟩ := ih
    refine ⟨.tag spelled raw :: ps, ht.tag hnames hvoid, ?_⟩
    rw [List.map_cons, Part.repair, if_pos hslash]
    exact hu.tag hnames hvoid
  | unclosed spelled raw hvoid hopen _ ih =>
    obtain ⟨ps, ht, hu⟩ := ih
    refine ⟨.tag spelled raw :: ps, ht.tag hnames hvoid, ?_⟩
    rw [List.map_cons, Part.repair, if_neg hopen, repaired_append]
    exact hu.tag hnames hvoid.repaired

theorem endsInSlash_of_mem_repair {ps : List Part} (h : .tag spelled raw ∈ ps.map Part.repair) : EndsInSlash raw := by
  obtain ⟨p, -, hp⟩ := List.mem_map.1 h
  cases p with
  | char c => cases hp
  | tag spelled' raw' =>
    rw [Part.repair] at hp
    split at hp
    · next hslash =>
      cases hp
      exact hslash
    · cases hp
      exact endsInSlash_repaired raw'

-- ---------------------------------------------------------------------------
-- Texts one after the other
-- ---------------------------------------------------------------------------

/-- No void tag goes across the place between two texts: the first one ends in `>`, or the second one starts with `<`. -/
def IsSeam (x y : Text) : Prop := (∀ c ∈ x.getLast?, c = '>') ∨ y.head? = some '<'

theorem isSeam_less (x y : Text) : IsSeam x ('<' :: y) := .inr rfl

theorem isSeam_greater (x y : Text) : IsSeam (x ++ ['>']) y := by
  refine .inl fun c hc => ?_
  rw [List.getLast?_concat] at hc
  exact (Option.some.inj hc).symm

theorem IsSeam.of_append (h : IsSeam (x' ++ x) y) : IsSeam x y := by
  refine h.imp_left fun hlast c hc => hlast c ?_
  rw [List.getLast?_append, hc]
  rfl

theorem IsSeam.of_cons (h : IsSeam (c :: x) y) : IsSeam x y := IsSeam.of_append (List.singleton_append ▸ h)

theorem IsSeam.read?_eq_none (hnames : ∀ name ∈ names, IsPlain name) (hseam : IsSeam (c :: x) y)
    (hread : read? names (c :: x) = none) : read? names (c :: (x ++ y)) = none := by
  cases htag : read? names (c :: (x ++ y)) with
  | none => rfl
  | some tag =>
    obtain ⟨spelled, raw, after, heq, hvoid, -⟩ := exists_of_read? htag
    obtain ⟨rfl, hrest⟩ := List.cons_eq_cons.1 heq
    have hsplit : spelled ++ raw ++ '>' :: after = x ++ y := by rw [hrest, List.append_assoc]
    rcases Text.append_cons_eq_append_iff.1 hsplit with ⟨z, rfl, -⟩ | ⟨z, hx, hy⟩
    · -- the tag ends within the first text
      rw [List.append_assoc, read?_of_isVoid hnames hvoid z] at hread
      cases hread
    · exfalso
      rcases hseam with hlast | hhead
      · -- the first text ends in `>`, which the tag would hold
        have hgreater : '>' ∉ '<' :: (spelled ++ raw) := by
          have hspelled : '>' ∉ spelled := fun hmem => absurd (hvoid.isPlain hnames _ hmem) (by decide)
          simp [hspelled, hvoid.noGreater]
        have hend := List.getLast_mem (List.cons_ne_nil '<' x)
        rw [hlast _ (List.getLast?_eq_some_getLast (List.cons_ne_nil '<' x))] at hend
        rw [hx] at hgreater
        exact hgreater (List.mem_append_left z hend)
      · have hless := hvoid.notMem_less hnames
        cases z with
        | nil =>
          rw [hy] at hhead
          cases hhead
        | cons d z =>
          rw [hy] at hhead
          cases hhead
          rw [← List.append_assoc, hx] at hless
          simp at hless

theorem Mended.append (hnames : ∀ name ∈ names, IsPlain name) (hx : Mended names x x') (hy : Mended names y y')
    (hseam : IsSeam x y) : Mended names (x ++ y) (x' ++ y') := by
  induction hx with
  | nil => exact hy
  | @char c x x' hread _ ih =>
    exact .char c (hseam.read?_eq_none hnames hread) (ih hseam.of_cons)
  | @closed spelled raw x x' hvoid hslash _ ih =>
    have hsplit : ∀ z : Text, '<' :: (spelled ++ (raw ++ '>' :: z)) = '<' :: (spelled ++ (raw ++ ['>'])) ++ z := by simp
    rw [hsplit] at hseam
    have hmended := Mended.closed spelled raw hvoid hslash (ih hseam.of_append)
    simpa using hmended
  | @unclosed spelled raw x x' hvoid hopen _ ih =>
    have hsplit : ∀ z : Text, '<' :: (spelled ++ (raw ++ '>' :: z)) = '<' :: (spelled ++ (raw ++ ['>'])) ++ z := by simp
    rw [hsplit] at hseam
    have hmended := Mended.unclosed spelled raw hvoid hopen (ih hseam.of_append)
    simpa using hmended

/-- With plain names a text is mended in one way only. -/
theorem Mended.eq_closeFrom (hnames : ∀ name ∈ names, IsPlain name) (h : Mended names t u) :
    u = closeFrom names true 0 t := by
  induction h with
  | nil => rfl
  | char c hread _ ih => rw [closeFrom_char hread, ih]
  | closed spelled raw hvoid hslash _ ih =>
    rw [closeFrom_tag (read?_of_isVoid hnames hvoid _), if_pos ((isClosed_tagOf spelled raw).2 hslash), ih]
  | unclosed spelled raw hvoid hopen _ ih =>
    rw [closeFrom_tag (read?_of_isVoid hnames hvoid _), if_neg fun h => hopen ((isClosed_tagOf spelled raw).1 h), ih]
    simp [tagOf, Tag.close]

/-- Texts that no void tag goes across are closed each on its own. -/
theorem closeAll_append (hnames : ∀ name ∈ names, IsPlain name) (hseam : IsSeam x y) :
    closeAll names (x ++ y) = closeAll names x ++ closeAll names y :=
  (((mended_closeAll names x).append (isPlain_tryOrder hnames) (mended_closeAll names y) hseam).eq_closeFrom
    (isPlain_tryOrder hnames)).symm

/-- What stands between angle brackets, and is no void tag, holds no open one. -/
theorem not_hasOpenTag_of_other (hnames : ∀ name ∈ names, IsPlain name) (hplain : IsPlain spelled)
    (hends : endsName (raw ++ ['>'])) (hless : '<' ∉ raw) (hother : ∀ name ∈ names, ¬ Spells name spelled) :
    ¬ HasOpenTag names ('<' :: (spelled ++ (raw ++ ['>']))) := by
  rintro ⟨front, back, heq, lead, spelled', raw', rfl, hvoid, -⟩
  cases lead with
  | nil =>
    have hsame : spelled ++ (raw ++ ['>']) = spelled' ++ (raw' ++ '>' :: back) := by simpa using heq
    obtain ⟨rfl, -⟩ := Text.append_inj_of_class hplain (hvoid.isPlain hnames) (head?_any_of_endsName hends [])
      (head?_any_of_endsName hvoid.ends back) hsame
    obtain ⟨name, hname, hspells⟩ := hvoid.name
    exact hother name hname hspells
  | cons c lead =>
    have hinner : '<' ∈ spelled ++ (raw ++ ['>']) := by
      rw [(List.cons_eq_cons.1 heq).2]
      simp
    simp only [List.mem_append, List.mem_singleton, hless, false_or] at hinner
    exact hinner.elim (fun hmem => absurd (hplain _ hmem) (by decide)) (by decide)

end MdxSafe.VoidTag

namespace MdxSafe

open VoidTag

/-- Closing void tags is complete and minimal. In what comes of it every void tag has a slash before its `>`, blanks
apart. Its parts are those of the text, where just the tags that lacked the slash have ` /` in the place of the blanks
before `>`. A tag of a name that no element has stays, and so does all else in front of it and behind it, as if it were
not there. -/
theorem closeVoidTags_repairs (s : Settings) (hne : s.voidElements ≠ [])
    (hnames : ∀ name ∈ s.voidElements, IsPlain name) (t : Text) :
    (∀ lead spelled raw rest, Pass.closeVoidTags.rewrite s t = lead ++ '<' :: (spelled ++ (raw ++ '>' :: rest)) →
        IsVoid s.voidElements spelled raw → EndsInSlash raw)
      ∧ (∃ ps, IsCutting s.voidElements t ps
          ∧ IsCutting s.voidElements (Pass.closeVoidTags.rewrite s t) (ps.map Part.repair))
      ∧ ∀ lead spelled raw rest, t = lead ++ '<' :: (spelled ++ (raw ++ '>' :: rest)) →
          IsPlain spelled → endsName (raw ++ ['>']) → '<' ∉ raw → (∀ name ∈ s.voidElements, ¬ Spells name spelled) →
          Pass.closeVoidTags.rewrite s t = Pass.closeVoidTags.rewrite s lead
            ++ '<' :: (spelled ++ (raw ++ '>' :: Pass.closeVoidTags.rewrite s rest)) := by
  have hrewrite : ∀ u, Pass.closeVoidTags.rewrite s u = closeAll s.voidElements u := fun u => if_neg hne
  simp only [hrewrite]
  obtain ⟨ps, ht, hu⟩ := (mended_closeAll s.voidElements t).exists_cutting (isPlain_tryOrder hnames)
  have hcutting : ∀ {u ps}, IsCutting (tryOrder s.voidElements) u ps → IsCutting s.voidElements u ps := fun h =>
    ⟨h.text_eq, fun spelled raw hmem => (isVoid_tryOrder_iff hne).1 (h.isVoid spelled raw hmem),
      fun lead spelled raw rest heq hvoid => h.exists_part lead spelled raw rest heq ((isVoid_tryOrder_iff hne).2 hvoid)⟩
  refine ⟨fun lead spelled raw rest heq hvoid => ?_, ⟨ps, hcutting ht, hcutting hu⟩, ?_⟩
  · obtain ⟨before, after, hps, -, -⟩ := (hcutting hu).exists_part lead spelled raw rest heq hvoid
    have hmem : .tag spelled raw ∈ ps.map Part.repair := by
      rw [hps]
      exact List.mem_append_right before List.mem_cons_self
    exact endsInSlash_of_mem_repair hmem
  · rintro lead spelled raw rest rfl hplain hends hless hother
    have hstays : closeAll s.voidElements ('<' :: (spelled ++ (raw ++ ['>']))) = '<' :: (spelled ++ (raw ++ ['>'])) :=
      (closeAll_eq_self_iff hne hnames _).2 (not_hasOpenTag_of_other hnames hplain hends hless hother)
    have hsplit : ∀ z : Text, '<' :: (spelled ++ (raw ++ '>' :: z)) = '<' :: (spelled ++ raw) ++ ['>'] ++ z := by simp
    have htag : '<' :: (spelled ++ (raw ++ ['>'])) = '<' :: (spelled ++ raw) ++ ['>'] := by simp
    rw [closeAll_append hnames (isSeam_less lead _), hsplit, closeAll_append hnames (isSeam_greater _ rest), ← htag,
      hstays]
    simp

/-- An image is closed, a column that is closed stays, and so does the group of columns whose name goes on. -/
theorem closeVoidTags_repairs_sample :
    let s : Settings := {}
    let t := "<IMG src=x ><col\t/ ><colgroup ><image a>".toList
    (s.voidElements ≠ [] ∧ ∀ name ∈ s.voidElements, IsPlain name)
      ∧ Pass.closeVoidTags.rewrite s t = "<IMG src=x /><col\t/ ><colgroup ><image a>".toList
      ∧ (∃ ps, IsCutting s.voidElements t ps
          ∧ IsCutting s.voidElements "<IMG src=x /><col\t/ ><colgroup ><image a>".toList (ps.map Part.repair))
      ∧ Pass.closeVoidTags.rewrite s t = Pass.closeVoidTags.rewrite s "<IMG src=x ><col\t/ >".toList
          ++ "<colgroup >".toList ++ Pass.closeVoidTags.rewrite s "<image a>".toList := by
  intro s t
  have hne : s.voidElements ≠ [] := by decide
  have hnames : ∀ name ∈ s.voidElements, IsPlain name := by decide +kernel
  have hrewrite : Pass.closeVoidTags.rewrite s t = "<IMG src=x /><col\t/ ><colgroup ><image a>".toList := by
    decide +kernel
  have hgroup : ∀ name ∈ s.voidElements, ¬ Spells name "colgroup".toList := by
    intro name hname hspells
    have hlength : ∀ name ∈ s.voidElements, name.length ≠ "colgroup".toList.length := by decide
    exact hlength name hname hspells.length_eq
  obtain ⟨-, hparts, hother⟩ := closeVoidTags_repairs s hne hnames t
  refine ⟨⟨hne, hnames⟩, hrewrite, hrewrite ▸ hparts, ?_⟩
  exact hother "<IMG src=x ><col\t/ >".toList "colgroup".toList " ".toList "<image a>".toList rfl (by decide) rfl
    (by decide) hgroup

end MdxSafe
