-- SUMMARY: Which texts closing void tags leaves as they are, and which markup that is closed already is among them.
import MdxSafe.Proofs.Rewrite.VoidTag
import MdxSafe.Rewrite.Pass

/-!
# Markup that is closed already

A text stays as it is just if none of its `>` ends an open void tag (`closeAll_eq_self_iff`). A tag that ends in `/>`
may still be cut: tags are read without regard to quotation marks, up to the first `>`, so a `>` in the value of an
attribute may end what reads as an open tag. This is the only way in which closed markup changes
(`hasOpenTag_written_iff`).
-/

namespace MdxSafe.VoidTag

variable {names : List Text} {t u x y : Text}

-- ---------------------------------------------------------------------------
-- Open tags
-- ---------------------------------------------------------------------------

/-- A `>` after this text ends a void tag that is not closed. -/
def EndsOpenTag (names : List Text) (t : Text) : Prop :=
  ∃ lead spelled raw, t = lead ++ '<' :: (spelled ++ raw) ∧ IsVoid names spelled raw ∧ ¬ EndsInSlash raw

/-- Some `>` of the text ends a void tag that is not closed. -/
def HasOpenTag (names : List Text) (t : Text) : Prop :=
  ∃ front back, t = front ++ '>' :: back ∧ EndsOpenTag names front

theorem EndsOpenTag.append_left (h : EndsOpenTag names t) (x : Text) : EndsOpenTag names (x ++ t) := by
  obtain ⟨lead, spelled, raw, rfl, hvoid, hopen⟩ := h
  exact ⟨x ++ lead, spelled, raw, by rw [List.append_assoc], hvoid, hopen⟩

theorem HasOpenTag.append_left (h : HasOpenTag names t) (x : Text) : HasOpenTag names (x ++ t) := by
  obtain ⟨front, back, rfl, hends⟩ := h
  exact ⟨x ++ front, back, by rw [List.append_assoc], hends.append_left x⟩

theorem HasOpenTag.append_right (h : HasOpenTag names t) (y : Text) : HasOpenTag names (t ++ y) := by
  obtain ⟨front, back, rfl, hends⟩ := h
  exact ⟨front, back ++ y, by rw [List.append_assoc, List.cons_append], hends⟩

/-- After a slash no tag is open. -/
theorem not_endsOpenTag (hnames : ∀ name ∈ names, IsPlain name) (h : EndsInSlash t) : ¬ EndsOpenTag names t := by
  rintro ⟨lead, spelled, raw, rfl, hvoid, hopen⟩
  refine hopen ?_
  have hsplit : lead ++ '<' :: (spelled ++ raw) = lead ++ ('<' :: spelled) ++ raw := by simp
  rw [EndsInSlash, hsplit, Text.trimRight_append] at h
  split at h
  · -- only blanks come after the name, which holds neither blank nor slash
    exfalso
    have hplain : ∀ c ∈ '<' :: spelled, isBlank c = false ∧ c ≠ '/' := by
      intro c hc
      rcases List.mem_cons.1 hc with rfl | hc
      · decide
      · have hbreak := hvoid.isPlain hnames c hc
        simp only [isBreak, Bool.or_eq_false_iff, decide_eq_false_iff_not] at hbreak
        exact ⟨hbreak.1.1.1, hbreak.1.1.2⟩
    have hlast := List.getLast_mem (List.cons_ne_nil '<' spelled)
    have htrim : Text.trimRight isBlank ('<' :: spelled) = '<' :: spelled :=
      List.rdropWhile_eq_self_iff.2 fun hne => by simp [(hplain _ (List.getLast_mem hne)).1]
    rw [Text.trimRight_append, if_neg (by rw [htrim]; simp), htrim, List.getLast?_append_of_ne_nil _ (by simp),
      List.getLast?_eq_some_getLast (List.cons_ne_nil '<' spelled), Option.some.injEq] at h
    exact (hplain _ hlast).2 h
  · next hne =>
    rw [List.getLast?_append_of_ne_nil _ hne] at h
    exact h

theorem not_endsOpenTag_of_notMem (h : '<' ∉ t) : ¬ EndsOpenTag names t := by
  rintro ⟨lead, spelled, raw, rfl, -, -⟩
  exact h (List.mem_append_right lead List.mem_cons_self)

theorem not_hasOpenTag_of_notMem (h : '<' ∉ t) : ¬ HasOpenTag names t := by
  rintro ⟨front, back, rfl, hends⟩
  exact not_endsOpenTag_of_notMem (fun hmem => h (List.mem_append_left _ hmem)) hends

/-- A tag that ends after some text may start in it. This says that it does not. -/
def IsApart (names : List Text) (x : Text) : Prop := ∀ y, EndsOpenTag names (x ++ y) → EndsOpenTag names y

theorem isApart_of_notMem (h : '<' ∉ x) : IsApart names x := by
  rintro y ⟨lead, spelled, raw, heq, hvoid, hopen⟩
  rcases Text.append_cons_eq_append_iff.1 heq.symm with ⟨z, rfl, -⟩ | ⟨z, rfl, rfl⟩
  · exact absurd (List.mem_append_right lead List.mem_cons_self) h
  · exact ⟨z, spelled, raw, rfl, hvoid, hopen⟩

/-- No tag goes on after a `>`. -/
theorem isApart_of_greater (hnames : ∀ name ∈ names, IsPlain name) (x : Text) : IsApart names (x ++ ['>']) := by
  rintro y ⟨lead, spelled, raw, heq, hvoid, hopen⟩
  rcases Text.append_cons_eq_append_iff.1 heq.symm with ⟨z, hx, hraw⟩ | ⟨z, rfl, rfl⟩
  · -- the tag would start before the `>` and hold it
    have hgreater : '>' ∈ spelled ++ raw := by
      rw [hraw]
      refine List.mem_append_left y ?_
      rcases Text.append_cons_eq_append_iff.1 hx with ⟨w, -, hw⟩ | ⟨w, -, hw⟩
      · cases w <;> cases hw
      · cases w with
        | nil => cases hw
        | cons c w =>
          rw [(List.cons_eq_cons.1 hw).2]
          simp
    rcases List.mem_append.1 hgreater with hmem | hmem
    · exact absurd (hvoid.isPlain hnames _ hmem) (by decide)
    · exact absurd hmem hvoid.noGreater
  · exact ⟨z, spelled, raw, rfl, hvoid, hopen⟩

theorem hasOpenTag_append_iff (hx : IsApart names x) (y : Text) :
    HasOpenTag names (x ++ y) ↔ HasOpenTag names x ∨ HasOpenTag names y := by
  constructor
  · rintro ⟨front, back, heq, hends⟩
    rcases Text.append_cons_eq_append_iff.1 heq.symm with ⟨z, rfl, -⟩ | ⟨z, rfl, rfl⟩
    · exact .inl ⟨front, z, rfl, hends⟩
    · exact .inr ⟨z, back, rfl, hx z hends⟩
  · rintro (h | h)
    · exact h.append_right y
    · exact h.append_left x

/-- A void tag holds an open tag just if it is one. -/
theorem hasOpenTag_void_iff (hnames : ∀ name ∈ names, IsPlain name) {spelled raw : Text}
    (h : IsVoid names spelled raw) :
    HasOpenTag names ('<' :: (spelled ++ (raw ++ ['>']))) ↔ ¬ EndsInSlash raw := by
  have hsplit : '<' :: (spelled ++ (raw ++ ['>'])) = ('<' :: (spelled ++ raw)) ++ ['>'] := by simp
  constructor
  · rintro ⟨front, back, heq, lead, spelled', raw', rfl, hvoid', hopen⟩
    -- the text has one `<` only, so the tag starts there, and what is read there is this tag
    cases lead with
    | cons c lead =>
      refine absurd ?_ (h.notMem_less hnames)
      rw [(List.cons_eq_cons.1 heq).2]
      simp
    | nil =>
      have hread := read?_of_isVoid hnames h []
      have hread' := read?_of_isVoid hnames hvoid' back
      have hsame : '<' :: (spelled ++ (raw ++ ['>'])) = '<' :: (spelled' ++ (raw' ++ '>' :: back)) := by
        rw [heq]
        simp
      rw [hsame, hread', Option.some.injEq] at hread
      have hclosed := isClosed_tagOf spelled' raw'
      rw [hread, isClosed_tagOf] at hclosed
      exact fun hslash => hopen (hclosed.1 hslash)
  · intro hopen
    exact ⟨'<' :: (spelled ++ raw), [], hsplit, [], spelled, raw, rfl, h, hopen⟩

/-- A character that starts no void tag holds no open tag back. -/
theorem hasOpenTag_cons_iff (hnames : ∀ name ∈ names, IsPlain name) {c : Char} (hread : read? names (c :: t) = none) :
    HasOpenTag names (c :: t) ↔ HasOpenTag names t := by
  refine ⟨?_, fun hopen => hopen.append_left [c]⟩
  rintro ⟨front, back, heq, lead, spelled, raw, rfl, hvoid, hopen⟩
  cases lead with
  | nil =>
    have hvoidRead := read?_of_isVoid hnames hvoid back
    have hsame : c :: t = '<' :: (spelled ++ (raw ++ '>' :: back)) := by
      rw [heq]
      simp
    rw [← hsame, hread] at hvoidRead
    cases hvoidRead
  | cons d lead =>
    exact ⟨lead ++ '<' :: (spelled ++ raw), back, (List.cons_eq_cons.1 heq).2, lead, spelled, raw, rfl, hvoid, hopen⟩

/-- Closing a tag that is open changes it, whatever comes after its `>`. -/
theorem closed_ne_of_not_endsInSlash {raw spelled : Text} (hgreater : '>' ∉ raw) (hopen : ¬ EndsInSlash raw) :
    '<' :: (spelled ++ (Text.trimRight isBlank raw ++ ' ' :: '/' :: '>' :: u))
      ≠ '<' :: (spelled ++ (raw ++ '>' :: t)) := by
  intro heq
  have heq' : (Text.trimRight isBlank raw ++ [' ', '/']) ++ '>' :: u = raw ++ '>' :: t := by
    simpa using (List.append_right_inj spelled).1 (List.cons_eq_cons.1 heq).2
  -- nothing before the first `>` has changed, so a slash stands there already
  have hgreater' : '>' ∉ Text.trimRight isBlank raw ++ [' ', '/'] := by
    simp only [List.mem_append, not_or]
    exact ⟨fun hmem => hgreater ((List.rdropWhile_prefix isBlank raw).subset hmem), by decide⟩
  have hraw : Text.trimRight isBlank raw ++ [' ', '/'] = raw := by
    rcases Text.append_cons_eq_append_iff.1 heq' with ⟨z, hz, -⟩ | ⟨z, hz, hrest⟩
    · refine absurd ?_ hgreater
      rw [hz]
      simp
    · cases z with
      | nil => simpa using hz
      | cons c z =>
        refine absurd ?_ hgreater'
        rw [hz, (List.cons_eq_cons.1 hrest).1]
        simp
  have hslash := endsInSlash_append_slash (Text.trimRight isBlank raw ++ [' '])
  rw [List.append_assoc, List.singleton_append, hraw] at hslash
  exact hopen hslash

namespace Mended

/-- A text is what it becomes just if no void tag is open in it. -/
theorem eq_self_iff (hnames : ∀ name ∈ names, IsPlain name) (h : Mended names t u) :
    u = t ↔ ¬ HasOpenTag names t := by
  induction h with
  | nil => exact iff_of_true rfl (not_hasOpenTag_of_notMem List.not_mem_nil)
  | @char c t u hread _ ih =>
    rw [List.cons.injEq, hasOpenTag_cons_iff hnames hread, ← ih]
    exact and_iff_right rfl
  | @closed spelled raw t u hvoid hslash _ ih =>
    have hapart := isApart_of_greater hnames ('<' :: (spelled ++ raw))
    have htag : ¬ HasOpenTag names ('<' :: (spelled ++ (raw ++ ['>']))) := fun hopen =>
      (hasOpenTag_void_iff hnames hvoid).1 hopen hslash
    have hsplit : ∀ v : Text, '<' :: (spelled ++ (raw ++ '>' :: v)) = ('<' :: (spelled ++ raw)) ++ ['>'] ++ v := by simp
    have htag' : ¬ HasOpenTag names (('<' :: (spelled ++ raw)) ++ ['>']) := by simpa using htag
    rw [hsplit, hsplit, List.append_right_inj, ih, hasOpenTag_append_iff hapart, not_or]
    exact (and_iff_right htag').symm
  | @unclosed spelled raw t u hvoid hopen _ _ =>
    refine iff_of_false (closed_ne_of_not_endsInSlash hvoid.noGreater hopen) fun hnone => hnone ?_
    exact ⟨'<' :: (spelled ++ raw), t, by simp, [], spelled, raw, rfl, hvoid, hopen⟩

end Mended

/-- With plain names, closing void tags leaves a text as it is just if none is open in it. -/
theorem closeAll_eq_self_iff (hne : names ≠ []) (hnames : ∀ name ∈ names, IsPlain name) (t : Text) :
    closeAll names t = t ↔ ¬ HasOpenTag names t := by
  rw [(mended_closeAll names t).eq_self_iff (isPlain_tryOrder hnames)]
  simp only [HasOpenTag, EndsOpenTag, isVoid_tryOrder_iff hne]

-- ---------------------------------------------------------------------------
-- Closed markup
-- ---------------------------------------------------------------------------

/-- The value of an attribute: anything but the quotation mark around it. -/
structure QuotedValue where
  mark : Char
  text : Text
  isMark : mark = '"' ∨ mark = '\''
  mark_notMem : mark ∉ text

/-- A value with its quotation marks. -/
def QuotedValue.written (v : QuotedValue) : Text := v.mark :: (v.text ++ [v.mark])

/-- An attribute. What comes before its value is the gap in front of it, its name and the equals sign. -/
structure Attribute where
  lead : Text
  value : Option QuotedValue
  lead_plain : ∀ c ∈ lead, c ∉ ['<', '>', '"', '\'']

theorem Attribute.plain_of_all {lead : Text} (h : lead.all fun c => c != '<' && c != '>' && c != '"' && c != '\'') :
    ∀ c ∈ lead, c ∉ ['<', '>', '"', '\''] := by
  intro c hc
  have hplain := List.all_eq_true.1 h c hc
  simp only [Bool.and_eq_true, bne_iff_ne] at hplain
  simp [hplain]

/-- The text of an attribute. -/
def Attribute.written (a : Attribute) : Text := a.lead ++ (a.value.map QuotedValue.written).getD []

/-- The text of attributes in order. -/
def attributesWritten (as : List Attribute) : Text := as.flatMap Attribute.written

/-- A tag that is closed in place. -/
structure ClosedTag where
  name : Text
  attributes : List Attribute
  /-- The blanks before the slash. -/
  gap : Text
  name_plain : IsPlain name
  gap_blank : ∀ c ∈ gap, isBlank c

/-- The text of a tag. -/
def ClosedTag.written (tag : ClosedTag) : Text :=
  '<' :: (tag.name ++ (attributesWritten tag.attributes ++ (tag.gap ++ ['/', '>'])))

/-- A part of closed markup: text without tags, or a closed tag. -/
inductive Piece where
  | text (t : Text) (less_notMem : '<' ∉ t)
  | tag (t : ClosedTag)

/-- The text of a part. -/
def Piece.written : Piece → Text
  | .text t _ => t
  | .tag t => t.written

/-- The text of closed markup. -/
def markup (ps : List Piece) : Text := ps.flatMap Piece.written

/-- A `>` in a value ends a void tag that is not closed: it starts with the tag, or in a value. -/
def ClosedTag.IsCut (names : List Text) (tag : ClosedTag) : Prop :=
  ∃ before a after v front back, tag.attributes = before ++ a :: after ∧ a.value = some v
    ∧ v.text = front ++ '>' :: back
    ∧ EndsOpenTag names ('<' :: (tag.name ++ (attributesWritten before ++ (a.lead ++ v.mark :: front))))

-- ---------------------------------------------------------------------------
-- Where closed markup is cut
-- ---------------------------------------------------------------------------

theorem QuotedValue.mark_ne (v : QuotedValue) : v.mark ≠ '>' := by
  rcases v.isMark with h | h <;> rw [h] <;> decide

/-- A `>` in a value and what follows it stands inside the value or in what follows. -/
theorem QuotedValue.exists_of_greater (v : QuotedValue) {front back tail : Text}
    (h : front ++ '>' :: back = v.written ++ tail) :
    (∃ value rest, v.text = value ++ '>' :: rest ∧ front = v.mark :: value)
      ∨ ∃ front', front = v.written ++ front' ∧ tail = front' ++ '>' :: back := by
  have hmark : '>' ∉ [v.mark] := fun hmem => v.mark_ne (List.mem_singleton.1 hmem).symm
  have hopening : front ++ '>' :: back = [v.mark] ++ (v.text ++ ([v.mark] ++ tail)) := by
    simpa [written] using h
  obtain ⟨front, rfl, htext⟩ := Text.exists_of_append_cons_eq_append hopening hmark
  rcases Text.append_cons_eq_append_iff.1 htext.symm with ⟨rest, hrest, -⟩ | ⟨front, rfl, hclosing⟩
  · exact .inl ⟨front, rest, hrest, rfl⟩
  · obtain ⟨front, rfl, htail⟩ := Text.exists_of_append_cons_eq_append hclosing.symm hmark
    exact .inr ⟨front, by simp [written], htail⟩

theorem Attribute.exists_of_greater (a : Attribute) {front back tail : Text}
    (h : front ++ '>' :: back = a.written ++ tail) :
    (∃ v value rest, a.value = some v ∧ v.text = value ++ '>' :: rest ∧ front = a.lead ++ v.mark :: value)
      ∨ ∃ front', front = a.written ++ front' ∧ tail = front' ++ '>' :: back := by
  have hlead : '>' ∉ a.lead := fun hmem => absurd (a.lead_plain _ hmem) (by decide)
  unfold written at h ⊢
  rw [List.append_assoc] at h
  obtain ⟨front, rfl, hvalue⟩ := Text.exists_of_append_cons_eq_append h hlead
  cases hv : a.value with
  | none =>
    rw [hv] at hvalue
    exact .inr ⟨front, by simp, hvalue⟩
  | some v =>
    rw [hv] at hvalue
    rcases v.exists_of_greater hvalue.symm with ⟨value, rest, htext, rfl⟩ | ⟨front, rfl, htail⟩
    · exact .inl ⟨v, value, rest, rfl, htext, rfl⟩
    · exact .inr ⟨front, by simp, htail⟩

/-- A `>` in attributes and what follows them stands in a value or in what follows. -/
theorem exists_of_greater (as : List Attribute) {front back tail : Text}
    (h : front ++ '>' :: back = attributesWritten as ++ tail) :
    (∃ before a after v value rest, as = before ++ a :: after ∧ a.value = some v ∧ v.text = value ++ '>' :: rest
        ∧ front = attributesWritten before ++ (a.lead ++ v.mark :: value))
      ∨ ∃ front', front = attributesWritten as ++ front' ∧ tail = front' ++ '>' :: back := by
  induction as generalizing front with
  | nil => exact .inr ⟨front, rfl, h.symm⟩
  | cons a as ih =>
    have hcons : attributesWritten (a :: as) = a.written ++ attributesWritten as := List.flatMap_cons
    rw [hcons, List.append_assoc] at h
    rcases a.exists_of_greater h with ⟨v, value, rest, hv, htext, rfl⟩ | ⟨front, rfl, hrest⟩
    · exact .inl ⟨[], a, as, v, value, rest, rfl, hv, htext, rfl⟩
    · rcases ih hrest.symm with ⟨before, b, after, v, value, rest, rfl, hv, htext, rfl⟩ | ⟨front, rfl, htail⟩
      · exact .inl ⟨a :: before, b, after, v, value, rest, rfl, hv, htext, by simp [attributesWritten]⟩
      · exact .inr ⟨front, by rw [hcons, List.append_assoc], htail⟩

/-- An open tag in a closed one ends in a value. -/
theorem hasOpenTag_written_iff (hnames : ∀ name ∈ names, IsPlain name) (tag : ClosedTag) :
    HasOpenTag names tag.written ↔ tag.IsCut names := by
  constructor
  · rintro ⟨front, back, heq, hends⟩
    have hname : '>' ∉ '<' :: tag.name := by
      rw [List.mem_cons, not_or]
      exact ⟨by decide, fun hmem => absurd (tag.name_plain _ hmem) (by decide)⟩
    have hsplit : front ++ '>' :: back
        = ('<' :: tag.name) ++ (attributesWritten tag.attributes ++ (tag.gap ++ ['/', '>'])) := heq.symm
    obtain ⟨front, rfl, hattributes⟩ := Text.exists_of_append_cons_eq_append hsplit hname
    rcases exists_of_greater tag.attributes hattributes.symm with
      ⟨before, a, after, v, value, rest, has, hv, htext, rfl⟩ | ⟨front, rfl, htail⟩
    · exact ⟨before, a, after, v, value, rest, has, hv, htext, hends⟩
    · -- the `>` is that of the tag itself, which has a slash in front
      have hend : front ++ '>' :: back = (tag.gap ++ ['/']) ++ ['>'] := by
        rw [← htail]
        simp
      have hgap : '>' ∉ tag.gap ++ ['/'] := by
        rw [List.mem_append, not_or]
        exact ⟨fun hmem => absurd (tag.gap_blank _ hmem) (by decide), by decide⟩
      obtain ⟨z, rfl, hz⟩ := Text.exists_of_append_cons_eq_append hend hgap
      obtain rfl : z = [] := by
        cases z with
        | nil => rfl
        | cons c z => simp at hz
      rw [List.append_nil] at hends
      refine absurd hends (not_endsOpenTag hnames ?_)
      rw [← List.append_assoc, ← List.append_assoc]
      exact endsInSlash_append_slash _
  · rintro ⟨before, a, after, v, front, back, has, hv, htext, hends⟩
    refine ⟨_, back ++ v.mark :: (attributesWritten after ++ (tag.gap ++ ['/', '>'])), ?_, hends⟩
    simp [ClosedTag.written, has, attributesWritten, Attribute.written, hv, QuotedValue.written, htext]

theorem hasOpenTag_markup_iff (hnames : ∀ name ∈ names, IsPlain name) (ps : List Piece) :
    HasOpenTag names (markup ps) ↔ ∃ tag, .tag tag ∈ ps ∧ tag.IsCut names := by
  induction ps with
  | nil => exact iff_of_false (not_hasOpenTag_of_notMem List.not_mem_nil) (by simp)
  | cons p ps ih =>
    have hcons : markup (p :: ps) = p.written ++ markup ps := List.flatMap_cons
    rw [hcons]
    cases p with
    | text t hless =>
      have hwritten : (Piece.text t hless).written = t := rfl
      have hnone : ¬ HasOpenTag names t := not_hasOpenTag_of_notMem hless
      rw [hwritten, hasOpenTag_append_iff (isApart_of_notMem hless), ih]
      simp [hnone]
    | tag tag =>
      have hwritten : (Piece.tag tag).written = tag.written := rfl
      have hapart : IsApart names tag.written := by
        have hsplit : tag.written
            = ('<' :: (tag.name ++ (attributesWritten tag.attributes ++ (tag.gap ++ ['/'])))) ++ ['>'] := by
          simp [ClosedTag.written]
        rw [hsplit]
        exact isApart_of_greater hnames _
      rw [hwritten, hasOpenTag_append_iff hapart, ih, hasOpenTag_written_iff hnames]
      simp

end MdxSafe.VoidTag

namespace MdxSafe

open VoidTag

/-- In closed markup, closing void tags changes nothing just if no `>` in the value of an attribute ends what reads as
an open void tag. That is so if no value holds a `>`, or each has a slash and at most blanks before it. -/
theorem rewrite_markup_eq_self_iff (s : Settings) (hnames : ∀ name ∈ s.voidElements, IsPlain name) (ps : List Piece) :
    (Pass.closeVoidTags.rewrite s (markup ps) = markup ps
        ↔ ∀ tag, .tag tag ∈ ps → ¬ tag.IsCut s.voidElements)
      ∧ ((∀ tag, .tag tag ∈ ps → ∀ a ∈ tag.attributes, ∀ v ∈ a.value, ∀ front back,
            v.text = front ++ '>' :: back → EndsInSlash front) →
        Pass.closeVoidTags.rewrite s (markup ps) = markup ps) := by
  have hiff : Pass.closeVoidTags.rewrite s (markup ps) = markup ps
      ↔ ∀ tag, .tag tag ∈ ps → ¬ tag.IsCut s.voidElements := by
    rw [Pass.rewrite]
    by_cases hne : s.voidElements = []
    · rw [if_pos hne, hne]
      refine iff_of_true rfl ?_
      rintro tag - ⟨_, _, _, _, _, _, -, -, -, _, _, _, -, ⟨⟨name, hname, -⟩, -, -, -⟩, -⟩
      cases hname
    · rw [if_neg hne, closeAll_eq_self_iff hne hnames, hasOpenTag_markup_iff hnames]
      simp only [not_exists, not_and]
  refine ⟨hiff, fun h => hiff.2 ?_⟩
  rintro tag htag ⟨before, a, after, v, front, back, has, hv, htext, hends⟩
  have hslash := h tag htag a (by rw [has]; simp) v hv front back htext
  have hwhole := hslash.append_left ('<' :: (tag.name ++ (attributesWritten before ++ (a.lead ++ [v.mark]))))
  simp only [List.cons_append, List.append_assoc, List.nil_append] at hwhole
  exact not_endsOpenTag hnames hwhole hends

/-- An image whose description shows a closed tag stays as it is. -/
theorem rewrite_markup_image :
    let alt : QuotedValue := ⟨'"', "a <br/> b".toList, .inl rfl, by decide⟩
    let image : ClosedTag := ⟨"IMG".toList, [⟨" alt=".toList, some alt, Attribute.plain_of_all rfl⟩], " ".toList, by decide,
      List.all_eq_true.1 rfl⟩
    let ps : List Piece := [.text "a > b ".toList (by decide), .tag image]
    (∀ name ∈ ({} : Settings).voidElements, IsPlain name)
      ∧ markup ps = "a > b <IMG alt=\"a <br/> b\" />".toList
      ∧ Pass.closeVoidTags.rewrite {} (markup ps) = markup ps := by
  intro alt image ps
  have hnames : ∀ name ∈ ({} : Settings).voidElements, IsPlain name := by decide +kernel
  have hslash : ∀ front back, alt.text = front ++ '>' :: back → EndsInSlash front := by
    intro front back h
    have hsplit : front ++ '>' :: back = "a <br/".toList ++ "> b".toList := h.symm
    obtain ⟨z, rfl, hz⟩ := Text.exists_of_append_cons_eq_append hsplit (by decide)
    cases z with
    | nil => exact endsInSlash_append_slash "a <br".toList
    | cons c z =>
      have hmem : '>' ∈ " b".toList := by
        rw [show " b".toList = z ++ '>' :: back from (List.cons_eq_cons.1 hz).2]
        simp
      exact absurd hmem (by decide)
  refine ⟨hnames, rfl, (rewrite_markup_eq_self_iff {} hnames ps).2 ?_⟩
  intro tag htag a ha v hv
  obtain rfl : tag = image := by simpa [ps] using htag
  obtain rfl := List.mem_singleton.1 ha
  obtain rfl := Option.some.inj hv
  exact hslash

/-- A `>` in the description of an image cuts its tag, and a slash is put into the description. -/
theorem rewrite_markup_cut :
    let alt : QuotedValue := ⟨'"', "a>b".toList, .inl rfl, by decide⟩
    let image : ClosedTag := ⟨"img".toList, [⟨" alt=".toList, some alt, Attribute.plain_of_all rfl⟩], " ".toList, by decide,
      List.all_eq_true.1 rfl⟩
    (∀ name ∈ ({} : Settings).voidElements, IsPlain name)
      ∧ markup [.tag image] = "<img alt=\"a>b\" />".toList
      ∧ Pass.closeVoidTags.rewrite {} (markup [.tag image]) = "<img alt=\"a />b\" />".toList := by
  decide +kernel

end MdxSafe
