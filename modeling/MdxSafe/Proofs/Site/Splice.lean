-- SUMMARY: The places of a workflow where a repository is entered, as offsets in the workflow as it was.
import MdxSafe.Proofs.Site.Workflow

/-!
# Insertion at the original anchors

The workflow is searched again after each insertion. As long as the names hold neither blanks nor `#`, no search is
caught by what was inserted before: the snippets hold no anchor, and they are whole lines, so that no anchor lies across
their ends. So the three snippets go where their anchors are in the original text (`spliceWorkflow_at_anchors`).
-/

namespace MdxSafe.Edit

open Text (IsFirst IsLineEnd StandsAt)

variable {s : SiteSettings} {repo t u v : Text} {a i m e k l n p start : Nat}

-- ---------------------------------------------------------------------------
-- The first end of a section
-- ---------------------------------------------------------------------------

/-- The end of a section stands in a text between two positions. -/
def EndsSection (t : Text) (p e : Nat) : Prop := ∃ b, IsBlockEnd b ∧ b <+: t.drop p ∧ e = p + b.length

/-- The end of a section that comes first from a position on, with all empty lines behind it: it starts and ends here. -/
structure IsFirstEnd (start : Nat) (t : Text) (p e : Nat) : Prop where
  ge : start ≤ p
  ends : EndsSection t p e
  first : ∀ q f, start ≤ q → EndsSection t q f → p ≤ q
  longest : ∀ f, EndsSection t p f → f ≤ e

/-- Blanks are measured up to the last line end among them. -/
theorem le_of_blankLines? (h : blankLines? (u ++ '\n' :: v) = some n) (hblank : ∀ c ∈ u, isBlank c) :
    u.length + 1 ≤ n := by
  have hline : isBlank '\n' = true := by decide
  have hblanks : (u ++ '\n' :: v).takeWhile isBlank = u ++ '\n' :: v.takeWhile isBlank := by
    rw [List.takeWhile_append_of_pos hblank, List.takeWhile_cons_of_pos hline]
  unfold blankLines? at h
  dsimp only at h
  rw [hblanks] at h
  generalize v.takeWhile isBlank = w at h
  have hafter : ((u ++ '\n' :: w).reverse.takeWhile (· ≠ '\n')).length ≤ w.length := by
    rw [List.reverse_append, List.reverse_cons, List.append_assoc, List.takeWhile_append]
    split
    · simp
    · have hle := (List.takeWhile_prefix (· ≠ '\n') (l := w.reverse)).length_le
      rwa [List.length_reverse] at hle
  split at h
  · cases h
  · cases h
    simp only [List.length_append, List.length_cons] at hafter ⊢
    omega

theorem le_of_blockEndLength? {b : Text} (h : blockEndLength? t = some n) (hb : IsBlockEnd b) (hstart : b <+: t) :
    b.length ≤ n := by
  obtain ⟨cr, blanks, hcr, hblank, rfl⟩ := hb
  obtain ⟨v, rfl⟩ := hstart
  have hline : Text.after? blockEnd (blockEnd ++ cr ++ '\n' :: blanks ++ ['\n'] ++ v)
      = some (cr ++ '\n' :: (blanks ++ '\n' :: v)) := by
    rw [Text.after?_eq_some_iff]
    simp
  have hend : afterLineEnd? (cr ++ '\n' :: (blanks ++ '\n' :: v)) = some (blanks ++ '\n' :: v) := by
    rcases hcr with rfl | rfl <;> rfl
  rw [blockEndLength?, hline, Option.bind_some, hend, Option.bind_some] at h
  obtain ⟨k, hk, rfl⟩ := Option.map_eq_some_iff.1 h
  have hle := le_of_blankLines? hk hblank
  simp only [List.length_append, List.length_cons, List.length_nil]
  omega

theorem IsBlockEnd.ne_nil {b : Text} (h : IsBlockEnd b) : b ≠ [] := by
  obtain ⟨cr, blanks, -, -, rfl⟩ := h
  simp

theorem endsSection_cons_iff {c : Char} : EndsSection (c :: t) (p + 1) (e + 1) ↔ EndsSection t p e := by
  constructor
  · rintro ⟨b, hb, hstart, he⟩
    exact ⟨b, hb, hstart, by omega⟩
  · rintro ⟨b, hb, hstart, rfl⟩
    exact ⟨b, hb, hstart, by omega⟩

theorem isFirstEnd_cons_iff {c : Char} (h : blockEndLength? (c :: t) = none) :
    IsFirstEnd 0 (c :: t) p e ↔ ∃ q f, p = q + 1 ∧ e = f + 1 ∧ IsFirstEnd 0 t q f := by
  have hpos : ∀ {q f}, EndsSection (c :: t) q f → ∃ r g, q = r + 1 ∧ f = g + 1 := by
    rintro q f ⟨b, hb, hstart, rfl⟩
    cases q with
    | zero =>
      obtain ⟨v, hv⟩ := hstart
      rw [List.drop_zero] at hv
      rw [← hv] at h
      exact absurd h (blockEndLength?_ne_none hb v)
    | succ q => exact ⟨q, q + b.length, rfl, by omega⟩
  constructor
  · rintro ⟨-, hends, hfirst, hlongest⟩
    obtain ⟨q, f, rfl, rfl⟩ := hpos hends
    refine ⟨q, f, rfl, rfl, Nat.zero_le q, endsSection_cons_iff.1 hends, fun r g _ hr => ?_, fun g hg => ?_⟩
    · exact Nat.le_of_succ_le_succ (hfirst (r + 1) (g + 1) (Nat.zero_le _) (endsSection_cons_iff.2 hr))
    · exact Nat.le_of_succ_le_succ (hlongest (g + 1) (endsSection_cons_iff.2 hg))
  · rintro ⟨q, f, rfl, rfl, -, hends, hfirst, hlongest⟩
    refine ⟨Nat.zero_le _, endsSection_cons_iff.2 hends, fun r g _ hr => ?_, fun g hg => ?_⟩
    · obtain ⟨r, g, rfl, rfl⟩ := hpos hr
      exact Nat.succ_le_succ (hfirst r g (Nat.zero_le r) (endsSection_cons_iff.1 hr))
    · obtain ⟨-, g, -, rfl⟩ := hpos hg
      exact Nat.succ_le_succ (hlongest g (endsSection_cons_iff.1 hg))

theorem isFirstEnd_zero_iff (h : blockEndLength? t = some n) : IsFirstEnd 0 t p e ↔ p = 0 ∧ e = n := by
  obtain ⟨b, v, hb, hsplit, rfl⟩ := blockEndLength?_eq_some h
  have hends : EndsSection t 0 b.length := ⟨b, hb, ⟨v, hsplit.symm⟩, (Nat.zero_add _).symm⟩
  have hle : ∀ {f}, EndsSection t 0 f → f ≤ b.length := by
    rintro f ⟨d, hd, hstart, rfl⟩
    rw [Nat.zero_add]
    exact le_of_blockEndLength? h hd hstart
  constructor
  · rintro ⟨-, hpe, hfirst, hlongest⟩
    obtain rfl := Nat.le_zero.1 (hfirst 0 _ (Nat.le_refl 0) hends)
    exact ⟨rfl, Nat.le_antisymm (hle hpe) (hlongest _ hends)⟩
  · rintro ⟨rfl, rfl⟩
    exact ⟨Nat.le_refl 0, hends, fun q _ _ _ => Nat.zero_le q, fun _ hf => hle hf⟩

/-- A search for the end of a section gives the first one. -/
theorem afterBlock?_eq_some_iff : afterBlock? t = some e ↔ ∃ p, IsFirstEnd 0 t p e := by
  induction t generalizing e with
  | nil =>
    refine ⟨nofun, fun ⟨p, h⟩ => ?_⟩
    obtain ⟨b, hb, hstart, -⟩ := h.ends
    rw [List.drop_nil] at hstart
    exact absurd (List.prefix_nil.1 hstart) hb.ne_nil
  | cons c t ih =>
    rw [afterBlock?]
    cases hlength : blockEndLength? (c :: t) with
    | some n =>
      simp only [isFirstEnd_zero_iff hlength, exists_eq_left, Option.some.injEq]
      exact eq_comm
    | none =>
      simp only [isFirstEnd_cons_iff hlength, Option.map_eq_some_iff, ih]
      constructor
      · rintro ⟨f, ⟨q, hq⟩, rfl⟩
        exact ⟨q + 1, q, f, rfl, rfl, hq⟩
      · rintro ⟨-, q, f, -, rfl, hq⟩
        exact ⟨f, ⟨q, hq⟩, rfl⟩

theorem endsSection_drop_iff : EndsSection (t.drop start) p e ↔ EndsSection t (start + p) (start + e) := by
  unfold EndsSection
  rw [List.drop_drop]
  refine exists_congr fun b => and_congr_right fun _ => and_congr_right fun _ => ?_
  omega

theorem isFirstEnd_drop_iff : IsFirstEnd 0 (t.drop start) p e ↔ IsFirstEnd start t (start + p) (start + e) := by
  constructor
  · rintro ⟨-, hends, hfirst, hlongest⟩
    refine ⟨Nat.le_add_right start p, endsSection_drop_iff.1 hends, fun q f hq hqf => ?_, fun f hf => ?_⟩
    · obtain ⟨r, rfl⟩ := Nat.exists_eq_add_of_le hq
      obtain ⟨b, hb, hstart, rfl⟩ := hqf
      rw [← List.drop_drop] at hstart
      exact Nat.add_le_add_left (hfirst r _ (Nat.zero_le r) ⟨b, hb, hstart, rfl⟩) start
    · obtain ⟨b, hb, hstart, rfl⟩ := hf
      rw [← List.drop_drop] at hstart
      have hle := hlongest _ ⟨b, hb, hstart, rfl⟩
      omega
  · rintro ⟨-, hends, hfirst, hlongest⟩
    refine ⟨Nat.zero_le p, endsSection_drop_iff.2 hends, fun q f _ hqf => ?_, fun f hf => ?_⟩
    · exact Nat.le_of_add_le_add_left (hfirst _ _ (Nat.le_add_right start q) (endsSection_drop_iff.1 hqf))
    · exact Nat.le_of_add_le_add_left (hlongest _ (endsSection_drop_iff.1 hf))

/-- So does a search from a position on. -/
theorem afterBlock?_drop_eq_some_iff : afterBlock? (t.drop start) = some n ↔ ∃ p, IsFirstEnd start t p (start + n) := by
  rw [afterBlock?_eq_some_iff]
  constructor
  · rintro ⟨p, hp⟩
    exact ⟨start + p, isFirstEnd_drop_iff.1 hp⟩
  · rintro ⟨p, hp⟩
    obtain ⟨q, rfl⟩ := Nat.exists_eq_add_of_le hp.ge
    exact ⟨q, isFirstEnd_drop_iff.2 hp⟩

theorem IsFirstEnd.start_le (h : IsFirstEnd start t p e) : start ≤ e := by
  obtain ⟨b, -, -, rfl⟩ := h.ends
  exact Nat.le_trans h.ge (Nat.le_add_right p _)

theorem endsSection_insertAt_iff {new : Text} (hi : i ≤ t.length) (hip : i ≤ p) :
    EndsSection (t.insertAt i new) (p + new.length) (e + new.length) ↔ EndsSection t p e := by
  unfold EndsSection
  rw [Text.drop_insertAt hi hip]
  refine exists_congr fun b => and_congr_right fun _ => and_congr_right fun _ => ?_
  omega

/-- A search that starts behind an insertion finds the end of a section that it found before. -/
theorem IsFirstEnd.insertAt (h : IsFirstEnd start t p e) (hi : i ≤ t.length) (his : i ≤ start) (new : Text) :
    IsFirstEnd (start + new.length) (t.insertAt i new) (p + new.length) (e + new.length) := by
  have hmove : ∀ {q f}, start ≤ q → EndsSection (t.insertAt i new) (q + new.length) f →
      ∃ g, f = g + new.length ∧ EndsSection t q g := by
    rintro q f hq ⟨b, hb, hstart, rfl⟩
    rw [Text.drop_insertAt hi (Nat.le_trans his hq)] at hstart
    exact ⟨q + b.length, by omega, b, hb, hstart, rfl⟩
  refine ⟨Nat.add_le_add_right h.ge _, (endsSection_insertAt_iff hi (Nat.le_trans his h.ge)).2 h.ends,
    fun q f hq hends => ?_, fun f hends => ?_⟩
  · obtain ⟨r, hr, rfl⟩ := Text.exists_le_of_add_le hq
    obtain ⟨g, -, hg⟩ := hmove hr hends
    exact Nat.add_le_add_right (h.first r g hr hg) _
  · obtain ⟨g, rfl, hg⟩ := hmove h.ge hends
    exact Nat.add_le_add_right (h.longest g hg) _

-- ---------------------------------------------------------------------------
-- One insertion
-- ---------------------------------------------------------------------------

theorem insertCheckout_of_isFirst (htitle : IsFirst (checkoutTitle s.templateRepo) 0 t a)
    (hnext : IsFirst nextStep (a + 1) t i) (repo : Text) :
    insertCheckout s repo t = .ok (t.insertAt i (Snippet.checkout s repo)) := by
  have hne : checkoutTitle s.templateRepo ≠ [] := by
    rw [checkoutTitle_eq]
    exact List.cons_ne_nil _ _
  have hne' : nextStep ≠ [] := by decide
  unfold insertCheckout
  rw [(Text.find?_eq_some_iff_isFirst hne).2 htitle]
  dsimp only
  rw [(Text.findFrom?_eq_some_iff hne').2 hnext]

theorem insertSync_of_isFirst (hmarker : IsFirst (Snippet.syncMarker s.templateRepo) 0 t m)
    (hend : IsFirstEnd (m + (Snippet.syncMarker s.templateRepo).length) t p e) (repo : Text) :
    insertSync s repo t = .ok (t.insertAt e (Snippet.sync repo)) := by
  obtain ⟨n, rfl⟩ := Nat.exists_eq_add_of_le hend.start_le
  unfold insertSync
  dsimp only
  rw [(Text.find?_eq_some_iff_isFirst (syncMarker_ne_nil _)).2 hmarker]
  dsimp only
  rw [afterBlock?_drop_eq_some_iff.2 ⟨p, hend⟩]

theorem insertCleanup_of_isFirst (hremoval : IsFirst (Snippet.removal s.templateRepo) 0 t k) (hline : IsLineEnd t k l)
    (repo : Text) : insertCleanup s repo t = .ok (t.insertAt l ('\n' :: Snippet.cleanup repo)) := by
  unfold insertCleanup
  dsimp only
  rw [(Text.find?_eq_some_iff_isFirst (removal_ne_nil _)).2 hremoval]
  dsimp only
  rw [hline.getD_findFrom?]

-- ---------------------------------------------------------------------------
-- The snippets hold no anchor
-- ---------------------------------------------------------------------------

/-- A word of a workflow, such as the name of a repository: it holds neither blanks nor `#`. -/
def IsWord (w : Text) : Prop := ∀ c ∈ w, isBlank c = false ∧ c ≠ '#'

instance (w : Text) : Decidable (IsWord w) := List.decidableBAll _ w

theorem IsWord.notMem_blank {w : Text} (h : IsWord w) {c : Char} (hc : isBlank c = true) : c ∉ w := fun hmem => by
  rw [(h c hmem).1] at hc
  cases hc

theorem IsWord.notMem_hash {w : Text} (h : IsWord w) : '#' ∉ w := fun hmem => (h '#' hmem).2 rfl

theorem notMem_hash_checkout (howner : IsWord s.owner) (hrepo : IsWord repo) :
    '#' ∉ "      ".toList ++ checkoutTitle repo ++ '\n' :: checkoutRest s repo := by
  have hslash : '#' ∉ s.owner ++ '/' :: repo := by simp [howner.notMem_hash, hrepo.notMem_hash]
  have happend : ∀ {lead w : Text}, '#' ∉ lead → '#' ∉ w → '#' ∉ lead ++ w := fun hlead hw hmem =>
    (List.mem_append.1 hmem).elim hlead hw
  rw [← List.singleton_infix_iff, Text.infix_iff_lines (by decide),
    lines_checkout (howner.notMem_blank (by decide)) (hrepo.notMem_blank (by decide))]
  unfold checkoutLines checkoutTitle
  simp only [List.exists_mem_cons_iff, List.not_mem_nil, false_and, exists_false, or_false, not_or,
    List.singleton_infix_iff, List.append_assoc]
  exact ⟨happend (by decide) (happend (by decide) hrepo.notMem_hash), by decide, by decide,
    happend (by decide) hslash, by decide, happend (by decide) hrepo.notMem_hash, by decide⟩

/-- What stands around the second blank of a line that removes a repository. -/
def removalCore : Text := ['f', ' ', '_']

theorem removalCore_in_removal (repo : Text) : removalCore <:+: Snippet.removal repo := by
  have hlead : removalCore <:+: "rm -rf _source_".toList := by decide
  exact hlead.trans (List.prefix_append _ repo).isInfix

/-- A word does not complete it, unless it stands right behind its blank. -/
theorem not_removalCore_append {lead w : Text} (hw : ' ' ∉ w) (hlead : ¬ removalCore <:+: lead)
    (hend : ¬ ['f', ' '] <:+ lead) : ¬ removalCore <:+: lead ++ w := by
  rintro ⟨x, y, hxy⟩
  have hsplit : (x ++ ['f']) ++ ' ' :: '_' :: y = lead ++ w := by simpa [removalCore] using hxy
  rcases Text.append_cons_eq_append_iff.1 hsplit with ⟨z, rfl, hz⟩ | ⟨z, -, rfl⟩
  · cases z with
    | nil => exact hend ⟨x, by simp⟩
    | cons c z =>
      obtain ⟨rfl, -⟩ := List.cons.inj hz
      exact hlead ⟨x, z, by simp [removalCore]⟩
  · exact hw (List.mem_append_right z List.mem_cons_self)

theorem not_removalCore_append_cons {c : Char} {x y : Text} (hc : c ∉ removalCore) (hx : ¬ removalCore <:+: x)
    (hy : ¬ removalCore <:+: y) : ¬ removalCore <:+: x ++ c :: y := fun h =>
  (Text.infix_of_infix_append_cons hc h).elim hx hy

theorem not_removalCore_checkout (howner : IsWord s.owner) (hrepo : IsWord repo) :
    ¬ removalCore <:+: "      ".toList ++ checkoutTitle repo ++ '\n' :: checkoutRest s repo := by
  have hspace : ' ' ∉ repo := hrepo.notMem_blank (by decide)
  have hslash : ' ' ∉ s.owner ++ '/' :: repo := by simp [hspace, howner.notMem_blank (c := ' ') (by decide)]
  rw [Text.infix_iff_lines (by decide),
    lines_checkout (howner.notMem_blank (by decide)) (hrepo.notMem_blank (by decide))]
  unfold checkoutLines checkoutTitle
  simp only [List.exists_mem_cons_iff, List.not_mem_nil, false_and, exists_false, or_false, not_or]
  refine ⟨?_, by decide, by decide, ?_, by decide, not_removalCore_append hspace (by decide) (by decide), by decide⟩
  · rw [← List.append_assoc]
    exact not_removalCore_append hspace (by decide) (by decide)
  · rw [List.append_assoc]
    exact not_removalCore_append hslash (by decide) (by decide)

/-- A blank behind it makes no difference either. -/
theorem not_removalCore_append_space {x : Text} (hx : ¬ removalCore <:+: x) : ¬ removalCore <:+: x ++ [' '] := by
  rw [List.infix_concat_iff, not_or]
  refine ⟨?_, hx⟩
  rintro ⟨y, hy⟩
  have hlast := congrArg List.getLast? hy
  simp [removalCore] at hlast

theorem not_removalCore_sync (hrepo : IsWord repo) : ¬ removalCore <:+: '\n' :: syncBody repo := by
  have hspace : ' ' ∉ repo := hrepo.notMem_blank (by decide)
  have hslash : ' ' ∉ repo ++ ['/'] := by simp [hspace]
  have hdocs : " docs".toList = [' '] ++ 'd' :: "ocs".toList := by simp
  have hthen : "/docs\" ]; then".toList = '/' :: "docs\" ]; then".toList := by simp
  have hcopy : "/docs/ docs/".toList = '/' :: "docs/ docs/".toList := by simp
  rw [Text.infix_iff_lines (by decide), lines_sync (hrepo.notMem_blank (by decide))]
  unfold syncLines Snippet.syncMarker
  rw [hdocs, hthen, hcopy]
  simp only [List.exists_mem_cons_iff, List.not_mem_nil, false_and, exists_false, or_false, not_or]
  refine ⟨by decide, ?_, ?_, not_removalCore_append hspace (by decide) (by decide),
    not_removalCore_append hspace (by decide) (by decide), ?_, by decide⟩
  · rw [← List.append_assoc, ← List.append_assoc, ← List.append_assoc]
    refine not_removalCore_append_cons (by decide) (not_removalCore_append_space ?_) (by decide)
    exact not_removalCore_append hspace (by decide) (by decide)
  · exact not_removalCore_append_cons (by decide) (not_removalCore_append hspace (by decide) (by decide)) (by decide)
  · rw [List.append_assoc, List.append_assoc, List.cons_append]
    refine not_removalCore_append_cons (by decide) (not_removalCore_append hspace (by decide) (by decide)) ?_
    exact not_removalCore_append hslash (by decide) (by decide)

-- ---------------------------------------------------------------------------
-- All insertions
-- ---------------------------------------------------------------------------

/-- The anchors of a workflow: `a` is where the step of the template repository starts and `i` where the next one does,
`m` is where its section starts and `e` where it ends, `k` is where its removal stands and `l` where that line ends. -/
structure AnchorsAt (template t : Text) (a i m e k l : Nat) : Prop where
  title : IsFirst (checkoutTitle template) 0 t a
  next : IsFirst nextStep (a + 1) t i
  marker : IsFirst (Snippet.syncMarker template) 0 t m
  sectionEnd : ∃ p, IsFirstEnd (m + (Snippet.syncMarker template).length) t p e
  removal : IsFirst (Snippet.removal template) 0 t k
  lineEnd : IsLineEnd t k l

theorem not_marker_checkout (howner : IsWord s.owner) (hrepo : IsWord repo) (template : Text) :
    ¬ Snippet.syncMarker template <:+: "      ".toList ++ checkoutTitle repo ++ '\n' :: checkoutRest s repo := by
  have hhash : '#' ∈ Snippet.syncMarker template := List.mem_append_left _ (List.mem_append_left _ (by decide))
  exact fun h => notMem_hash_checkout howner hrepo (h.subset hhash)

variable {pat : Text} {j : Nat}

/-- The next step starts at a line end. -/
theorem exists_of_next (h : IsFirst nextStep start t i) : ∃ x v, t = x ++ '\n' :: v ∧ i = x.length := by
  have hlength := h.standsAt.length_le (by decide)
  obtain ⟨y, hy⟩ := h.standsAt
  rw [nextStep_eq, List.cons_append] at hy
  exact ⟨t.take i, stepStart ++ y, by rw [hy, List.take_append_drop], by rw [List.length_take]; omega⟩

/-- A section ends right behind a line end. -/
theorem EndsSection.exists_eq (h : EndsSection t p e) : ∃ x v, t = x ++ '\n' :: v ∧ e = x.length + 1 := by
  obtain ⟨b, hb, ⟨v, hv⟩, rfl⟩ := h
  obtain ⟨front, rfl⟩ := hb.exists_eq
  have hlength := congrArg List.length hv
  simp only [List.length_append, List.length_drop, List.length_singleton] at hlength
  refine ⟨t.take p ++ front, v, ?_, ?_⟩
  · rw [List.append_assoc, ← List.singleton_append, ← List.append_assoc front, hv, List.take_append_drop]
  · simp only [List.length_append, List.length_take, List.length_singleton]
    omega

theorem EndsSection.le_length (h : EndsSection t p e) : e ≤ t.length := by
  obtain ⟨x, v, rfl, rfl⟩ := h.exists_eq
  simp only [List.length_append, List.length_cons]
  omega

/-- What stands behind the inserted step is found as before: the step is made of whole lines. -/
theorem isFirst_insertCheckout (hnext : IsFirst nextStep start t i) (h : IsFirst pat 0 t j) (hij : i ≤ j)
    (hpat : pat ≠ []) (hline : '\n' ∉ pat)
    (hbody : ¬ pat <:+: "      ".toList ++ checkoutTitle repo ++ '\n' :: checkoutRest s repo) :
    IsFirst pat 0 (t.insertAt i (Snippet.checkout s repo)) (j + (Snippet.checkout s repo).length) := by
  obtain ⟨x, v, rfl, rfl⟩ := exists_of_next hnext
  rw [Text.insertAt_length, checkout_eq, List.length_cons]
  exact h.insertLine hpat hline hij hbody

/-- Likewise what stands behind the inserted section. -/
theorem isFirst_insertSync (hend : EndsSection t p e) (h : IsFirst pat 0 t j) (hej : e ≤ j)
    (hpat : pat ≠ []) (hline : '\n' ∉ pat) (hbody : ¬ pat <:+: '\n' :: syncBody repo) :
    IsFirst pat 0 (t.insertAt e (Snippet.sync repo)) (j + (Snippet.sync repo).length) := by
  obtain ⟨x, v, rfl, rfl⟩ := hend.exists_eq
  have hinsert : (x ++ '\n' :: v).insertAt (x.length + 1) (Snippet.sync repo)
      = x ++ '\n' :: ('\n' :: syncBody repo) ++ '\n' :: v := by
    have hat := Text.insertAt_length (x ++ ['\n']) v (Snippet.sync repo)
    simpa [sync_eq] using hat
  rw [hinsert, sync_eq, List.length_append, List.length_singleton]
  exact h.insertLine hpat hline (Nat.le_of_succ_le hej) hbody

/-- A repository is entered into a workflow where its anchors are, as if all of them were searched before anything is
inserted. -/
theorem spliceWorkflow_at_anchors (htemplate : IsWord s.templateRepo) (howner : IsWord s.owner) (hrepo : IsWord repo)
    (h : AnchorsAt s.templateRepo t a i m e k l) (him : i ≤ m) (hek : e ≤ k) :
    i ≤ e ∧ e ≤ l ∧ spliceWorkflow s repo t = .ok (t.take i ++ Snippet.checkout s repo ++ (t.take e).drop i
      ++ Snippet.sync repo ++ (t.take l).drop e ++ '\n' :: Snippet.cleanup repo ++ t.drop l) := by
  obtain ⟨htitle, hnext, hmarker, ⟨p, hend⟩, hremoval, hline⟩ := h
  have hname : '\n' ∉ s.templateRepo := htemplate.notMem_blank (by decide)
  have hcore : ∀ {x}, ¬ removalCore <:+: x → ¬ Snippet.removal s.templateRepo <:+: x := fun hx hin =>
    hx ((removalCore_in_removal _).trans hin)
  have hi : i ≤ t.length := (Nat.le_add_right i _).trans (hnext.standsAt.length_le (by decide))
  have hme := hend.start_le
  have hie : i ≤ e := by omega
  have hkl : k ≤ l := hline.start_le (by have := hremoval.standsAt.length_le (removal_ne_nil _); omega)
  -- The section of the template repository is still the first one after the step was inserted.
  have hcheckout := insertCheckout_of_isFirst htitle hnext repo
  have hmarker₁ := isFirst_insertCheckout hnext hmarker him (syncMarker_ne_nil _) (notMem_syncMarker hname)
    (not_marker_checkout howner hrepo s.templateRepo)
  have hend₁ := hend.insertAt hi (Nat.le_trans him (Nat.le_add_right m _)) (Snippet.checkout s repo)
  rw [Nat.add_right_comm] at hend₁
  have hsync := insertSync_of_isFirst hmarker₁ hend₁ repo
  -- So is its removal after the section was inserted.
  have hremoval₁ := isFirst_insertCheckout hnext hremoval (Nat.le_trans hie hek) (removal_ne_nil _) (notMem_removal hname)
    (hcore (not_removalCore_checkout howner hrepo))
  have hremoval₂ := isFirst_insertSync hend₁.ends hremoval₁ (Nat.add_le_add_right hek _) (removal_ne_nil _)
    (notMem_removal hname) (hcore (not_removalCore_sync hrepo))
  have hline₂ := (hline.insertAt hi (Nat.le_trans hie hek) (Snippet.checkout s repo)).insertAt hend₁.ends.le_length
    (Nat.add_le_add_right hek _) (Snippet.sync repo)
  have hcleanup := insertCleanup_of_isFirst hremoval₂ hline₂ repo
  refine ⟨hie, Nat.le_trans hek hkl, ?_⟩
  unfold spliceWorkflow
  rw [hcheckout, ok_bind, hsync, ok_bind, hcleanup, Text.insertAt,
    Text.take_insertAt hend₁.ends.le_length (by omega), Text.drop_insertAt hend₁.ends.le_length (by omega),
    Text.take_insertAt hi hie, Text.take_drop_insertAt hi hie, Text.drop_insertAt hi (by omega)]

theorem spliceWorkflow_at_anchors_sample :
    let settings : SiteSettings := { owner := "o", templateRepo := "t" }
    let workflow : Text :=
      "- name: Checkout t\n      - name: Copy\n          # Sync t docs\n          fi\n\nrm -rf _source_t\n"
    (IsWord settings.templateRepo ∧ IsWord settings.owner ∧ IsWord "tx".toList
        ∧ AnchorsAt settings.templateRepo workflow 0 18 48 76 76 92)
      ∧ spliceWorkflow settings "tx" workflow = .ok (workflow.take 18 ++ Snippet.checkout settings "tx"
          ++ (workflow.take 76).drop 18 ++ Snippet.sync "tx" ++ (workflow.take 92).drop 76
          ++ '\n' :: Snippet.cleanup "tx" ++ workflow.drop 92) := by
  intro settings workflow
  have hwords : IsWord settings.templateRepo ∧ IsWord settings.owner ∧ IsWord "tx".toList := by decide
  have hfound : Text.find? (checkoutTitle settings.templateRepo) workflow = some 0
      ∧ Text.findFrom? nextStep 1 workflow = some 18
      ∧ Text.find? (Snippet.syncMarker settings.templateRepo) workflow = some 48
      ∧ afterBlock? (workflow.drop 61) = some 15
      ∧ Text.find? (Snippet.removal settings.templateRepo) workflow = some 76
      ∧ Text.findFrom? ['\n'] 76 workflow = some 92 := by
    decide +kernel
  obtain ⟨htitle, hnext, hmarker, hend, hremoval, hline⟩ := hfound
  have hanchors : AnchorsAt settings.templateRepo workflow 0 18 48 76 76 92 := by
    refine ⟨?_, ?_, ?_, ?_, ?_, .inl ?_⟩
    · exact (Text.find?_eq_some_iff_isFirst (by decide)).1 htitle
    · exact (Text.findFrom?_eq_some_iff (by decide)).1 hnext
    · exact (Text.find?_eq_some_iff_isFirst (syncMarker_ne_nil _)).1 hmarker
    · exact afterBlock?_drop_eq_some_iff.1 hend
    · exact (Text.find?_eq_some_iff_isFirst (removal_ne_nil _)).1 hremoval
    · exact (Text.findFrom?_eq_some_iff (by decide)).1 hline
  obtain ⟨-, -, hsplice⟩ :=
    spliceWorkflow_at_anchors hwords.1 hwords.2.1 hwords.2.2 hanchors (by decide) (by decide)
  exact ⟨⟨hwords.1, hwords.2.1, hwords.2.2, hanchors⟩, hsplice⟩

end MdxSafe.Edit
