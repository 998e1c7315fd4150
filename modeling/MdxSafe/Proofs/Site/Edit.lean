-- SUMMARY: What the edits of a site insert into its files, and that a repository that was entered is found again.
import Mathlib.Data.List.Infix
import Mathlib.Data.List.TakeWhile
import MdxSafe.Proofs.Outcome
import MdxSafe.Proofs.Text.Splice
import MdxSafe.Site.Onboarding

/-!
# Edits insert

An edit that is applied inserts the snippets of its step, and nothing else (`FileEdit.insertsAll_of_applied`). What it
inserts into the workflow are whole lines, so that none of the three insertions tears apart what an earlier one brought.
An edit that was applied is skipped the next time (`FileEdit.skipped_of_applied`).
-/

namespace MdxSafe

/-- An edit of a file of a site, and the snippets that it inserts. -/
structure FileEdit where
  file : Text
  edit : Text → Edit
  snippets : List Text

/-- The edit that a step is; a folder is made without one. -/
def OnboardingStep.fileEdit? (s : SiteSettings) (repo : Text) : OnboardingStep → Option FileEdit
  | workflow =>
    some ⟨s.workflowPath, Edit.workflow s repo, [Snippet.checkout s repo, Snippet.sync repo, '\n' :: Snippet.cleanup repo]⟩
  | docsFolder => none
  | sidebars => some ⟨s.sidebarsPath, Edit.sidebars s repo, [Snippet.sidebar repo ++ ['\n']]⟩
  | navbar => some ⟨s.configPath, Edit.navbar s repo, [Snippet.navbar repo]⟩

namespace Edit

open Text (Inserts InsertsAll InsertsLines lines)

variable {s : SiteSettings} {repo pat t t' u m : Text} {n : Nat} {anchor : Anchor}

-- ---------------------------------------------------------------------------
-- Ends of sections
-- ---------------------------------------------------------------------------

/-- The blanks at the start of a text are measured up to their last line end. -/
theorem blankLines?_eq_some (h : blankLines? t = some n) :
    ∃ blanks v, t = blanks ++ '\n' :: v ∧ n = blanks.length + 1 ∧ ∀ c ∈ blanks, isBlank c := by
  obtain ⟨l, hl, hblanks⟩ := Text.exists_lastLine (t.takeWhile isBlank)
  have hline : ∀ c ∈ l.reverse, decide (c ≠ '\n') = true := by
    intro c hc
    rw [decide_eq_true_eq]
    rintro rfl
    exact hl (List.mem_reverse.1 hc)
  unfold blankLines? at h
  dsimp only at h
  rcases hblanks with hblanks | ⟨u, hblanks⟩
  · rw [hblanks, List.takeWhile_eq_self_iff.2 hline, List.length_reverse, if_pos rfl] at h
    cases h
  · rw [hblanks, List.reverse_append, List.reverse_cons, List.append_assoc, List.takeWhile_append_of_pos hline] at h
    simp only [List.singleton_append, ne_eq, not_true_eq_false, decide_false, Bool.false_eq_true, not_false_eq_true,
      List.takeWhile_cons_of_neg, List.append_nil, List.length_reverse, List.length_append, List.length_cons] at h
    rw [if_neg (by omega)] at h
    cases h
    refine ⟨u, l ++ t.dropWhile isBlank, ?_, by omega, fun c hc => ?_⟩
    · rw [← List.cons_append, ← List.append_assoc, ← hblanks, List.takeWhile_append_dropWhile]
    · refine List.mem_takeWhile_imp (l := t) ?_
      rw [hblanks]
      exact List.mem_append_left _ hc

theorem blankLines?_ne_none {blanks v : Text} (h : ∀ c ∈ blanks, isBlank c) :
    blankLines? (blanks ++ '\n' :: v) ≠ none := by
  unfold blankLines?
  dsimp only
  rw [ne_eq, ite_eq_left_iff, not_forall]
  refine ⟨fun hlength => ?_, nofun⟩
  have hmem : '\n' ∈ (blanks ++ '\n' :: v).takeWhile isBlank := by
    rw [List.takeWhile_append_of_pos h]
    exact List.mem_append_right blanks (by simp [List.takeWhile_cons_of_pos, isBlank])
  have hwhole := (List.takeWhile_prefix fun c : Char => decide (c ≠ '\n')).eq_of_length
    (hlength.trans List.length_reverse.symm)
  exact of_decide_eq_true (List.takeWhile_eq_self_iff.1 hwhole '\n' (List.mem_reverse.2 hmem)) rfl

theorem afterLineEnd?_eq_some (h : afterLineEnd? t = some u) : ∃ cr, (cr = [] ∨ cr = ['\r']) ∧ t = cr ++ '\n' :: u := by
  unfold afterLineEnd? at h
  split at h
  · cases h
    exact ⟨[], .inl rfl, rfl⟩
  · cases h
    exact ⟨['\r'], .inr rfl, rfl⟩
  · cases h

/-- The end of a section: its last line, and the empty lines after it, at least one. -/
def IsBlockEnd (e : Text) : Prop :=
  ∃ cr blanks, (cr = [] ∨ cr = ['\r']) ∧ (∀ c ∈ blanks, isBlank c) ∧ e = blockEnd ++ cr ++ '\n' :: blanks ++ ['\n']

theorem blockEndLength?_eq_some (h : blockEndLength? t = some n) :
    ∃ e v, IsBlockEnd e ∧ t = e ++ v ∧ n = e.length := by
  obtain ⟨rest, hrest, hn⟩ := Option.bind_eq_some_iff.1 h
  obtain ⟨line, hline, hend⟩ := Option.bind_eq_some_iff.1 hrest
  obtain ⟨k, hblanks, rfl⟩ := Option.map_eq_some_iff.1 hn
  obtain ⟨cr, hcr, rfl⟩ := afterLineEnd?_eq_some hend
  obtain ⟨blanks, v, rfl, rfl, hall⟩ := blankLines?_eq_some hblanks
  rw [Text.after?_eq_some_iff.1 hline]
  refine ⟨_, v, ⟨cr, blanks, hcr, hall, rfl⟩, by simp, ?_⟩
  simp only [List.length_append, List.length_cons, List.length_nil]
  omega

theorem blockEndLength?_ne_none {e : Text} (h : IsBlockEnd e) (v : Text) : blockEndLength? (e ++ v) ≠ none := by
  obtain ⟨cr, blanks, hcr, hall, rfl⟩ := h
  have hline : Text.after? blockEnd (blockEnd ++ cr ++ '\n' :: blanks ++ ['\n'] ++ v)
      = some (cr ++ '\n' :: (blanks ++ '\n' :: v)) := by
    rw [Text.after?_eq_some_iff]
    simp
  have hend : afterLineEnd? (cr ++ '\n' :: (blanks ++ '\n' :: v)) = some (blanks ++ '\n' :: v) := by
    rcases hcr with rfl | rfl <;> rfl
  rw [blockEndLength?, hline, Option.bind_some, hend, Option.bind_some, ne_eq, Option.map_eq_none_iff]
  exact blankLines?_ne_none hall

theorem afterBlock?_eq_some (h : afterBlock? t = some n) :
    ∃ u e v, IsBlockEnd e ∧ t = u ++ e ++ v ∧ n = (u ++ e).length := by
  induction t generalizing n with
  | nil => cases h
  | cons c t ih =>
    rw [afterBlock?] at h
    split at h
    · next k hk =>
      cases h
      obtain ⟨e, v, he, ht, hlength⟩ := blockEndLength?_eq_some hk
      exact ⟨[], e, v, he, ht, hlength⟩
    · obtain ⟨k, hk, rfl⟩ := Option.map_eq_some_iff.1 h
      obtain ⟨u, e, v, he, rfl, rfl⟩ := ih hk
      exact ⟨c :: u, e, v, he, rfl, rfl⟩

theorem afterBlock?_ne_none {e : Text} (h : IsBlockEnd e) (u v : Text) : afterBlock? (u ++ e ++ v) ≠ none := by
  induction u with
  | nil =>
    have hend := blockEndLength?_ne_none h v
    cases ht : e ++ v with
    | nil =>
      rw [ht] at hend
      exact absurd rfl hend
    | cons c t =>
      rw [ht] at hend
      rw [List.nil_append, ht, afterBlock?]
      cases hlength : blockEndLength? (c :: t) with
      | none => exact absurd hlength hend
      | some n => exact nofun
  | cons c u ih =>
    rw [List.cons_append, List.cons_append, afterBlock?]
    split
    · exact nofun
    · rwa [ne_eq, Option.map_eq_none_iff]

-- ---------------------------------------------------------------------------
-- The workflow
-- ---------------------------------------------------------------------------

/-- How a line starts with which a step of the workflow starts. -/
def stepStart : Text := "      - name:"

theorem nextStep_eq : nextStep = '\n' :: stepStart := by decide

/-- The title of a step without its first character. -/
def titleRest (repo : Text) : Text := " name: Checkout ".toList ++ repo

theorem checkoutTitle_eq (repo : Text) : checkoutTitle repo = '-' :: titleRest repo :=
  congrArg (· ++ repo) (show "- name: Checkout ".toList = '-' :: " name: Checkout ".toList by simp)

theorem notMem_titleRest (h : '\n' ∉ t) : '\n' ∉ titleRest t := by
  have hlead : '\n' ∉ " name: Checkout ".toList := by simp
  exact fun hmem => (List.mem_append.1 hmem).elim hlead h

/-- What follows the title in the step that fetches a repository. -/
def checkoutRest (s : SiteSettings) (repo : Text) : Text :=
  "        uses: actions/checkout@v4\n        with:\n          repository: ".toList ++ s.owner ++ '/' :: repo
    ++ "\n          ref: main\n          path: _source_".toList ++ repo
    ++ "\n          token: $\x7b\x7b secrets.DOCS_REPO_TOKEN \x7d\x7d".toList

theorem checkout_eq (s : SiteSettings) (repo : Text) :
    Snippet.checkout s repo = '\n' :: ("      ".toList ++ checkoutTitle repo ++ '\n' :: checkoutRest s repo) := by
  have hstart : "\n      - name: Checkout ".toList = '\n' :: ("      ".toList ++ "- name: Checkout ".toList) := by
    decide +kernel
  have huses : "\n        uses: actions/checkout@v4\n        with:\n          repository: ".toList
      = '\n' :: "        uses: actions/checkout@v4\n        with:\n          repository: ".toList := by simp
  unfold Snippet.checkout checkoutRest checkoutTitle
  rw [hstart, huses]
  simp only [List.cons_append, List.append_assoc]

/-- The section that copies documents, without the line ends around it. -/
def syncBody (repo : Text) : Text :=
  "          ".toList ++ Snippet.syncMarker repo
    ++ "\n          if [ -d \"_source_".toList ++ repo ++ "/docs\" ]; then\n            rm -rf docs/".toList ++ repo
    ++ "\n            mkdir -p docs/".toList ++ repo
    ++ "\n            rsync -a --delete _source_".toList ++ repo ++ "/docs/ docs/".toList ++ repo
    ++ "/\n          fi".toList

theorem sync_eq (repo : Text) : Snippet.sync repo = '\n' :: syncBody repo ++ ['\n'] := by
  have hstart : "\n          ".toList = '\n' :: "          ".toList := by simp
  have hend : "/\n          fi\n".toList = "/\n          fi".toList ++ ['\n'] := by simp
  unfold Snippet.sync syncBody
  rw [hstart, hend]
  simp only [List.cons_append, List.append_assoc]

theorem syncMarker_ne_nil (repo : Text) : Snippet.syncMarker repo ≠ [] := by
  have hlead : "# Sync ".toList ≠ [] := by simp
  exact fun h => hlead (List.append_eq_nil_iff.1 (List.append_eq_nil_iff.1 h).1).1

theorem removal_ne_nil (repo : Text) : Snippet.removal repo ≠ [] := by
  have hlead : "rm -rf _source_".toList ≠ [] := by simp
  exact fun h => hlead (List.append_eq_nil_iff.1 h).1

theorem insertCheckout_eq_ok (h : insertCheckout s repo t = .ok t') :
    ∃ u v, t = u ++ '\n' :: v ∧ t' = u ++ Snippet.checkout s repo ++ '\n' :: v ∧ stepStart <+: v
      ∧ ('\n' ∉ s.templateRepo → checkoutTitle s.templateRepo <:+: u) := by
  unfold insertCheckout at h
  split at h
  · cases h
  · next i hi =>
    split at h
    · cases h
    · next j hj =>
      cases h
      rw [checkoutTitle_eq] at hi ⊢
      obtain ⟨x, y, rfl, rfl, -⟩ := Text.find?_eq_some hi (List.cons_ne_nil _ _)
      obtain ⟨between, v, hdrop, rfl, -⟩ := Text.findFrom?_eq_some hj (by decide)
      -- The first character of the title is passed over, so that nothing is inserted before it.
      have hnone := notMem_titleRest (t := s.templateRepo)
      generalize titleRest s.templateRepo = title at hdrop hnone ⊢
      have hsplit : x ++ '-' :: title ++ y = (x ++ ['-']) ++ (title ++ y) := by simp
      have hlength : (x ++ ['-']).length = x.length + 1 := List.length_append
      rw [hsplit, ← hlength, List.drop_left, nextStep_eq, List.append_assoc, List.cons_append] at hdrop
      rw [hsplit, hdrop, ← List.append_assoc (x ++ ['-'])]
      refine ⟨x ++ ['-'] ++ between, stepStart ++ v, rfl, ?_, List.prefix_append _ _, fun hline => ?_⟩
      · rw [← hlength, ← List.length_append, Text.insertAt_length]
      · obtain ⟨z, rfl, -⟩ := Text.exists_of_append_cons_eq_append hdrop.symm (hnone hline)
        exact ⟨x, z, by simp⟩

theorem insertSync_eq_ok (h : insertSync s repo t = .ok t') :
    ∃ x y e v, IsBlockEnd e ∧ t = x ++ Snippet.syncMarker s.templateRepo ++ y ++ e ++ v
      ∧ t' = x ++ Snippet.syncMarker s.templateRepo ++ y ++ e ++ Snippet.sync repo ++ v := by
  unfold insertSync at h
  dsimp only at h
  split at h
  · cases h
  · next i hi =>
    split at h
    · cases h
    · next n hn =>
      cases h
      obtain ⟨x, rest, rfl, rfl, -⟩ := Text.find?_eq_some hi (syncMarker_ne_nil _)
      rw [← List.length_append, List.drop_left] at hn
      obtain ⟨y, e, v, he, rfl, rfl⟩ := afterBlock?_eq_some hn
      refine ⟨x, y, e, v, he, by simp, ?_⟩
      rw [← List.length_append, ← List.length_append, ← List.append_assoc, Text.insertAt_length]
      simp

theorem notMem_removal (h : '\n' ∉ t) : '\n' ∉ Snippet.removal t := by
  have hlead : '\n' ∉ "rm -rf _source_".toList := by simp
  exact fun hmem => (List.mem_append.1 hmem).elim hlead h

theorem insertCleanup_eq_ok (h : insertCleanup s repo t = .ok t') :
    ∃ u v, t = u ++ v ∧ t' = u ++ '\n' :: Snippet.cleanup repo ++ v ∧ (v = [] ∨ ∃ w, v = '\n' :: w)
      ∧ ('\n' ∉ s.templateRepo → ∃ x y, u = x ++ Snippet.removal s.templateRepo ++ y ∧ '\n' ∉ y) := by
  unfold insertCleanup at h
  dsimp only at h
  split at h
  · cases h
  · next i hi =>
    cases h
    obtain ⟨x, y, rfl, rfl, -⟩ := Text.find?_eq_some hi (removal_ne_nil _)
    have hnone := notMem_removal (t := s.templateRepo)
    generalize Snippet.removal s.templateRepo = removal at hnone ⊢
    rw [List.append_assoc]
    cases hend : Text.findFrom? ['\n'] x.length (x ++ (removal ++ y)) with
    | none =>
      rw [Text.findFrom?_eq_none_iff, List.drop_left, List.singleton_infix_iff, List.mem_append, not_or] at hend
      refine ⟨x ++ (removal ++ y), [], by simp, ?_, .inl rfl, fun _ => ⟨x, y, by simp, hend.2⟩⟩
      have hinsert := Text.insertAt_length (x ++ (removal ++ y)) [] ('\n' :: Snippet.cleanup repo)
      rwa [List.append_nil] at hinsert
    | some j =>
      obtain ⟨between, w, hdrop, rfl, hfirst⟩ := Text.findFrom?_eq_some hend (List.cons_ne_nil _ _)
      rw [List.drop_left, List.append_assoc, List.singleton_append] at hdrop
      rw [hdrop, ← List.append_assoc, Option.getD_some, ← List.length_append, Text.insertAt_length]
      refine ⟨x ++ between, '\n' :: w, rfl, rfl, .inr ⟨w, rfl⟩, fun hline => ?_⟩
      obtain ⟨z, rfl, -⟩ := Text.exists_of_append_cons_eq_append hdrop.symm (hnone hline)
      rw [List.singleton_infix_iff, List.mem_append, not_or] at hfirst
      exact ⟨x, z, by simp, hfirst.2⟩

theorem IsBlockEnd.exists_eq {e : Text} (h : IsBlockEnd e) : ∃ front, e = front ++ ['\n'] := by
  obtain ⟨cr, blanks, -, -, rfl⟩ := h
  exact ⟨_, rfl⟩

theorem insertsLines_checkout (h : insertCheckout s repo t = .ok t') :
    InsertsLines (lines ("      ".toList ++ checkoutTitle repo ++ '\n' :: checkoutRest s repo)) t t' := by
  obtain ⟨u, v, rfl, rfl, -⟩ := insertCheckout_eq_ok h
  rw [checkout_eq]
  exact Text.insertsLines_between u v _

theorem insertsLines_sync (h : insertSync s repo t = .ok t') : InsertsLines (lines ('\n' :: syncBody repo)) t t' := by
  obtain ⟨x, y, e, v, he, rfl, rfl⟩ := insertSync_eq_ok h
  obtain ⟨front, rfl⟩ := he.exists_eq
  have hlines := Text.insertsLines_between (x ++ Snippet.syncMarker s.templateRepo ++ y ++ front) v ('\n' :: syncBody repo)
  rw [sync_eq]
  simpa using hlines

theorem insertsLines_cleanup (h : insertCleanup s repo t = .ok t') : InsertsLines (lines (Snippet.cleanup repo)) t t' := by
  obtain ⟨u, v, rfl, rfl, rfl | ⟨w, rfl⟩, -⟩ := insertCleanup_eq_ok h
  · rw [List.append_nil, List.append_nil]
    exact Text.insertsLines_end u _
  · exact Text.insertsLines_between u w _

theorem spliceWorkflow_eq_ok (h : spliceWorkflow s repo t = .ok t') :
    ∃ t₁ t₂, insertCheckout s repo t = .ok t₁ ∧ insertSync s repo t₁ = .ok t₂ ∧ insertCleanup s repo t₂ = .ok t' := by
  obtain ⟨t₁, h₁, h⟩ := exists_of_bind_eq_ok h
  obtain ⟨t₂, h₂, h₃⟩ := exists_of_bind_eq_ok h
  exact ⟨t₁, t₂, h₁, h₂, h₃⟩

theorem workflow_eq_applied (h : workflow s repo t = .applied t' m) :
    hasLineEndingWith (checkoutTitle repo) t = false ∧ spliceWorkflow s repo t = .ok t' := by
  unfold workflow at h
  split at h
  · cases h
  · next habsent =>
    split at h
    · cases h
    · next hsplice =>
      cases h
      exact ⟨Bool.eq_false_iff.2 habsent, hsplice⟩

-- ---------------------------------------------------------------------------
-- Lines that end with a text
-- ---------------------------------------------------------------------------

theorem endsLine_of_blank {blanks : Text} (h : ∀ c ∈ blanks, isBlank c) {v : Text} (hv : v = [] ∨ ∃ w, v = '\n' :: w) :
    endsLine (blanks ++ v) = true := by
  unfold endsLine
  rw [List.dropWhile_append_of_pos h, List.takeWhile_append_of_pos h, Bool.or_eq_true, decide_eq_true_iff,
    decide_eq_true_iff]
  rcases hv with rfl | ⟨w, rfl⟩
  · exact .inl rfl
  · exact .inr (List.mem_append_right _ (by simp [isBlank]))

theorem hasLineEndingWith_append (h : endsLine t) (u : Text) : hasLineEndingWith pat (u ++ pat ++ t) = true := by
  have hself : hasLineEndingWith pat (pat ++ t) = true := by
    cases ht : pat ++ t with
    | nil => exact decide_eq_true (List.append_eq_nil_iff.1 ht).1
    | cons c v => rw [hasLineEndingWith, ← ht, Text.after?_append, Option.any_some, h, Bool.true_or]
  induction u with
  | nil => exact hself
  | cons c u ih => rw [List.cons_append, List.cons_append, hasLineEndingWith, ih, Bool.or_true]

/-- A text with a line that is made of something, `pat`, and blanks has a line that ends with it. -/
theorem hasLineEndingWith_of_mem_lines (lead : Text) {blanks : Text} (hblanks : ∀ c ∈ blanks, isBlank c)
    (h : lead ++ pat ++ blanks ∈ lines t) : hasLineEndingWith pat t = true := by
  obtain ⟨u, v, rfl, -, hv⟩ := Text.exists_of_mem_lines h
  have hsplit : u ++ (lead ++ pat ++ blanks) ++ v = (u ++ lead) ++ pat ++ (blanks ++ v) := by simp
  rw [hsplit]
  exact hasLineEndingWith_append (endsLine_of_blank hblanks hv) _

/-- A workflow that a repository was entered into has the title of its step at the end of a line. -/
theorem hasLineEndingWith_of_spliceWorkflow (hrepo : '\n' ∉ repo) (h : spliceWorkflow s repo t = .ok t') :
    hasLineEndingWith (checkoutTitle repo) t' = true := by
  obtain ⟨t₁, t₂, h₁, h₂, h₃⟩ := spliceWorkflow_eq_ok h
  have htitle : '\n' ∉ "      ".toList ++ checkoutTitle repo := by
    have hlead : '\n' ∉ "      ".toList := by simp
    rw [checkoutTitle_eq, List.mem_append, List.mem_cons, not_or, not_or]
    exact ⟨hlead, by decide, notMem_titleRest hrepo⟩
  have hmem : "      ".toList ++ checkoutTitle repo ∈ lines t₁ := by
    apply (insertsLines_checkout h₁).mem
    rw [Text.lines_append_cons, Text.lines_of_notMem htitle]
    exact List.mem_append_left _ List.mem_cons_self
  have hkept := (insertsLines_cleanup h₃).sublist.subset ((insertsLines_sync h₂).sublist.subset hmem)
  rw [← List.append_nil (_ ++ checkoutTitle repo)] at hkept
  exact hasLineEndingWith_of_mem_lines "      ".toList (fun c hc => absurd hc List.not_mem_nil) hkept

-- ---------------------------------------------------------------------------
-- Sidebars and navigation bar
-- ---------------------------------------------------------------------------

theorem sidebarName_infix_sidebarKey (repo : Text) : Snippet.sidebarName repo <:+: Snippet.sidebarKey repo := by
  unfold Snippet.sidebarKey
  dsimp only
  split
  · exact List.infix_rfl
  · exact ⟨['\''], ['\''], rfl⟩

theorem sidebarName_infix_sidebar (repo : Text) : Snippet.sidebarName repo <:+: Snippet.sidebar repo := by
  have hkey : Snippet.sidebarKey repo <:+: Snippet.sidebar repo :=
    ⟨"  // ".toList ++ repo ++ " sidebar\n  ".toList,
      ": [\n    \x7b\n      type: 'autogenerated',\n      dirName: '".toList ++ (repo ++ "',\n    \x7d,\n  ],".toList),
      by unfold Snippet.sidebar; simp only [List.append_assoc]⟩
  exact (sidebarName_infix_sidebarKey repo).trans hkey

theorem sidebarId_infix_navbar (repo : Text) :
    "sidebarId: '".toList ++ Snippet.sidebarName repo ++ ['\''] <:+: Snippet.navbar repo := by
  have hlead : "        \x7b\n          type: 'docSidebar',\n          sidebarId: '".toList
      = "        \x7b\n          type: 'docSidebar',\n          ".toList ++ "sidebarId: '".toList := by simp
  have hquote : "',\n          position: 'left',\n          label: '".toList
      = ['\''] ++ ",\n          position: 'left',\n          label: '".toList := by simp
  unfold Snippet.navbar
  rw [hlead, hquote]
  exact ⟨_, _, by simp only [List.append_assoc]; rfl⟩

/-- What closes the sidebars. -/
def closing : Text := "\x7d;"

theorem sidebars_eq_applied (h : sidebars s repo t = .applied t' m) :
    t.contains (Snippet.sidebarName repo) = false
      ∧ ∃ u v, t = u ++ closing ++ v ∧ t' = u ++ (Snippet.sidebar repo ++ ['\n']) ++ (closing ++ v)
        ∧ ¬ sidebarsExport <:+: u ∧ sidebarsExport <:+: v := by
  unfold sidebars at h
  dsimp only at h
  split at h
  · cases h
  · next habsent =>
    split at h
    · cases h
    · next stop hstop =>
      split at h
      · cases h
      · next i hi =>
        cases h
        refine ⟨Bool.eq_false_iff.2 habsent, ?_⟩
        obtain ⟨x, y, rfl, rfl, hfirst⟩ := Text.find?_eq_some hstop (by decide)
        obtain ⟨u, between, htake, rfl⟩ := Text.findLast?_eq_some hi (by decide)
        rw [List.append_assoc, List.take_left] at htake
        subst htake
        have hsplit : u ++ closing ++ between ++ sidebarsExport ++ y
            = u ++ (closing ++ (between ++ sidebarsExport ++ y)) := by simp
        refine ⟨u, between ++ sidebarsExport ++ y, by simp [closing], ?_, fun hin => hfirst ?_, ⟨between, y, rfl⟩⟩
        · exact (congrArg (Text.insertAt · u.length _) hsplit).trans (Text.insertAt_length _ _ _)
        · exact hin.trans ⟨[], _, by rw [List.nil_append, ← List.append_assoc]⟩

theorem repositoryItem?_eq_some {lineStart : Bool} (h : repositoryItem? lineStart t = some n) :
    ∃ u v, t = u ++ v ∧ u.length = n ∧ startsRepositoryItem v = true
      ∧ (u = [] ∧ lineStart = true ∨ ∃ w, u = w ++ ['\n']) := by
  induction t generalizing lineStart n with
  | nil => cases h
  | cons c t ih =>
    rw [repositoryItem?] at h
    split at h
    · next hhere =>
      cases h
      obtain ⟨hstart, hitem⟩ := Bool.and_eq_true_iff.1 hhere
      exact ⟨[], c :: t, rfl, rfl, hitem, .inl ⟨rfl, hstart⟩⟩
    · obtain ⟨k, hk, rfl⟩ := Option.map_eq_some_iff.1 h
      obtain ⟨u, v, rfl, rfl, hitem, ⟨rfl, hstart⟩ | ⟨w, rfl⟩⟩ := ih hk
      · exact ⟨[c], v, rfl, rfl, hitem, .inr ⟨[], by rw [of_decide_eq_true hstart]; rfl⟩⟩
      · exact ⟨c :: (w ++ ['\n']), v, rfl, rfl, hitem, .inr ⟨c :: w, rfl⟩⟩

theorem navbar_eq_applied (h : navbar s repo t = .applied t' m) :
    ∃ u v, t = u ++ v ∧ t' = u ++ Snippet.navbar repo ++ v ∧ startsRepositoryItem v = true
      ∧ (u = [] ∨ ∃ w, u = w ++ ['\n']) := by
  unfold navbar at h
  dsimp only at h
  split at h
  · cases h
  · split at h
    · cases h
    · next i hi =>
      cases h
      obtain ⟨u, v, rfl, rfl, hitem, hstart⟩ := repositoryItem?_eq_some hi
      exact ⟨u, v, rfl, Text.insertAt_length u v _, hitem, hstart.imp_left And.left⟩

end Edit

namespace FileEdit

open Edit
open Text (Inserts InsertsAll InsertsLines lines)

variable {s : SiteSettings} {repo t t' m : Text} {step : OnboardingStep} {e : FileEdit}

/-- An edit that is applied inserts the snippets of its step one after the other, and nothing else. -/
theorem insertsAll_of_applied (he : step.fileEdit? s repo = some e) (h : e.edit t = .applied t' m) :
    InsertsAll e.snippets t t' := by
  cases step with
  | workflow =>
    cases he
    obtain ⟨-, hsplice⟩ := workflow_eq_applied h
    obtain ⟨t₁, t₂, h₁, h₂, h₃⟩ := spliceWorkflow_eq_ok hsplice
    obtain ⟨u, v, rfl, rfl, -⟩ := insertCheckout_eq_ok h₁
    obtain ⟨x, y, e, w, -, ht₁, rfl⟩ := insertSync_eq_ok h₂
    obtain ⟨z, a, ht₂, rfl, -⟩ := insertCleanup_eq_ok h₃
    refine .cons ⟨u, '\n' :: v, rfl, rfl⟩ (.cons ⟨_, w, ht₁, rfl⟩ (.cons ⟨z, a, ht₂, rfl⟩ (.nil _)))
  | docsFolder => cases he
  | sidebars =>
    cases he
    obtain ⟨-, u, v, rfl, rfl, -⟩ := sidebars_eq_applied h
    exact .cons ⟨u, closing ++ v, List.append_assoc _ _ _, rfl⟩ (.nil _)
  | navbar =>
    cases he
    obtain ⟨u, v, rfl, rfl, -⟩ := navbar_eq_applied h
    exact .cons ⟨u, v, rfl, rfl⟩ (.nil _)

/-- An edit that was applied is skipped the next time. -/
theorem skipped_of_applied (hrepo : '\n' ∉ repo) (he : step.fileEdit? s repo = some e) (h : e.edit t = .applied t' m) :
    ∃ m', e.edit t' = .skipped m' := by
  cases step with
  | workflow =>
    cases he
    obtain ⟨-, hsplice⟩ := workflow_eq_applied h
    exact ⟨_, if_pos (hasLineEndingWith_of_spliceWorkflow hrepo hsplice)⟩
  | docsFolder => cases he
  | sidebars =>
    cases he
    obtain ⟨-, u, v, -, rfl, -⟩ := sidebars_eq_applied h
    refine ⟨_, if_pos (Text.contains_of_infix ?_)⟩
    exact (sidebarName_infix_sidebar repo).trans ⟨u, ['\n'] ++ (closing ++ v), by simp⟩
  | navbar =>
    cases he
    obtain ⟨u, v, -, rfl, -⟩ := navbar_eq_applied h
    refine ⟨_, if_pos ?_⟩
    rw [Bool.or_eq_true]
    exact .inl (Text.contains_of_infix ((sidebarId_infix_navbar repo).trans ⟨u, v, rfl⟩))

end FileEdit
end MdxSafe
