-- SUMMARY: Workflows line by line: the titles of steps are counted, and the anchors stay when a repository is entered.
import MdxSafe.Proofs.Site.Edit
import MdxSafe.Proofs.Site.RepoName

/-!
# Workflows

A workflow is read line by line: whole lines are inserted, so that lines are counted together (`Edit.count_title`). The
anchors are found in lines as well, and no insertion stands in their way: it comes before the start of a step, behind
empty lines, or behind a line that removes something, and so never between the end of a section and the empty line
after it (`Edit.exists_spliceWorkflow`).
-/

namespace MdxSafe

namespace Edit

open Text (InsertsLines lines)
open RepoName (IsName isNameChar)

variable {s : SiteSettings} {repo other pat t t' u v l : Text}

-- ---------------------------------------------------------------------------
-- Lines that end with a text
-- ---------------------------------------------------------------------------

/-- Whether a text stands at the end of a line, blanks apart. -/
def EndsWith (pat l : Text) : Prop := ∃ lead blanks, (∀ c ∈ blanks, isBlank c = true) ∧ l = lead ++ pat ++ blanks

theorem exists_of_endsLine (h : endsLine t = true) :
    ∃ blanks v, t = blanks ++ v ∧ '\n' ∉ blanks ∧ (∀ c ∈ blanks, isBlank c = true) ∧ (v = [] ∨ ∃ w, v = '\n' :: w) := by
  have hall : ∀ c ∈ t.takeWhile isBlank, isBlank c = true := fun c hc => List.mem_takeWhile_imp hc
  by_cases hend : '\n' ∈ t.takeWhile isBlank
  · obtain ⟨blanks, rest, hfirst, hnone⟩ := List.eq_append_cons_of_mem hend
    rw [hfirst] at hall
    refine ⟨blanks, '\n' :: (rest ++ t.dropWhile isBlank), ?_, hnone, fun c hc => hall c (List.mem_append_left _ hc),
      .inr ⟨_, rfl⟩⟩
    rw [← List.cons_append, ← List.append_assoc, ← hfirst, List.takeWhile_append_dropWhile]
  · unfold endsLine at h
    rw [Bool.or_eq_true, decide_eq_true_iff, decide_eq_true_iff] at h
    refine ⟨t.takeWhile isBlank, [], ?_, hend, hall, .inl rfl⟩
    conv_lhs => rw [← List.takeWhile_append_dropWhile (p := isBlank) (l := t), h.resolve_right hend]

theorem exists_of_hasLineEndingWith (h : hasLineEndingWith pat t = true) :
    ∃ u v, t = u ++ pat ++ v ∧ endsLine v = true := by
  induction t with
  | nil => exact ⟨[], [], by simpa [hasLineEndingWith] using h, rfl⟩
  | cons c t ih =>
    rw [hasLineEndingWith, Bool.or_eq_true] at h
    rcases h with h | h
    · obtain ⟨v, hv, hend⟩ := (Option.any_eq_true _ _).1 h
      exact ⟨[], v, Text.after?_eq_some_iff.1 hv, hend⟩
    · obtain ⟨u, v, rfl, hend⟩ := ih h
      exact ⟨c :: u, v, rfl, hend⟩

/-- A text has a line that ends with something just if one of its lines does. -/
theorem hasLineEndingWith_iff (hpat : '\n' ∉ pat) : hasLineEndingWith pat t = true ↔ ∃ l ∈ lines t, EndsWith pat l := by
  constructor
  · intro h
    obtain ⟨u, v, rfl, hend⟩ := exists_of_hasLineEndingWith h
    obtain ⟨blanks, v, rfl, hnone, hblanks, hv⟩ := exists_of_endsLine hend
    obtain ⟨w, hw, hu⟩ := Text.exists_lastLine u
    refine ⟨w ++ pat ++ blanks, ?_, w, blanks, hblanks, rfl⟩
    have hline : '\n' ∉ w ++ pat ++ blanks := by
      rw [List.mem_append, List.mem_append, not_or, not_or]
      exact ⟨⟨hw, hpat⟩, hnone⟩
    rcases hu with rfl | ⟨u, rfl⟩
    · simpa using Text.mem_lines_of_between hline (.inl rfl) hv
    · simpa using Text.mem_lines_of_between hline (.inr ⟨u, rfl⟩) hv
  · rintro ⟨l, hl, lead, blanks, hblanks, rfl⟩
    exact hasLineEndingWith_of_mem_lines lead hblanks hl

/-- For a line it makes no difference. -/
theorem hasLineEndingWith_line_iff (hpat : '\n' ∉ pat) (hl : '\n' ∉ l) :
    hasLineEndingWith pat l = true ↔ EndsWith pat l := by
  rw [hasLineEndingWith_iff hpat, Text.lines_of_notMem hl]
  simp

theorem hasLineEndingWith_iff_count (hpat : '\n' ∉ pat) :
    hasLineEndingWith pat t = true ↔ 0 < (lines t).countP (hasLineEndingWith pat) := by
  rw [hasLineEndingWith_iff hpat, List.countP_pos_iff]
  exact exists_congr fun l => and_congr_right fun hl =>
    (hasLineEndingWith_line_iff hpat (Text.notMem_of_mem_lines hl)).symm

-- ---------------------------------------------------------------------------
-- Titles
-- ---------------------------------------------------------------------------

theorem notMem_checkoutTitle (h : '\n' ∉ t) : '\n' ∉ checkoutTitle t := by
  rw [checkoutTitle_eq, List.mem_cons, not_or]
  exact ⟨by decide, notMem_titleRest h⟩

/-- What stands before the last blank of a title. -/
def titleLead : Text := "- name: Checkout"

theorem checkoutTitle_eq_lead (repo : Text) : checkoutTitle repo = titleLead ++ ' ' :: repo := by
  have hlead : "- name: Checkout ".toList = titleLead ++ [' '] := by decide
  unfold checkoutTitle
  rw [hlead, List.append_assoc]
  rfl

/-- A text determines its last word, and what leads up to it. -/
theorem lastWord_inj {x y n m : Text} {c d : Char} (h : x ++ c :: n = y ++ d :: m) (hn : ∀ c ∈ n, isNameChar c = true)
    (hm : ∀ c ∈ m, isNameChar c = true) (hc : isNameChar c = false) (hd : isNameChar d = false) :
    x = y ∧ c = d ∧ n = m := by
  have hclass : ∀ {n : Text}, (∀ c ∈ n, isNameChar c = true) → ∀ c ∈ n.reverse, (!isNameChar c) = false := by
    intro n hn c hc
    rw [hn c (List.mem_reverse.1 hc)]
    rfl
  have hreverse := congrArg List.reverse h
  simp only [List.reverse_append, List.reverse_cons, List.append_assoc, List.singleton_append] at hreverse
  obtain ⟨hword, hrest⟩ := Text.append_inj_of_class (p := fun c => !isNameChar c) (hclass hn) (hclass hm)
    (by simpa using hc) (by simpa using hd) hreverse
  obtain ⟨hsep, hlead⟩ := List.cons.inj hrest
  exact ⟨List.reverse_inj.1 hlead, hsep, List.reverse_inj.1 hword⟩

/-- A text that does not end in a blank ends in no blanks. -/
theorem eq_nil_of_append_blanks {x blanks : Text} {c : Char} (h : t ++ [c] = x ++ blanks) (hc : isBlank c = false)
    (hblanks : ∀ c ∈ blanks, isBlank c = true) : blanks = [] := by
  rcases List.eq_nil_or_concat' blanks with rfl | ⟨front, b, rfl⟩
  · rfl
  · rw [← List.append_assoc] at h
    obtain ⟨-, hlast⟩ := List.append_inj' h rfl
    have hblank := hblanks b (List.mem_append_right front List.mem_cons_self)
    rw [← (List.cons.inj hlast).1, hc] at hblank
    cases hblank

/-- A line whose last word is made of characters of names ends with a title just if the word is the name and the title
leads up to it. -/
theorem endsWith_title_iff {lead w : Text} {d : Char} (hrepo : IsName repo) (hw : ∀ c ∈ w, isNameChar c = true)
    (hd : isNameChar d = false) (hend : w ≠ [] ∨ isBlank d = false) :
    EndsWith (checkoutTitle repo) (lead ++ d :: w) ↔ w = repo ∧ d = ' ' ∧ titleLead <:+ lead := by
  rw [checkoutTitle_eq_lead]
  constructor
  · rintro ⟨x, blanks, hblanks, heq⟩
    obtain ⟨front, c, hfront, hc⟩ : ∃ front c, lead ++ d :: w = front ++ [c] ∧ isBlank c = false := by
      rcases List.eq_nil_or_concat' w with rfl | ⟨w, c, rfl⟩
      · exact ⟨lead, d, rfl, hend.resolve_left fun hne => hne rfl⟩
      · exact ⟨lead ++ d :: w, c, by simp,
          RepoName.isBlank_of_isNameChar (hw c (List.mem_append_right w List.mem_cons_self))⟩
    obtain rfl := eq_nil_of_append_blanks (hfront.symm.trans heq) hc hblanks
    rw [List.append_nil, ← List.append_assoc] at heq
    obtain ⟨rfl, rfl, rfl⟩ := lastWord_inj heq hw hrepo.chars hd (by decide)
    exact ⟨rfl, rfl, List.suffix_append x titleLead⟩
  · rintro ⟨rfl, rfl, x, rfl⟩
    exact ⟨x, [], nofun, by simp⟩

theorem not_endsWith_title_nil (repo : Text) : ¬ EndsWith (checkoutTitle repo) [] := by
  rintro ⟨x, blanks, -, heq⟩
  rw [checkoutTitle_eq] at heq
  simp at heq

-- ---------------------------------------------------------------------------
-- The lines of a repository
-- ---------------------------------------------------------------------------

/-- The lines of the step that fetches a repository. -/
def checkoutLines (s : SiteSettings) (repo : Text) : List Text :=
  ["      ".toList ++ checkoutTitle repo, "        uses: actions/checkout@v4", "        with:",
    "          repository: ".toList ++ s.owner ++ '/' :: repo, "          ref: main",
    "          path: _source_".toList ++ repo, "          token: $\x7b\x7b secrets.DOCS_REPO_TOKEN \x7d\x7d"]

/-- The lines of the section that copies documents. -/
def syncLines (repo : Text) : List Text :=
  [[], "          ".toList ++ Snippet.syncMarker repo,
    "          if [ -d \"_source_".toList ++ repo ++ "/docs\" ]; then".toList,
    "            rm -rf docs/".toList ++ repo, "            mkdir -p docs/".toList ++ repo,
    "            rsync -a --delete _source_".toList ++ repo ++ "/docs/ docs/".toList ++ repo ++ ['/'], "          fi"]

theorem notMem_literal {t : Text} {lit : String} (hlit : '\n' ∉ lit.toList) (ht : '\n' ∉ t) : '\n' ∉ lit.toList ++ t :=
  fun hmem => (List.mem_append.1 hmem).elim hlit ht

theorem lines_checkout (howner : '\n' ∉ s.owner) (hrepo : '\n' ∉ repo) :
    lines ("      ".toList ++ checkoutTitle repo ++ '\n' :: checkoutRest s repo) = checkoutLines s repo := by
  have huses : "        uses: actions/checkout@v4\n        with:\n          repository: ".toList
      = "        uses: actions/checkout@v4".toList ++ '\n' :: ("        with:".toList ++ '\n' :: "          repository: ".toList) := by
    decide +kernel
  have href : "\n          ref: main\n          path: _source_".toList
      = '\n' :: ("          ref: main".toList ++ '\n' :: "          path: _source_".toList) := by simp
  have htoken : "\n          token: $\x7b\x7b secrets.DOCS_REPO_TOKEN \x7d\x7d".toList
      = '\n' :: "          token: $\x7b\x7b secrets.DOCS_REPO_TOKEN \x7d\x7d".toList := by simp
  have hjoin : "      ".toList ++ checkoutTitle repo ++ '\n' :: checkoutRest s repo
      = Text.join ['\n'] (checkoutLines s repo) := by
    unfold checkoutRest checkoutLines
    rw [huses, href, htoken]
    simp only [Text.join_cons_cons, Text.join_singleton, List.append_assoc, List.cons_append, List.nil_append]
  rw [hjoin]
  refine Text.splitOn_join ?_ (List.cons_ne_nil _ _)
  unfold checkoutLines
  simp only [List.forall_mem_cons]
  have hslash : '\n' ∉ s.owner ++ '/' :: repo := by simp [howner, hrepo]
  refine ⟨notMem_literal (by simp) (notMem_checkoutTitle hrepo), by simp, by simp,
    ?_, by simp, notMem_literal (by simp) hrepo, by simp, nofun⟩
  rw [List.append_assoc]
  exact notMem_literal (by simp) hslash

theorem notMem_syncMarker (h : '\n' ∉ repo) : '\n' ∉ Snippet.syncMarker repo := by
  unfold Snippet.syncMarker
  rw [List.append_assoc]
  refine notMem_literal (by simp) fun hmem => ?_
  have hdocs : '\n' ∉ " docs".toList := by simp
  exact (List.mem_append.1 hmem).elim h hdocs

theorem lines_sync (hrepo : '\n' ∉ repo) : lines ('\n' :: syncBody repo) = syncLines repo := by
  have hif : "\n          if [ -d \"_source_".toList = '\n' :: "          if [ -d \"_source_".toList := by simp
  have hthen : "/docs\" ]; then\n            rm -rf docs/".toList
      = "/docs\" ]; then".toList ++ '\n' :: "            rm -rf docs/".toList := by simp
  have hmake : "\n            mkdir -p docs/".toList = '\n' :: "            mkdir -p docs/".toList := by simp
  have hcopy : "\n            rsync -a --delete _source_".toList
      = '\n' :: "            rsync -a --delete _source_".toList := by simp
  have hend : "/\n          fi".toList = '/' :: '\n' :: "          fi".toList := by simp
  have hjoin : '\n' :: syncBody repo = Text.join ['\n'] (syncLines repo) := by
    unfold syncBody syncLines
    rw [hif, hthen, hmake, hcopy, hend]
    simp only [Text.join_cons_cons, Text.join_singleton, List.append_assoc, List.cons_append, List.nil_append]
  rw [hjoin]
  refine Text.splitOn_join ?_ (List.cons_ne_nil _ _)
  unfold syncLines
  simp only [List.forall_mem_cons, List.append_assoc]
  have hthen : '\n' ∉ repo ++ "/docs\" ]; then".toList := by
    have hlit : '\n' ∉ "/docs\" ]; then".toList := by simp
    exact fun hmem => (List.mem_append.1 hmem).elim hrepo hlit
  have hcopy : '\n' ∉ repo ++ ("/docs/ docs/".toList ++ (repo ++ ['/'])) := by
    have hslash : '\n' ∉ repo ++ ['/'] := by simp [hrepo]
    exact fun hmem => (List.mem_append.1 hmem).elim hrepo (notMem_literal (by simp) hslash)
  exact ⟨nofun, notMem_literal (by simp) (notMem_syncMarker hrepo), notMem_literal (by simp) hthen,
    notMem_literal (by simp) hrepo, notMem_literal (by simp) hrepo,
    notMem_literal (by simp) hcopy, by simp, nofun⟩

theorem lines_cleanup (hrepo : '\n' ∉ repo) : lines (Snippet.cleanup repo) = [Snippet.cleanup repo] :=
  Text.lines_of_notMem (notMem_literal (by simp) (notMem_removal hrepo))

-- ---------------------------------------------------------------------------
-- Counting titles
-- ---------------------------------------------------------------------------

theorem not_endsWith_title {lead w : Text} {d : Char} (hrepo : IsName repo) (hw : ∀ c ∈ w, isNameChar c = true)
    (hd : isNameChar d = false) (hend : w ≠ [] ∨ isBlank d = false) (h : ¬ (d = ' ' ∧ titleLead <:+ lead)) :
    ¬ EndsWith (checkoutTitle repo) (lead ++ d :: w) := fun hends =>
  h ((endsWith_title_iff hrepo hw hd hend).1 hends).2

theorem isNameChar_literal_append {lit : String} (hlit : ∀ c ∈ lit.toList, isNameChar c = true) (h : IsName repo) :
    ∀ c ∈ lit.toList ++ repo, isNameChar c = true := fun c hc =>
  (List.mem_append.1 hc).elim (hlit c) (h.chars c)

theorem endsWith_title_self_iff (hrepo : IsName repo) (hother : IsName other) :
    EndsWith (checkoutTitle repo) ("      ".toList ++ checkoutTitle other) ↔ other = repo := by
  rw [checkoutTitle_eq_lead other, ← List.append_assoc,
    endsWith_title_iff hrepo hother.chars (by decide) (.inl hother.ne_nil)]
  exact and_iff_left ⟨rfl, List.suffix_append _ _⟩

theorem not_endsWith_title_checkout (hrepo : IsName repo) (hother : IsName other) :
    ∀ l ∈ (checkoutLines s other).tail, ¬ EndsWith (checkoutTitle repo) l := by
  have huses : "        uses: actions/checkout@v4".toList = "        uses: actions/checkout".toList ++ '@' :: "v4".toList := by
    decide +kernel
  have hwith : "        with:".toList = "        with".toList ++ [':'] := by simp
  have href : "          ref: main".toList = "          ref:".toList ++ ' ' :: "main".toList := by simp
  have hpath : "          path: _source_".toList = "          path:".toList ++ ' ' :: "_source_".toList := by simp
  have htoken : "          token: $\x7b\x7b secrets.DOCS_REPO_TOKEN \x7d\x7d".toList
      = "          token: $\x7b\x7b secrets.DOCS_REPO_TOKEN \x7d".toList ++ ['\x7d'] := by simp
  unfold checkoutLines
  rw [List.tail_cons, huses, hwith, href, hpath, htoken]
  simp only [List.forall_mem_cons, List.append_assoc, List.cons_append]
  refine ⟨?_, ?_, ?_, ?_, ?_, ?_, nofun⟩
  · exact not_endsWith_title hrepo (List.all_eq_true.1 (by decide)) (by decide) (.inl (by simp)) (by decide)
  · exact not_endsWith_title hrepo nofun (by decide) (.inr (by decide)) (by decide)
  · rw [← List.append_assoc]
    exact not_endsWith_title hrepo hother.chars (by decide) (.inl hother.ne_nil) fun h => absurd h.1 (by decide)
  · exact not_endsWith_title hrepo (List.all_eq_true.1 (by decide)) (by decide) (.inl (by simp))
      (by decide)
  · refine not_endsWith_title hrepo (isNameChar_literal_append (List.all_eq_true.1 (by decide)) hother) (by decide)
      (.inl ?_) (by decide)
    exact List.append_ne_nil_of_right_ne_nil _ hother.ne_nil
  · exact not_endsWith_title hrepo nofun (by decide) (.inr (by decide)) (by decide)

theorem not_endsWith_title_sync (hrepo : IsName repo) (hother : IsName other) :
    ∀ l ∈ syncLines other, ¬ EndsWith (checkoutTitle repo) l := by
  have hmarker : "          ".toList ++ Snippet.syncMarker other
      = "          # Sync".toList ++ ' ' :: other ++ ' ' :: "docs".toList := by
    have hlead : "          ".toList ++ "# Sync ".toList = "          # Sync".toList ++ [' '] := by simp
    have hdocs : " docs".toList = ' ' :: "docs".toList := by simp
    unfold Snippet.syncMarker
    rw [hdocs, List.append_assoc, ← List.append_assoc "          ".toList, hlead]
    simp
  have hthen : "/docs\" ]; then".toList = "/docs\" ]".toList ++ [';'] ++ ' ' :: "then".toList := by simp
  have hremove : "            rm -rf docs/".toList = "            rm -rf docs".toList ++ ['/'] := by simp
  have hmake : "            mkdir -p docs/".toList = "            mkdir -p docs".toList ++ ['/'] := by simp
  have hend : "          fi".toList = "         ".toList ++ ' ' :: "fi".toList := by simp
  have htitle : titleLead = "- name:".toList ++ ' ' :: "Checkout".toList := by decide
  unfold syncLines
  rw [hmarker, hthen, hremove, hmake, hend]
  simp only [List.forall_mem_cons]
  refine ⟨not_endsWith_title_nil repo, ?_, ?_, ?_, ?_, ?_, ?_, nofun⟩
  · refine not_endsWith_title hrepo (List.all_eq_true.1 (by decide)) (by decide) (.inl (by simp)) fun h => ?_
    obtain ⟨x, hx⟩ := h.2
    rw [htitle, ← List.append_assoc] at hx
    obtain ⟨hsync, -⟩ := lastWord_inj hx (List.all_eq_true.1 (by decide)) hother.chars (by decide) (by decide)
    exact absurd ⟨x, hsync⟩ (show ¬ "- name:".toList <:+ "          # Sync".toList by decide)
  · rw [← List.append_assoc]
    refine not_endsWith_title hrepo (List.all_eq_true.1 (by decide)) (by decide) (.inl (by simp)) fun h => ?_
    obtain ⟨x, hx⟩ := h.2
    rw [htitle, ← List.append_assoc, ← List.append_assoc] at hx
    obtain ⟨-, hsep, -⟩ := lastWord_inj hx (List.all_eq_true.1 (by decide)) nofun (by decide) (by decide)
    exact absurd hsep (by decide)
  · rw [List.append_assoc, List.singleton_append]
    exact not_endsWith_title hrepo hother.chars (by decide) (.inl hother.ne_nil) (by decide)
  · rw [List.append_assoc, List.singleton_append]
    exact not_endsWith_title hrepo hother.chars (by decide) (.inl hother.ne_nil) (by decide)
  · exact not_endsWith_title hrepo nofun (by decide) (.inr (by decide)) fun h => absurd h.1 (by decide)
  · exact not_endsWith_title hrepo (List.all_eq_true.1 (by decide)) (by decide) (.inl (by simp))
      (by decide)

theorem not_endsWith_title_cleanup (hrepo : IsName repo) (hother : IsName other) :
    ¬ EndsWith (checkoutTitle repo) (Snippet.cleanup other) := by
  have hlead : "          ".toList ++ "rm -rf _source_".toList = "          rm -rf".toList ++ ' ' :: "_source_".toList := by
    decide +kernel
  unfold Snippet.cleanup Snippet.removal
  rw [← List.append_assoc, hlead, List.append_assoc, List.cons_append]
  refine not_endsWith_title hrepo (isNameChar_literal_append (List.all_eq_true.1 (by decide)) hother) (by decide)
    (.inl ?_) (by decide)
  exact List.append_ne_nil_of_right_ne_nil _ hother.ne_nil

/-- How many lines of a workflow end with the title of the step that fetches a repository. -/
def titleCount (repo t : Text) : Nat := (lines t).countP (hasLineEndingWith (checkoutTitle repo))

theorem hasLineEndingWith_title_iff (hrepo : IsName repo) :
    hasLineEndingWith (checkoutTitle repo) t = true ↔ 0 < titleCount repo t :=
  hasLineEndingWith_iff_count (notMem_checkoutTitle (hrepo.notMem (by decide)))

theorem countP_title_eq_zero {ls : List Text} (hrepo : IsName repo) (hline : ∀ l ∈ ls, '\n' ∉ l)
    (h : ∀ l ∈ ls, ¬ EndsWith (checkoutTitle repo) l) : ls.countP (hasLineEndingWith (checkoutTitle repo)) = 0 := by
  rw [List.countP_eq_zero]
  intro l hl hends
  exact h l hl ((hasLineEndingWith_line_iff (notMem_checkoutTitle (hrepo.notMem (by decide))) (hline l hl)).1 hends)

/-- Entering a repository adds one line with its title, and none with another one. -/
theorem titleCount_spliceWorkflow (howner : '\n' ∉ s.owner) (hrepo : IsName repo) (hother : IsName other)
    (h : spliceWorkflow s other t = .ok t') :
    titleCount repo t' = titleCount repo t + if other = repo then 1 else 0 := by
  have hline : '\n' ∉ other := hother.notMem (by decide)
  have htitle : '\n' ∉ checkoutTitle repo := notMem_checkoutTitle (hrepo.notMem (by decide))
  obtain ⟨t₁, t₂, h₁, h₂, h₃⟩ := spliceWorkflow_eq_ok h
  have hcheckout : (lines ("      ".toList ++ checkoutTitle other ++ '\n' :: checkoutRest s other)).countP
      (hasLineEndingWith (checkoutTitle repo)) = if other = repo then 1 else 0 := by
    have hmem : ∀ l ∈ checkoutLines s other, '\n' ∉ l := by
      rw [← lines_checkout howner hline]
      exact fun l => Text.notMem_of_mem_lines
    have hfirst : checkoutLines s other = ("      ".toList ++ checkoutTitle other) :: (checkoutLines s other).tail := rfl
    rw [lines_checkout howner hline, hfirst, List.countP_cons,
      countP_title_eq_zero hrepo (fun l hl => hmem l (List.mem_of_mem_tail hl)) (not_endsWith_title_checkout hrepo hother),
      Nat.zero_add]
    have hself := hasLineEndingWith_line_iff htitle (hmem _ (by rw [hfirst]; exact List.mem_cons_self))
    simp only [hself.trans (endsWith_title_self_iff hrepo hother)]
  have hsync : (lines ('\n' :: syncBody other)).countP (hasLineEndingWith (checkoutTitle repo)) = 0 := by
    have hmem : ∀ l ∈ syncLines other, '\n' ∉ l := by
      rw [← lines_sync hline]
      exact fun l => Text.notMem_of_mem_lines
    rw [lines_sync hline]
    exact countP_title_eq_zero hrepo hmem (not_endsWith_title_sync hrepo hother)
  have hcleanup : (lines (Snippet.cleanup other)).countP (hasLineEndingWith (checkoutTitle repo)) = 0 := by
    refine countP_title_eq_zero hrepo (fun l => Text.notMem_of_mem_lines) ?_
    rw [lines_cleanup hline, List.forall_mem_singleton]
    exact not_endsWith_title_cleanup hrepo hother
  unfold titleCount
  rw [(insertsLines_cleanup h₃).countP_eq, (insertsLines_sync h₂).countP_eq, (insertsLines_checkout h₁).countP_eq,
    hcheckout, hsync, hcleanup]
  omega

-- ---------------------------------------------------------------------------
-- Anchors
-- ---------------------------------------------------------------------------

/-- Whether a workflow has the entries of the template next to which others are inserted. -/
def hasAnchors (s : SiteSettings) (t : Text) : Bool :=
  (insertCheckout s [] t).isOk && (insertSync s [] t).isOk && (insertCleanup s [] t).isOk

/-- A line that is the last one of a section. -/
def IsSectionEnd (l : Text) : Prop := ∃ cr, (cr = [] ∨ cr = ['\r']) ∧ l = "          fi".toList ++ cr

/-- A line without anything but blanks. -/
def IsEmptyLine (l : Text) : Prop := ∀ c ∈ l, isBlank c = true

/-- The end of a section, an empty line after it, and something after that. -/
def HasSectionEnd (ls : List Text) : Prop :=
  ∃ before last empty next after, ls = before ++ last :: empty :: next :: after ∧ IsSectionEnd last ∧ IsEmptyLine empty

/-- The anchors of a workflow in its lines. -/
structure Anchored (s : SiteSettings) (ls : List Text) : Prop where
  checkout : ∃ front back, ls = front ++ back ∧ (∃ l ∈ front, checkoutTitle s.templateRepo <:+: l)
    ∧ ∃ l ∈ back, stepStart <+: l
  sync : ∃ front back, ls = front ++ back ∧ (∃ l ∈ front, Snippet.syncMarker s.templateRepo <:+: l) ∧ HasSectionEnd back
  cleanup : ∃ l ∈ ls, Snippet.removal s.templateRepo <:+: l

/-- Lines that are inserted elsewhere than behind the end of a section leave the end of a section. -/
theorem HasSectionEnd.insert {front back new : List Text} (h : HasSectionEnd (front ++ back))
    (hplace : ∀ last empty, front.getLast? = some last → back.head? = some empty → IsSectionEnd last → ¬ IsEmptyLine empty) :
    HasSectionEnd (front ++ new ++ back) := by
  obtain ⟨before, last, empty, next, after, hls, hlast, hempty⟩ := h
  rcases List.append_eq_append_iff.1 hls with ⟨x, rfl, rfl⟩ | ⟨x, rfl, hx⟩
  · exact ⟨front ++ new ++ x, last, empty, next, after, by simp, hlast, hempty⟩
  · -- The place is behind the last line of the section.
    rcases x with _ | ⟨a, _ | ⟨b, _ | ⟨c, x⟩⟩⟩
    · rw [List.nil_append] at hx
      exact ⟨before ++ new, last, empty, next, after, by simp [← hx], hlast, hempty⟩
    · simp only [List.cons_append, List.nil_append, List.cons.injEq] at hx
      obtain ⟨rfl, rfl⟩ := hx
      exact absurd hempty (hplace last empty (by simp) rfl hlast)
    · simp only [List.cons_append, List.nil_append, List.cons.injEq] at hx
      obtain ⟨rfl, rfl, rfl⟩ := hx
      cases new with
      | nil => exact ⟨before, last, empty, next, after, by simp, hlast, hempty⟩
      | cons first new => exact ⟨before, last, empty, first, new ++ next :: after, by simp, hlast, hempty⟩
    · simp only [List.cons_append, List.cons.injEq] at hx
      obtain ⟨rfl, rfl, rfl, rfl⟩ := hx
      exact ⟨before, last, empty, next, x ++ new ++ back, by simp, hlast, hempty⟩

theorem Anchored.insert {front back : List Text} (h : Anchored s (front ++ back)) (new : List Text)
    (hplace : ∀ last empty, front.getLast? = some last → back.head? = some empty → IsSectionEnd last → ¬ IsEmptyLine empty) :
    Anchored s (front ++ new ++ back) where
  checkout := by
    obtain ⟨x, y, hls, ⟨l, hl, htitle⟩, l', hl', hstep⟩ := h.checkout
    rcases List.append_eq_append_iff.1 hls with ⟨z, rfl, rfl⟩ | ⟨z, rfl, rfl⟩
    · exact ⟨front ++ new ++ z, y, by simp, ⟨l, by grind, htitle⟩, l', hl', hstep⟩
    · exact ⟨x, z ++ new ++ back, by simp, ⟨l, hl, htitle⟩, l', by grind, hstep⟩
  sync := by
    obtain ⟨x, y, hls, ⟨l, hl, hmarker⟩, hend⟩ := h.sync
    rcases List.append_eq_append_iff.1 hls with ⟨z, rfl, rfl⟩ | ⟨z, rfl, rfl⟩
    · exact ⟨front ++ new ++ z, y, by simp, ⟨l, by grind, hmarker⟩, hend⟩
    · refine ⟨x, z ++ new ++ back, by simp, ⟨l, hl, hmarker⟩, hend.insert fun last empty hlast => hplace last empty ?_⟩
      rw [List.getLast?_append, hlast]
      rfl
  cleanup := by
    obtain ⟨l, hl, hremoval⟩ := h.cleanup
    exact ⟨l, by grind, hremoval⟩

theorem cons_infix_of_mem_lines (h : l ∈ lines t) : '\n' :: l <:+: '\n' :: t := by
  obtain ⟨front, back, hlines⟩ := List.append_of_mem h
  rw [Text.cons_eq_flatMap_lines t, hlines, List.flatMap_append, List.flatMap_cons]
  exact ⟨_, _, List.append_assoc _ _ _⟩

theorem exists_insertCheckout (htemplate : '\n' ∉ s.templateRepo) (h : Anchored s (lines t)) (repo : Text) :
    ∃ t', insertCheckout s repo t = .ok t' := by
  obtain ⟨front, back, hlines, ⟨l, hl, htitle⟩, l', hl', hstep⟩ := h.checkout
  obtain ⟨a, b, rfl, rfl, rfl⟩ := Text.exists_of_lines_eq_append hlines (List.ne_nil_of_mem hl) (List.ne_nil_of_mem hl')
  have hline := notMem_checkoutTitle htemplate
  have hfront : checkoutTitle s.templateRepo <:+: a := (Text.infix_iff_lines hline).2 ⟨l, hl, htitle⟩
  unfold insertCheckout
  cases hfind : Text.find? (checkoutTitle s.templateRepo) (a ++ '\n' :: b) with
  | none => exact absurd (hfront.trans (List.prefix_append a _).isInfix) (Text.find?_eq_none_iff.1 hfind)
  | some i =>
    obtain ⟨x, y, hsplit, rfl, hfirst⟩ := Text.find?_eq_some hfind (by rw [checkoutTitle_eq]; exact List.cons_ne_nil _ _)
    obtain ⟨z, rfl, rfl⟩ := Text.exists_of_first_append_cons hsplit.symm hline hfirst hfront
    dsimp only
    cases hnext : Text.findFrom? nextStep (x.length + 1) _ with
    | some j => exact ⟨_, rfl⟩
    | none =>
      refine absurd ?_ (Text.findFrom?_eq_none_iff.1 hnext)
      have hdrop : x ++ checkoutTitle s.templateRepo ++ z ++ '\n' :: b
          = (x ++ ['-']) ++ (titleRest s.templateRepo ++ z ++ '\n' :: b) := by
        rw [checkoutTitle_eq]
        simp
      have hlength : (x ++ ['-']).length = x.length + 1 := List.length_append
      rw [hdrop, ← hlength, List.drop_left, nextStep_eq]
      obtain ⟨w, rfl⟩ := hstep
      exact ((List.prefix_append ('\n' :: stepStart) w).isInfix.trans (cons_infix_of_mem_lines hl')).trans
        (List.suffix_append _ _).isInfix

theorem blockEnd_eq : blockEnd = '\n' :: "          fi".toList := by decide

theorem exists_insertSync (htemplate : '\n' ∉ s.templateRepo) (h : Anchored s (lines t)) (repo : Text) :
    ∃ t', insertSync s repo t = .ok t' := by
  obtain ⟨front, back, hlines, ⟨l, hl, hmarker⟩, before, last, empty, next, after, rfl, ⟨cr, hcr, rfl⟩, hempty⟩ := h.sync
  obtain ⟨a, b, rfl, rfl, hb⟩ := Text.exists_of_lines_eq_append hlines (List.ne_nil_of_mem hl) (by simp)
  have hline := notMem_syncMarker htemplate
  have hfront : Snippet.syncMarker s.templateRepo <:+: a := (Text.infix_iff_lines hline).2 ⟨l, hl, hmarker⟩
  unfold insertSync
  dsimp only
  cases hfind : Text.find? (Snippet.syncMarker s.templateRepo) (a ++ '\n' :: b) with
  | none => exact absurd (hfront.trans (List.prefix_append a _).isInfix) (Text.find?_eq_none_iff.1 hfind)
  | some i =>
    obtain ⟨x, y, hsplit, rfl, hfirst⟩ := Text.find?_eq_some hfind (syncMarker_ne_nil _)
    obtain ⟨z, rfl, rfl⟩ := Text.exists_of_first_append_cons hsplit.symm hline hfirst hfront
    dsimp only
    cases hend : afterBlock? _ with
    | some n => exact ⟨_, rfl⟩
    | none =>
      refine absurd hend ?_
      rw [← List.length_append, List.append_assoc, List.drop_left, Text.cons_eq_flatMap_lines b, hb]
      have hblock : IsBlockEnd (blockEnd ++ cr ++ '\n' :: empty ++ ['\n']) := ⟨cr, empty, hcr, hempty, rfl⟩
      have hne := afterBlock?_ne_none hblock (z ++ before.flatMap fun l => '\n' :: l)
        (next ++ after.flatMap fun l => '\n' :: l)
      rw [blockEnd_eq] at hne
      simpa [List.flatMap_append, List.flatMap_cons] using hne

theorem exists_insertCleanup (htemplate : '\n' ∉ s.templateRepo) (h : Anchored s (lines t)) (repo : Text) :
    ∃ t', insertCleanup s repo t = .ok t' := by
  have hin := (Text.infix_iff_lines (notMem_removal htemplate)).2 h.cleanup
  unfold insertCleanup
  dsimp only
  cases hfind : Text.find? (Snippet.removal s.templateRepo) t with
  | none => exact absurd hin (Text.find?_eq_none_iff.1 hfind)
  | some i => exact ⟨_, rfl⟩

/-- A workflow that has the anchors has them in its lines. -/
theorem anchored_of_hasAnchors (htemplate : '\n' ∉ s.templateRepo) (h : hasAnchors s t = true) : Anchored s (lines t) := by
  have hok : ∀ {x : Except Anchor Text}, x.isOk = true → ∃ t', x = .ok t' := by
    intro x hx
    cases x with
    | error e => cases hx
    | ok t' => exact ⟨t', rfl⟩
  unfold hasAnchors at h
  rw [Bool.and_eq_true, Bool.and_eq_true] at h
  obtain ⟨⟨hcheckout, hsync⟩, hcleanup⟩ := h
  refine ⟨?_, ?_, ?_⟩
  · obtain ⟨t', h⟩ := hok hcheckout
    obtain ⟨u, v, rfl, -, hstep, htitle⟩ := insertCheckout_eq_ok h
    obtain ⟨l, hl, hin⟩ := (Text.infix_iff_lines (notMem_checkoutTitle htemplate)).1 (htitle htemplate)
    obtain ⟨l', ls, hlines, hprefix⟩ := Text.exists_line_of_prefix (by decide) hstep
    refine ⟨lines u, lines v, Text.lines_append_cons u v, ⟨l, hl, hin⟩, l', ?_, hprefix⟩
    rw [hlines]
    exact List.mem_cons_self
  · obtain ⟨t', h⟩ := hok hsync
    obtain ⟨x, y, e, v, ⟨cr, blanks, hcr, hblanks, rfl⟩, rfl, -⟩ := insertSync_eq_ok h
    have hmarker : Snippet.syncMarker s.templateRepo <:+: x ++ Snippet.syncMarker s.templateRepo ++ y := ⟨x, y, rfl⟩
    obtain ⟨l, hl, hin⟩ := (Text.infix_iff_lines (notMem_syncMarker htemplate)).1 hmarker
    have hsplit : x ++ Snippet.syncMarker s.templateRepo ++ y ++ (blockEnd ++ cr ++ '\n' :: blanks ++ ['\n']) ++ v
        = x ++ Snippet.syncMarker s.templateRepo ++ y
          ++ '\n' :: ("          fi".toList ++ cr ++ '\n' :: (blanks ++ '\n' :: v)) := by
      rw [blockEnd_eq]
      simp
    have hlast : '\n' ∉ "          fi".toList ++ cr :=
      notMem_literal (by simp) (by rcases hcr with rfl | rfl <;> simp)
    refine ⟨lines (x ++ Snippet.syncMarker s.templateRepo ++ y),
      lines ("          fi".toList ++ cr ++ '\n' :: (blanks ++ '\n' :: v)), ?_, ⟨l, hl, hin⟩, ?_⟩
    · rw [hsplit, Text.lines_append_cons]
    · rw [Text.lines_append_cons, Text.lines_of_notMem hlast, Text.lines_append_cons]
      obtain ⟨empty, rest, w, hlines, rfl⟩ := Text.exists_firstLine blanks
      obtain ⟨next, after, hnext⟩ := List.exists_cons_of_ne_nil (l := rest ++ lines v) (by simp [Text.lines_ne_nil])
      refine ⟨[], _, empty, next, after, ?_, ⟨cr, hcr, rfl⟩, fun c hc => hblanks c (List.mem_append_left w hc)⟩
      rw [hlines, ← hnext]
      rfl
  · obtain ⟨t', h⟩ := hok hcleanup
    obtain ⟨u, v, rfl, -, -, hremoval⟩ := insertCleanup_eq_ok h
    obtain ⟨x, y, rfl, -⟩ := hremoval htemplate
    exact (Text.infix_iff_lines (notMem_removal htemplate)).1 ⟨x, y ++ v, by simp⟩

-- ---------------------------------------------------------------------------
-- Entering a repository
-- ---------------------------------------------------------------------------

/-- A section does not end in something with a character that is neither blank nor in its last line. -/
theorem not_isSectionEnd_of_mem {c : Char} (hl : c ∈ l) (hc : c ∉ "          fi".toList ++ ['\r']) : ¬ IsSectionEnd l := by
  rintro ⟨cr, hcr, rfl⟩
  rcases hcr with rfl | rfl
  · exact hc (List.mem_append_left _ (by simpa using hl))
  · exact hc hl

theorem anchored_insertCheckout (h : Anchored s (lines t)) (hok : insertCheckout s repo t = .ok t') :
    Anchored s (lines t') := by
  obtain ⟨u, v, rfl, rfl, hstep, -⟩ := insertCheckout_eq_ok hok
  rw [checkout_eq, Text.lines_append_cons, Text.lines_append_cons]
  rw [Text.lines_append_cons] at h
  refine h.insert _ fun last empty _ hempty _ hblank => ?_
  obtain ⟨l, ls, hlines, w, rfl⟩ := Text.exists_line_of_prefix (by decide) hstep
  rw [hlines, List.head?_cons, Option.some.injEq] at hempty
  have hdash : '-' ∈ stepStart := by decide
  have := hblank '-' (by rw [← hempty]; exact List.mem_append_left w hdash)
  exact absurd this (by decide)

theorem anchored_insertSync (h : Anchored s (lines t)) (hok : insertSync s repo t = .ok t') : Anchored s (lines t') := by
  obtain ⟨x, y, e, v, ⟨cr, blanks, hcr, hblanks, rfl⟩, rfl, rfl⟩ := insertSync_eq_ok hok
  generalize x ++ Snippet.syncMarker s.templateRepo ++ y = a at h ⊢
  have hold : a ++ (blockEnd ++ cr ++ '\n' :: blanks ++ ['\n']) ++ v
      = a ++ blockEnd ++ cr ++ '\n' :: (blanks ++ '\n' :: v) := by simp
  have hnew : a ++ (blockEnd ++ cr ++ '\n' :: blanks ++ ['\n']) ++ Snippet.sync repo ++ v
      = a ++ blockEnd ++ cr ++ '\n' :: (blanks ++ '\n' :: ('\n' :: syncBody repo ++ '\n' :: v)) := by
    rw [sync_eq]
    simp
  rw [hold, Text.lines_append_cons, Text.lines_append_cons, ← List.append_assoc] at h
  rw [hnew, Text.lines_append_cons, Text.lines_append_cons, Text.lines_append_cons, ← List.append_assoc,
    ← List.append_assoc]
  refine h.insert _ fun last empty hlast _ hend _ => ?_
  -- The place is behind a line with nothing but blanks.
  obtain ⟨cr', hcr', rfl⟩ := hend
  rw [List.getLast?_append, List.getLast?_eq_some_getLast (Text.lines_ne_nil blanks), Option.some_or,
    Option.some.injEq] at hlast
  have hline : "          fi".toList ++ cr' ∈ lines blanks := by
    rw [← hlast]
    exact List.getLast_mem _
  have hf : 'f' ∈ "          fi".toList := by simp
  have := hblanks 'f' (Text.mem_of_mem_splitOn hline (List.mem_append_left cr' hf))
  exact absurd this (by decide)

theorem anchored_insertCleanup (htemplate : '\n' ∉ s.templateRepo) (h : Anchored s (lines t))
    (hok : insertCleanup s repo t = .ok t') : Anchored s (lines t') := by
  obtain ⟨u, v, rfl, rfl, hv, hremoval⟩ := insertCleanup_eq_ok hok
  have hplace : ∀ last, (lines u).getLast? = some last → ¬ IsSectionEnd last := by
    intro last hlast
    obtain ⟨x, y, rfl, hy⟩ := hremoval htemplate
    have hline : '\n' ∉ Snippet.removal s.templateRepo ++ y := fun hmem =>
      (List.mem_append.1 hmem).elim (notMem_removal htemplate) hy
    obtain ⟨w, hw, hx⟩ := Text.exists_lastLine x
    have hend : last = w ++ (Snippet.removal s.templateRepo ++ y) := by
      have hnone : '\n' ∉ w ++ (Snippet.removal s.templateRepo ++ y) := fun hmem =>
        (List.mem_append.1 hmem).elim hw hline
      rcases hx with rfl | ⟨x, rfl⟩
      · rw [List.append_assoc, Text.lines_of_notMem hnone] at hlast
        exact (Option.some.inj hlast).symm
      · rw [List.append_assoc, List.append_assoc, List.cons_append, Text.lines_append_cons, Text.lines_of_notMem hnone,
          List.getLast?_append] at hlast
        exact (Option.some.inj hlast).symm
    have hm : 'm' ∈ "rm -rf _source_".toList := by simp
    refine not_isSectionEnd_of_mem (c := 'm') ?_ (by simp)
    rw [hend]
    exact List.mem_append_right w (List.mem_append_left y (List.mem_append_left _ hm))
  rcases hv with rfl | ⟨w, rfl⟩
  · rw [List.append_nil, Text.lines_append_cons]
    rw [List.append_nil, ← List.append_nil (lines u)] at h
    have hinsert := h.insert (lines (Snippet.cleanup repo)) fun last empty _ hempty => nomatch hempty
    rwa [List.append_nil] at hinsert
  · rw [Text.lines_append_cons, Text.lines_append_cons]
    rw [Text.lines_append_cons] at h
    exact h.insert _ fun last empty hlast _ hend => absurd hend (hplace last hlast)

/-- A repository can be entered into a workflow that has the anchors, and the workflow has them still. -/
theorem exists_spliceWorkflow (htemplate : '\n' ∉ s.templateRepo) (h : Anchored s (lines t)) (repo : Text) :
    ∃ t', spliceWorkflow s repo t = .ok t' ∧ Anchored s (lines t') := by
  obtain ⟨t₁, h₁⟩ := exists_insertCheckout htemplate h repo
  have hanchored₁ := anchored_insertCheckout h h₁
  obtain ⟨t₂, h₂⟩ := exists_insertSync htemplate hanchored₁ repo
  have hanchored₂ := anchored_insertSync hanchored₁ h₂
  obtain ⟨t', h₃⟩ := exists_insertCleanup htemplate hanchored₂ repo
  refine ⟨t', ?_, anchored_insertCleanup htemplate hanchored₂ h₃⟩
  unfold spliceWorkflow
  rw [h₁, ok_bind, h₂, ok_bind, h₃]

end Edit
end MdxSafe
