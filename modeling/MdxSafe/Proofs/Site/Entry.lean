-- SUMMARY: Entries of the sidebars and of the navigation bar: which repositories an entry mentions, and how entries are counted.
import MdxSafe.Proofs.Site.Edit
import MdxSafe.Proofs.Site.RepoName

/-!
# Entries

A repository is taken to be in the sidebars when the name of its sidebar occurs anywhere, and so also in the name of
another sidebar (`Edit.contains_sidebars_iff`). In the navigation bar its identifier is looked for as a whole
(`Edit.isListed_navbar_iff`). Where an entry is made, one key (`Edit.keyCount_sidebars`) or identifier
(`Edit.idCount_navbar`) is added, and the anchors stay.
-/

namespace MdxSafe

namespace Edit

open Text (InsertsLines lines)
open RepoName (IsName isNameChar)

variable {s : SiteSettings} {repo other pat t t' u v w l m : Text}

-- ---------------------------------------------------------------------------
-- Names of sidebars
-- ---------------------------------------------------------------------------

theorem isNameChar_sidebarName (h : IsName repo) : ∀ c ∈ Snippet.sidebarName repo, isNameChar c = true := by
  have hending : ∀ c ∈ "Sidebar".toList, isNameChar c = true := List.all_eq_true.1 (by decide)
  intro c hc
  exact (List.mem_append.1 hc).elim (h.chars c) (hending c)

theorem notMem_sidebarName {c : Char} (h : IsName repo) (hc : isNameChar c = false) : c ∉ Snippet.sidebarName repo :=
  fun hmem => by
    rw [isNameChar_sidebarName h c hmem] at hc
    cases hc

theorem sidebarName_inj (h : Snippet.sidebarName other = Snippet.sidebarName repo) : other = repo :=
  List.append_cancel_right h

/-- Whether a text keeps names apart: it starts and ends with other characters, and the end of the name of a sidebar is
not in it. -/
def keepsApart (w : Text) : Bool :=
  w.head?.any (fun c => !isNameChar c) && w.getLast?.any (fun c => !isNameChar c) && !w.contains "Sidebar".toList

/-- What keeps names apart is not in the name of a sidebar. -/
theorem sidebarName_infix_append (h : IsName repo) (hw : keepsApart w = true)
    (hin : Snippet.sidebarName repo <:+: u ++ w ++ v) : Snippet.sidebarName repo <:+: u ∨ Snippet.sidebarName repo <:+: v := by
  unfold keepsApart at hw
  simp only [Bool.and_eq_true, Bool.not_eq_true'] at hw
  obtain ⟨⟨hfirst, hlast⟩, hending⟩ := hw
  obtain ⟨c, hc, hcname⟩ := (Option.any_eq_true _ _).1 hfirst
  obtain ⟨d, hd, hdname⟩ := (Option.any_eq_true _ _).1 hlast
  simp only [Bool.not_eq_true'] at hcname hdname
  obtain ⟨w', rfl⟩ := List.head?_eq_some_iff.1 hc
  rw [List.append_assoc, List.cons_append] at hin
  rcases Text.infix_of_infix_append_cons (notMem_sidebarName h hcname) hin with hin | hin
  · exact .inl hin
  right
  rcases List.eq_nil_or_concat' w' with rfl | ⟨x, b, rfl⟩
  · exact hin
  · rw [← List.cons_append, List.getLast?_concat, Option.some.injEq] at hd
    subst hd
    rw [List.append_assoc, List.singleton_append] at hin
    refine (Text.infix_of_infix_append_cons (notMem_sidebarName h hdname) hin).resolve_left fun hmid => ?_
    have hwhole : "Sidebar".toList <:+: c :: (x ++ [b]) :=
      ((List.suffix_append repo _).isInfix.trans hmid).trans ⟨[c], [b], rfl⟩
    rw [Text.contains_of_infix hwhole] at hending
    cases hending

-- ---------------------------------------------------------------------------
-- Sidebars
-- ---------------------------------------------------------------------------

/-- Whether sidebars are closed before they are exported. -/
def hasClosing (t : Text) : Bool :=
  match Text.find? sidebarsExport t with
  | none => false
  | some stop => (Text.findLast? closing stop t).isSome

/-- Sidebars that are closed before they are exported. -/
def IsClosed (t : Text) : Prop := ∃ u v, t = u ++ closing ++ v ∧ ¬ sidebarsExport <:+: u ∧ sidebarsExport <:+: v

theorem isClosed_of_hasClosing (h : hasClosing t = true) : IsClosed t := by
  unfold hasClosing at h
  split at h
  · cases h
  · next stop hstop =>
    obtain ⟨i, hi⟩ := Option.isSome_iff_exists.1 h
    obtain ⟨x, y, rfl, rfl, hfirst⟩ := Text.find?_eq_some hstop (by decide)
    obtain ⟨u, between, htake, -⟩ := Text.findLast?_eq_some hi (by decide)
    rw [List.append_assoc, List.take_left] at htake
    subst htake
    refine ⟨u, between ++ sidebarsExport ++ y, by simp, fun hin => hfirst (hin.trans ⟨[], closing ++ between, ?_⟩),
      ⟨between, y, rfl⟩⟩
    rw [List.nil_append, List.append_assoc]

theorem closing_eq : closing = '\x7d' :: [';'] := by decide

/-- Closed sidebars take an entry, unless the name of the sidebar occurs in them. -/
theorem exists_sidebars (h : IsClosed t) (habsent : ¬ Snippet.sidebarName repo <:+: t) :
    ∃ t' m, sidebars s repo t = .applied t' m := by
  obtain ⟨u, v, rfl, hu, hv⟩ := h
  unfold sidebars
  dsimp only
  rw [if_neg fun hin => habsent (Text.contains_iff.1 hin)]
  cases hfind : Text.find? sidebarsExport (u ++ closing ++ v) with
  | none => exact absurd (hv.trans (List.suffix_append _ v).isInfix) (Text.find?_eq_none_iff.1 hfind)
  | some stop =>
    dsimp only
    obtain ⟨x, y, hsplit, rfl, -⟩ := Text.find?_eq_some hfind (by decide)
    cases hlast : Text.findLast? "\x7d;" x.length (u ++ closing ++ v) with
    | some i => exact ⟨_, _, rfl⟩
    | none =>
      -- The export starts behind the brace, since it holds none and does not start with what follows it.
      refine absurd ?_ (Text.findLast?_eq_none_iff.1 hlast)
      have htake : (u ++ closing ++ v).take x.length = x := by
        rw [hsplit, List.append_assoc, List.take_left]
      rw [htake]
      have hbrace : '\x7d' ∉ sidebarsExport := by decide
      rw [closing_eq, List.append_assoc, List.append_assoc] at hsplit
      rcases Text.append_cons_eq_append_iff.1 hsplit with ⟨z, rfl, hz⟩ | ⟨z, rfl, hz⟩
      · cases z with
        | nil =>
          have hhead : sidebarsExport.head? = some 'e' := by decide
          have := congrArg List.head? hz
          rw [List.nil_append, List.head?_append, hhead] at this
          cases this
        | cons c z =>
          obtain ⟨rfl, -⟩ := List.cons.inj hz
          exact ⟨u, z, by rw [show ("\x7d;" : Text) = '\x7d' :: [';'] from closing_eq]; simp⟩
      · obtain ⟨z', rfl, -⟩ := Text.exists_of_append_cons_eq_append hz.symm hbrace
        exact absurd ⟨x, z', by simp⟩ hu

theorem sidebarName_infix_key (h : IsName repo) (hw : keepsApart w = true)
    (hin : Snippet.sidebarName repo <:+: u ++ w ++ Snippet.sidebarKey other) :
    Snippet.sidebarName repo <:+: u ∨ Snippet.sidebarName repo <:+: Snippet.sidebarName other := by
  unfold Snippet.sidebarKey at hin
  dsimp only at hin
  split at hin
  · exact sidebarName_infix_append h hw hin
  · have hquote := notMem_sidebarName h (c := '\'') (by decide)
    rcases Text.infix_of_infix_append_cons hquote hin with hin | hin
    · rw [← List.append_nil (u ++ w)] at hin
      exact (sidebarName_infix_append h hw hin).imp_right fun hnil => hnil.trans List.nil_infix
    · exact .inr ((Text.infix_of_infix_append_cons hquote hin).elim id fun hnil => hnil.trans List.nil_infix)

/-- The entry of the sidebars mentions the name of its own sidebar, and what occurs in that. -/
theorem sidebarName_infix_entry (h : IsName repo)
    (hin : Snippet.sidebarName repo <:+: u ++ (Snippet.sidebar other ++ ['\n']) ++ w) :
    Snippet.sidebarName repo <:+: u ∨ Snippet.sidebarName repo <:+: w
      ∨ Snippet.sidebarName repo <:+: Snippet.sidebarName other := by
  have hend : "',\n    \x7d,\n  ],".toList ++ ['\n'] = "',\n    \x7d,\n  ],\n".toList := by simp
  have hown : other <:+: Snippet.sidebarName other := (List.prefix_append _ _).isInfix
  unfold Snippet.sidebar at hin
  rw [List.append_assoc (_ ++ other), hend] at hin
  simp only [← List.append_assoc] at hin
  -- The entry is taken apart from its end: what stands between the names keeps them apart.
  rcases sidebarName_infix_append h (by decide) hin with hin | hin
  swap
  · exact .inr (.inl hin)
  rcases sidebarName_infix_append h (by decide) hin with hin | hin
  swap
  · exact .inr (.inr (hin.trans hown))
  rcases sidebarName_infix_key h (by decide) hin with hin | hin
  swap
  · exact .inr (.inr hin)
  rcases sidebarName_infix_append h (by decide) hin with hin | hin
  · exact .inl hin
  · exact .inr (.inr (hin.trans hown))

/-- After an entry was made, the name of a sidebar occurs where it did before, or in the name of the new one. -/
theorem sidebarName_infix_sidebars_iff (h : IsName repo) (hok : sidebars s other t = .applied t' m) :
    Snippet.sidebarName repo <:+: t' ↔
      Snippet.sidebarName repo <:+: t ∨ Snippet.sidebarName repo <:+: Snippet.sidebarName other := by
  obtain ⟨-, u, v, rfl, rfl, -, -⟩ := sidebars_eq_applied hok
  have hbrace := notMem_sidebarName h (c := '\x7d') (by decide)
  have hcut : ∀ {x : Text}, Snippet.sidebarName repo <:+: x ++ closing ++ v →
      Snippet.sidebarName repo <:+: x ∨ Snippet.sidebarName repo <:+: ';' :: v := by
    intro x hin
    rw [closing_eq, List.append_assoc] at hin
    exact Text.infix_of_infix_append_cons hbrace hin
  have hrest : ';' :: v <:+: u ++ closing ++ v := ⟨u ++ ['\x7d'], [], by rw [closing_eq]; simp⟩
  constructor
  · intro hin
    rw [← List.append_assoc] at hin
    rcases hcut hin with hin | hin
    · rw [← List.append_nil (u ++ _)] at hin
      rcases sidebarName_infix_entry h hin with hin | hin | hin
      · exact .inl (hin.trans ⟨[], closing ++ v, by simp⟩)
      · exact .inr (hin.trans List.nil_infix)
      · exact .inr hin
    · exact .inl (hin.trans hrest)
  · rintro (hin | hin)
    · rcases hcut hin with hin | hin
      · exact hin.trans ⟨[], Snippet.sidebar other ++ ['\n'] ++ (closing ++ v), by simp⟩
      · exact hin.trans ⟨u ++ (Snippet.sidebar other ++ ['\n']) ++ ['\x7d'], [], by rw [closing_eq]; simp⟩
    · exact (hin.trans (sidebarName_infix_sidebar other)).trans ⟨u, ['\n'] ++ (closing ++ v), by simp⟩

theorem sidebarsExport_eq : sidebarsExport = "export default sidebars".toList ++ [';'] := by decide

/-- What holds no semicolon does not end the export. -/
theorem sidebarsExport_infix_append (hw : ';' ∉ w) (h : sidebarsExport <:+: u ++ w) : sidebarsExport <:+: u := by
  obtain ⟨x, y, heq⟩ := h
  rw [sidebarsExport_eq] at heq
  have hsplit : (x ++ "export default sidebars".toList) ++ ';' :: y = u ++ w := by
    rw [← heq]
    simp
  rcases Text.append_cons_eq_append_iff.1 hsplit with ⟨z, rfl, -⟩ | ⟨z, -, rfl⟩
  · rw [sidebarsExport_eq]
    exact ⟨x, z, by simp⟩
  · exact absurd (List.mem_append_right z List.mem_cons_self) hw

theorem notMem_sidebarKey {c : Char} (h : IsName repo) (hc : isNameChar c = false) (hquote : c ≠ '\'') :
    c ∉ Snippet.sidebarKey repo := by
  unfold Snippet.sidebarKey
  dsimp only
  split
  · exact notMem_sidebarName h hc
  · simp [hquote, notMem_sidebarName h hc]

/-- Sidebars that were closed are closed still when an entry was made. -/
theorem isClosed_sidebars (h : IsName other) (hok : sidebars s other t = .applied t' m) : IsClosed t' := by
  obtain ⟨-, u, v, rfl, rfl, hu, hv⟩ := sidebars_eq_applied hok
  refine ⟨u ++ (Snippet.sidebar other ++ ['\n']), v, by simp, fun hin => hu (sidebarsExport_infix_append ?_ hin), hv⟩
  have hname : ';' ∉ other := h.notMem (by decide)
  have hkey : ';' ∉ Snippet.sidebarKey other := notMem_sidebarKey h (by decide) (by decide)
  unfold Snippet.sidebar
  simp [hname, hkey]

-- ---------------------------------------------------------------------------
-- Keys
-- ---------------------------------------------------------------------------

/-- The key of an entry that starts in a line: what stands before the first colon. -/
def entryKey (l : Text) : Text := (l.dropWhile isBlank).takeWhile (· ≠ ':')

/-- Whether a line starts the entry of a repository. -/
def startsEntry (repo l : Text) : Bool := ':' ∈ l ∧ entryKey l = Snippet.sidebarKey repo

/-- How many lines start an entry of a repository. -/
def keyCount (repo t : Text) : Nat := (lines t).countP (startsEntry repo)

theorem keyCount_append_cons (repo u v : Text) : keyCount repo (u ++ '\n' :: v) = keyCount repo u + keyCount repo v := by
  unfold keyCount
  rw [Text.lines_append_cons, List.countP_append]

theorem keyCount_line (repo : Text) (hl : '\n' ∉ l) : keyCount repo l = if startsEntry repo l then 1 else 0 := by
  unfold keyCount
  rw [Text.lines_of_notMem hl, List.countP_singleton]

theorem mem_dropWhile_isBlank {c : Char} (hc : isBlank c = false) : c ∈ l.dropWhile isBlank ↔ c ∈ l := by
  refine ⟨fun h => (List.dropWhile_sublist _).subset h, fun h => ?_⟩
  rw [← List.takeWhile_append_dropWhile (p := isBlank) (l := l), List.mem_append] at h
  refine h.resolve_left fun hblank => ?_
  have := List.mem_takeWhile_imp hblank
  rw [hc] at this
  cases this

/-- A line with a colon has the key that stands before it. -/
theorem entryKey_append_of_mem (h : ':' ∈ l) (w : Text) : entryKey (l ++ w) = entryKey l := by
  have hmem : ':' ∈ l.dropWhile isBlank := (mem_dropWhile_isBlank (by decide)).2 h
  unfold entryKey
  rw [List.dropWhile_append, if_neg (by simpa using List.ne_nil_of_mem hmem), List.takeWhile_append, if_neg]
  intro hlength
  have hall := List.takeWhile_eq_self_iff.1 ((List.takeWhile_prefix _).eq_of_length hlength) ':' hmem
  exact absurd hall (by decide)

/-- A line without a colon has what follows in its key, up to a colon there. -/
theorem mem_entryKey_append {c : Char} (hl : ':' ∉ l) (hu : ':' ∉ u) (hc : isBlank c = false) (hcolon : c ≠ ':') (w : Text) :
    c ∈ entryKey (l ++ (u ++ c :: w)) := by
  have hnone : ':' ∉ l ++ u := fun h => (List.mem_append.1 h).elim hl hu
  have hdrop : ((l ++ u) ++ c :: w).dropWhile isBlank = (l ++ u).dropWhile isBlank ++ c :: w := by
    rw [List.dropWhile_append]
    split
    · next hnil =>
      rw [List.isEmpty_iff.1 hnil, List.nil_append, List.dropWhile_cons_of_neg (by simp [hc])]
    · rfl
  unfold entryKey
  rw [← List.append_assoc, hdrop, List.takeWhile_append_of_pos, List.takeWhile_cons_of_pos (by simpa using hcolon)]
  · exact List.mem_append_right _ List.mem_cons_self
  · intro d hd
    rw [decide_eq_true_eq]
    rintro rfl
    exact hnone ((mem_dropWhile_isBlank (by decide)).1 hd)

/-- What follows a line, and holds something that is in no key, before a colon, does not matter for the key. -/
theorem startsEntry_append {c : Char} (hrepo : IsName repo) (hname : isNameChar c = false) (hquote : c ≠ '\'')
    (hc : isBlank c = false) (hcolon : c ≠ ':') (hu : ':' ∉ u) (l w : Text) :
    startsEntry repo (l ++ (u ++ c :: w)) = startsEntry repo l := by
  by_cases hl : ':' ∈ l
  · simp only [startsEntry, entryKey_append_of_mem hl, List.mem_append, hl, true_or]
  · have hkey : entryKey (l ++ (u ++ c :: w)) ≠ Snippet.sidebarKey repo := fun heq => by
      refine notMem_sidebarKey hrepo hname hquote ?_
      rw [← heq]
      exact mem_entryKey_append hl hu hc hcolon w
    simp only [startsEntry, hkey, hl, and_false, false_and]

/-- Nor does it start an entry itself. -/
theorem keyCount_append {c : Char} (hrepo : IsName repo) (hname : isNameChar c = false) (hquote : c ≠ '\'')
    (hc : isBlank c = false) (hcolon : c ≠ ':') (hv : ':' ∉ v) (hline : '\n' ∉ v) (u w : Text) :
    keyCount repo (u ++ (v ++ c :: w)) = keyCount repo u + keyCount repo (v ++ c :: w) := by
  have hsame := startsEntry_append hrepo hname hquote hc hcolon hv
  have hlines : ∀ l x : Text, '\n' ∉ l → '\n' ∉ x →
      keyCount repo (l ++ (v ++ c :: x)) = keyCount repo l + keyCount repo (v ++ c :: x) := by
    intro l x hl hx
    have hne : '\n' ≠ c := by
      rintro rfl
      exact absurd hc (by decide)
    have hlast : '\n' ∉ v ++ c :: x := by simp [hline, hne, hx]
    have hwhole : '\n' ∉ l ++ (v ++ c :: x) := fun hmem => (List.mem_append.1 hmem).elim hl hlast
    have hnil : startsEntry repo (v ++ c :: x) = false := (hsame [] x).trans rfl
    rw [keyCount_line repo hwhole, keyCount_line repo hl, keyCount_line repo hlast, hsame l x, hnil]
    simp
  have hfirst : ∀ l : Text, '\n' ∉ l → keyCount repo (l ++ (v ++ c :: w)) = keyCount repo l + keyCount repo (v ++ c :: w) := by
    intro l hl
    by_cases hw : '\n' ∈ w
    · obtain ⟨x, y, rfl, hx⟩ := List.eq_append_cons_of_mem hw
      have hsplit : v ++ c :: (x ++ '\n' :: y) = (v ++ c :: x) ++ '\n' :: y := by simp
      rw [hsplit, ← List.append_assoc, keyCount_append_cons, keyCount_append_cons, hlines l x hl hx, Nat.add_assoc]
    · exact hlines l w hl hw
  obtain ⟨l, hl, rfl | ⟨u, rfl⟩⟩ := Text.exists_lastLine u
  · exact hfirst u hl
  · have hsplit : u ++ '\n' :: l ++ (v ++ c :: w) = u ++ '\n' :: (l ++ (v ++ c :: w)) := by simp
    rw [hsplit, keyCount_append_cons, keyCount_append_cons, hfirst l hl, Nat.add_assoc]

theorem sidebarKey_ne_nil (repo : Text) : Snippet.sidebarKey repo ≠ [] := fun h => by
  have hin := sidebarName_infix_sidebarKey repo
  rw [h, List.infix_nil] at hin
  have hending : "Sidebar".toList ≠ [] := by simp
  exact hending (List.append_eq_nil_iff.1 hin).2

theorem blank_sidebarKey {c : Char} (h : IsName repo) (hc : c ∈ Snippet.sidebarKey repo) : isBlank c = false ∧ c ≠ ':' := by
  have hquote : isBlank '\'' = false ∧ '\'' ≠ ':' := by decide
  by_cases hname : isNameChar c = true
  · refine ⟨RepoName.isBlank_of_isNameChar hname, ?_⟩
    rintro rfl
    exact absurd hname (by decide)
  · by_cases hc' : c = '\''
    · rwa [hc']
    · exact absurd hc (notMem_sidebarKey h (Bool.eq_false_iff.2 hname) hc')

theorem sidebarKey_inj (hrepo : IsName repo) (hother : IsName other)
    (h : Snippet.sidebarKey other = Snippet.sidebarKey repo) : other = repo := by
  have hquote : ∀ {r : Text}, IsName r → '\'' ∉ Snippet.sidebarName r := fun hr => notMem_sidebarName hr (by decide)
  unfold Snippet.sidebarKey at h
  dsimp only at h
  split at h
  · split at h
    · exact sidebarName_inj h
    · exact absurd (by rw [h]; exact List.mem_cons_self) (hquote hother)
  · split at h
    · exact absurd (by rw [← h]; exact List.mem_cons_self) (hquote hrepo)
    · exact sidebarName_inj (List.append_cancel_right (List.cons.inj h).2)

theorem sidebarKey_ne_literal {t : Text} (h : 'S' ∉ t) (repo : Text) : t ≠ Snippet.sidebarKey repo := by
  rintro rfl
  refine h ((sidebarName_infix_sidebarKey repo).subset (List.mem_append_right repo ?_))
  decide +kernel

/-- The lines of an entry behind the first one. -/
def entryLines (repo : Text) : List Text :=
  ["  ".toList ++ Snippet.sidebarKey repo ++ ": [".toList, "    \x7b", "      type: 'autogenerated',",
    "      dirName: '".toList ++ repo ++ "',".toList, "    \x7d,", "  ],"]

theorem sidebar_eq (repo : Text) :
    Snippet.sidebar repo
      = "  // ".toList ++ repo ++ " sidebar".toList ++ '\n' :: Text.join ['\n'] (entryLines repo) := by
  have hfirst : " sidebar\n  ".toList = " sidebar".toList ++ '\n' :: "  ".toList := by simp
  have hmiddle : ": [\n    \x7b\n      type: 'autogenerated',\n      dirName: '".toList
      = ": [".toList ++ '\n' :: ("    \x7b".toList ++ '\n' :: ("      type: 'autogenerated',".toList
        ++ '\n' :: "      dirName: '".toList)) := by simp
  have hend : "',\n    \x7d,\n  ],".toList = "',".toList ++ '\n' :: ("    \x7d,".toList ++ '\n' :: "  ],".toList) := by
    decide +kernel
  unfold Snippet.sidebar entryLines
  rw [hfirst, hmiddle, hend]
  simp only [Text.join_cons_cons, Text.join_singleton, List.append_assoc, List.cons_append, List.nil_append]

theorem entryKey_of_key {k : Text} (hk : k ≠ []) (hchars : ∀ c ∈ k, isBlank c = false ∧ c ≠ ':') (w : Text) :
    entryKey ("  ".toList ++ k ++ ':' :: w) = k := by
  have hblanks : ∀ c ∈ "  ".toList, isBlank c = true := List.all_eq_true.1 (by decide)
  have hstay : (k ++ ':' :: w).dropWhile isBlank = k ++ ':' :: w := by
    cases k with
    | nil => exact absurd rfl hk
    | cons c k => exact List.dropWhile_cons_of_neg (by simpa using (hchars c List.mem_cons_self).1)
  unfold entryKey
  rw [List.append_assoc, List.dropWhile_append_of_pos hblanks, hstay,
    List.takeWhile_append_of_pos (fun c hc => by simpa using (hchars c hc).2)]
  simp

theorem keyCount_entryLines (hrepo : IsName repo) (hother : IsName other) :
    keyCount repo (Text.join ['\n'] (entryLines other)) = if other = repo then 1 else 0 := by
  have hline : '\n' ∉ other := hother.notMem (by decide)
  have hkeyline : '\n' ∉ Snippet.sidebarKey other := notMem_sidebarKey hother (by decide) (by decide)
  have hmem : ∀ l ∈ entryLines other, '\n' ∉ l := by
    unfold entryLines
    simp [hline, hkeyline]
  have hkey : entryKey ("  ".toList ++ Snippet.sidebarKey other ++ ": [".toList) = Snippet.sidebarKey other := by
    have hcolon : ": [".toList = ':' :: " [".toList := by simp
    rw [hcolon]
    exact entryKey_of_key (sidebarKey_ne_nil other) (fun c hc => blank_sidebarKey hother hc) _
  have hrest : (entryLines other).tail.countP (startsEntry repo) = 0 := by
    have htype : entryKey "      type: 'autogenerated'," = "type" := by decide
    have hdir : entryKey ("      dirName: '".toList ++ other ++ "',".toList) = "dirName" := by
      rw [List.append_assoc, entryKey_append_of_mem (by simp)]
      decide +kernel
    have hnone : ∀ l : Text, (':' ∉ l ∨ 'S' ∉ entryKey l) → ¬ startsEntry repo l := fun l hl hstarts =>
      hl.elim (fun hcolon => hcolon (of_decide_eq_true hstarts).1) fun hkey =>
        sidebarKey_ne_literal hkey repo (of_decide_eq_true hstarts).2
    rw [List.countP_eq_zero]
    unfold entryLines
    simp only [List.tail_cons, List.forall_mem_cons]
    exact ⟨hnone _ (.inl (by simp)), hnone _ (.inr (by rw [htype]; decide +kernel)),
      hnone _ (.inr (by rw [hdir]; decide +kernel)), hnone _ (.inl (by simp)), hnone _ (.inl (by simp)),
      nofun⟩
  have hcons : entryLines other
      = ("  ".toList ++ Snippet.sidebarKey other ++ ": [".toList) :: (entryLines other).tail := rfl
  have hmemcolon : ':' ∈ "  ".toList ++ Snippet.sidebarKey other ++ ": [".toList :=
    List.mem_append_right _ (by simp)
  unfold keyCount lines
  rw [Text.splitOn_join hmem (List.cons_ne_nil _ _), hcons, List.countP_cons, hrest, Nat.zero_add]
  simp only [startsEntry, hmemcolon, hkey, true_and, decide_eq_true_eq]
  exact if_congr ⟨sidebarKey_inj hrepo hother, fun h => h ▸ rfl⟩ rfl rfl

theorem keyCount_comment (repo : Text) (hother : IsName other) :
    keyCount repo ("  // ".toList ++ other ++ " sidebar".toList) = 0 := by
  have hcolon : ':' ∉ "  // ".toList ++ other ++ " sidebar".toList := by
    simp [hother.notMem (c := ':') (by decide)]
  have hline : '\n' ∉ "  // ".toList ++ other ++ " sidebar".toList := by
    simp [hother.notMem (c := '\n') (by decide)]
  rw [keyCount_line repo hline, startsEntry, decide_eq_false fun h => hcolon h.1]
  rfl

/-- With an entry the sidebars have one more key, which is that of the repository. -/
theorem keyCount_sidebars (hrepo : IsName repo) (hother : IsName other) (hok : sidebars s other t = .applied t' m) :
    keyCount repo t' = keyCount repo t + if other = repo then 1 else 0 := by
  obtain ⟨-, u, v, rfl, rfl, -⟩ := sidebars_eq_applied hok
  have hbrace : ∀ w : Text, keyCount repo (w ++ (closing ++ v)) = keyCount repo w + keyCount repo (closing ++ v) := by
    rw [closing_eq]
    exact fun w => keyCount_append hrepo (by decide) (by decide) (by decide) (by decide) List.not_mem_nil List.not_mem_nil
      w (';' :: v)
  have hslash : ∀ w : Text, keyCount repo (u ++ ("  // ".toList ++ w)) = keyCount repo u + keyCount repo ("  // ".toList ++ w) := by
    have hlead : "  // ".toList = "  ".toList ++ '/' :: "/ ".toList := by simp
    rw [hlead]
    intro w
    rw [List.append_assoc, List.cons_append]
    exact keyCount_append hrepo (by decide) (by decide) (by decide) (by decide) (by simp) (by simp) u _
  have hsplit : u ++ (Snippet.sidebar other ++ ['\n'])
      = u ++ ("  // ".toList ++ (other ++ " sidebar".toList ++ '\n' :: (Text.join ['\n'] (entryLines other) ++ ['\n']))) := by
    rw [sidebar_eq]
    simp
  have hnil : keyCount repo [] = 0 := rfl
  rw [hbrace, List.append_assoc u, hbrace, hsplit, hslash, ← List.append_assoc, ← List.append_assoc, keyCount_append_cons,
    keyCount_append_cons, keyCount_comment repo hother, keyCount_entryLines hrepo hother, hnil]
  omega

/-- Where the name of a sidebar does not occur, no line starts the entry. -/
theorem keyCount_eq_zero (h : ¬ Snippet.sidebarName repo <:+: t) : keyCount repo t = 0 := by
  unfold keyCount
  refine List.countP_eq_zero.2 fun l hl hstarts => h ?_
  obtain ⟨-, hkey⟩ := of_decide_eq_true hstarts
  obtain ⟨u, v, rfl, -, -⟩ := Text.exists_of_mem_lines hl
  have hin : Snippet.sidebarKey repo <:+: l := by
    rw [← hkey]
    exact (List.takeWhile_prefix _).isInfix.trans (List.dropWhile_suffix _).isInfix
  exact ((sidebarName_infix_sidebarKey repo).trans hin).trans ⟨u, v, rfl⟩

-- ---------------------------------------------------------------------------
-- Navigation bar
-- ---------------------------------------------------------------------------

/-- What an item of the navigation bar tells of its sidebar, in quotes of one or the other kind. -/
def idText (quote : Char) (repo : Text) : Text :=
  "sidebarId".toList ++ ':' :: ' ' :: quote :: (Snippet.sidebarName repo ++ [quote])

/-- Whether a text tells of the sidebar of a repository. -/
def mentionsId (repo t : Text) : Bool := t.contains (idText '\'' repo) || t.contains (idText '"' repo)

/-- How many lines tell of the sidebar of a repository. -/
def idCount (repo t : Text) : Nat := (lines t).countP (mentionsId repo)

theorem mentionsId_iff : mentionsId repo t = true ↔ ∃ quote, (quote = '\'' ∨ quote = '"') ∧ idText quote repo <:+: t := by
  unfold mentionsId
  rw [Bool.or_eq_true, Text.contains_iff, Text.contains_iff]
  constructor
  · rintro (h | h)
    · exact ⟨'\'', .inl rfl, h⟩
    · exact ⟨'"', .inr rfl, h⟩
  · rintro ⟨quote, rfl | rfl, h⟩
    · exact .inl h
    · exact .inr h

theorem notMem_idText {quote : Char} (h : IsName repo) (hquote : quote = '\'' ∨ quote = '"') : '\n' ∉ idText quote repo := by
  have hname : '\n' ∉ Snippet.sidebarName repo := notMem_sidebarName h (by decide)
  unfold idText
  rcases hquote with rfl | rfl
  · simp [hname]
  · simp [hname]

theorem mentionsId_iff_idCount (h : IsName repo) : mentionsId repo t = true ↔ 0 < idCount repo t := by
  unfold idCount
  rw [List.countP_pos_iff]
  simp only [mentionsId_iff]
  constructor
  · rintro ⟨quote, hquote, hin⟩
    obtain ⟨l, hl, hin⟩ := (Text.infix_iff_lines (notMem_idText h hquote)).1 hin
    exact ⟨l, hl, quote, hquote, hin⟩
  · rintro ⟨l, hl, quote, hquote, hin⟩
    exact ⟨quote, hquote, (Text.infix_iff_lines (notMem_idText h hquote)).2 ⟨l, hl, hin⟩⟩

theorem contains_eq_mentionsId (repo t : Text) :
    (t.contains ("sidebarId: '".toList ++ Snippet.sidebarName repo ++ ['\''])
      || t.contains ("sidebarId: \"".toList ++ Snippet.sidebarName repo ++ ['"'])) = mentionsId repo t := by
  have hsingle : "sidebarId: '".toList = "sidebarId".toList ++ [':', ' ', '\''] := by simp
  have hdouble : "sidebarId: \"".toList = "sidebarId".toList ++ [':', ' ', '"'] := by simp
  unfold mentionsId idText
  rw [hsingle, hdouble]
  simp only [List.append_assoc, List.cons_append, List.nil_append]

theorem repositoryItem?_ne_none {lineStart : Bool} (hv : startsRepositoryItem v = true)
    (hu : u = [] ∧ lineStart = true ∨ ∃ w, u = w ++ ['\n']) : repositoryItem? lineStart (u ++ v) ≠ none := by
  induction u generalizing lineStart with
  | nil =>
    obtain ⟨-, rfl⟩ := hu.resolve_right (by simp)
    cases v with
    | nil => cases hv
    | cons c v =>
      rw [List.nil_append, repositoryItem?, if_pos (by rw [hv]; rfl)]
      simp
  | cons c u ih =>
    obtain ⟨w, hw⟩ := hu.resolve_left fun h => by cases h.1
    rw [List.cons_append, repositoryItem?]
    split
    · simp
    · rw [ne_eq, Option.map_eq_none_iff]
      refine ih ?_
      cases w with
      | nil =>
        obtain ⟨rfl, rfl⟩ := List.cons.inj hw
        exact .inl ⟨rfl, rfl⟩
      | cons d w => exact .inr ⟨w, (List.cons.inj hw).2⟩

/-- A navigation bar with an item that leads to the pages of repositories takes an entry, unless it tells of the sidebar. -/
theorem exists_navbar (h : repositoryItem? true t ≠ none) (habsent : mentionsId repo t = false) :
    ∃ t' m, navbar s repo t = .applied t' m := by
  obtain ⟨i, hi⟩ := Option.ne_none_iff_exists'.1 h
  unfold navbar
  dsimp only
  rw [contains_eq_mentionsId, habsent, hi]
  exact ⟨_, _, rfl⟩

/-- The lines of an item of the navigation bar. -/
def itemLines (repo : Text) : List Text :=
  ["        \x7b", "          type".toList ++ ':' :: " 'docSidebar',".toList,
    "          sidebarId".toList ++ ':' :: (" '".toList ++ Snippet.sidebarName repo ++ "',".toList),
    "          position".toList ++ ':' :: " 'left',".toList,
    "          label".toList ++ ':' :: (" '".toList ++ RepoName.title repo ++ "',".toList), "        \x7d,"]

theorem navbarSnippet_eq (repo : Text) : Snippet.navbar repo = Text.join ['\n'] (itemLines repo) ++ ['\n'] := by
  have hfirst : "        \x7b\n          type: 'docSidebar',\n          sidebarId: '".toList
      = "        \x7b".toList ++ '\n' :: ("          type".toList ++ ':' :: (" 'docSidebar',".toList
        ++ '\n' :: ("          sidebarId".toList ++ ':' :: " '".toList))) := by simp
  have hmiddle : "',\n          position: 'left',\n          label: '".toList
      = "',".toList ++ '\n' :: ("          position".toList ++ ':' :: (" 'left',".toList
        ++ '\n' :: ("          label".toList ++ ':' :: " '".toList))) := by simp
  have hend : "',\n        \x7d,\n".toList = "',".toList ++ '\n' :: ("        \x7d,".toList ++ ['\n']) := by simp
  unfold Snippet.navbar itemLines
  rw [hfirst, hmiddle, hend]
  simp only [Text.join_cons_cons, Text.join_singleton, List.append_assoc, List.cons_append, List.nil_append]

theorem insertsLines_navbar (h : navbar s repo t = .applied t' m) :
    InsertsLines (lines (Text.join ['\n'] (itemLines repo))) t t' := by
  obtain ⟨u, v, rfl, rfl, -, hu⟩ := navbar_eq_applied h
  rw [navbarSnippet_eq]
  rcases hu with rfl | ⟨w, rfl⟩
  · simpa using Text.insertsLines_start v (Text.join ['\n'] (itemLines repo))
  · simpa using Text.insertsLines_between w v (Text.join ['\n'] (itemLines repo))

/-- A navigation bar with an entry still has the item that leads to the pages of repositories. -/
theorem repositoryItem?_navbar (h : navbar s repo t = .applied t' m) : repositoryItem? true t' ≠ none := by
  obtain ⟨u, v, rfl, rfl, hitem, -⟩ := navbar_eq_applied h
  refine repositoryItem?_ne_none hitem (.inr ⟨u ++ Text.join ['\n'] (itemLines repo), ?_⟩)
  rw [navbarSnippet_eq, List.append_assoc]

/-- In a line with one colon a sidebar can be told of around the colon only. -/
theorem idText_infix_append_colon {quote : Char} {a b : Text} (ha : ':' ∉ a) (hb : ':' ∉ b)
    (h : idText quote repo <:+: a ++ ':' :: b) :
    "sidebarId".toList <:+ a ∧ ' ' :: quote :: (Snippet.sidebarName repo ++ [quote]) <+: b := by
  obtain ⟨x, y, heq⟩ := h
  unfold idText at heq
  have hsplit : (x ++ "sidebarId".toList) ++ ':' :: (' ' :: quote :: (Snippet.sidebarName repo ++ [quote]) ++ y) = a ++ ':' :: b := by
    rw [← heq]
    simp
  obtain ⟨z, hz, hb'⟩ := Text.exists_of_append_cons_eq_append hsplit ha
  cases z with
  | nil =>
    rw [List.append_nil] at hz
    rw [List.nil_append, List.cons.injEq] at hb'
    exact ⟨⟨x, hz⟩, ⟨y, hb'.2.symm⟩⟩
  | cons c z =>
    rw [List.cons_append, List.cons.injEq] at hb'
    refine absurd ?_ hb
    rw [hb'.2]
    exact List.mem_append_right z List.mem_cons_self

theorem mentionsId_itemLine_iff (hrepo : IsName repo) (hother : IsName other) :
    mentionsId repo ("          sidebarId".toList ++ ':' :: (" '".toList ++ Snippet.sidebarName other ++ "',".toList)) = true
      ↔ other = repo := by
  have hquote : ∀ {r : Text}, IsName r → '\'' ∉ Snippet.sidebarName r := fun hr => notMem_sidebarName hr (by decide)
  have hcolon : ':' ∉ " '".toList ++ Snippet.sidebarName other ++ "',".toList := by
    have hname : ':' ∉ Snippet.sidebarName other := notMem_sidebarName hother (by decide)
    simp [hname]
  rw [mentionsId_iff]
  constructor
  · rintro ⟨quote, -, hin⟩
    obtain ⟨-, y, hy⟩ := idText_infix_append_colon (by simp) hcolon hin
    have hlead : " '".toList = [' ', '\''] := by simp
    have hend : "',".toList = ['\'', ','] := by simp
    rw [hlead, hend] at hy
    simp only [List.cons_append, List.nil_append, List.cons.injEq, true_and, List.append_assoc] at hy
    obtain ⟨rfl, hy⟩ := hy
    have hclass : ∀ {r : Text}, IsName r → ∀ c ∈ Snippet.sidebarName r, decide (c = '\'') = false := fun hr c hc =>
      decide_eq_false fun h => hquote hr (h ▸ hc)
    obtain ⟨hname, -⟩ := Text.append_inj_of_class (p := (· = '\'')) (hclass hrepo) (hclass hother) rfl rfl hy
    exact sidebarName_inj hname.symm
  · rintro rfl
    have hlead : "          sidebarId".toList = "          ".toList ++ "sidebarId".toList := by simp
    have hstart : " '".toList = [' ', '\''] := by simp
    have hend : "',".toList = ['\'', ','] := by simp
    exact ⟨'\'', .inl rfl, "          ".toList, [','], by unfold idText; rw [hlead, hstart, hend]; simp⟩

theorem mentionsId_eq_false {a b : Text} (ha : ':' ∉ a) (hb : ':' ∉ b) (h : ¬ "sidebarId".toList <:+ a) :
    mentionsId repo (a ++ ':' :: b) = false := by
  rw [Bool.eq_false_iff, ne_eq, mentionsId_iff]
  exact fun ⟨quote, _, hin⟩ => h (idText_infix_append_colon ha hb hin).1

theorem mentionsId_eq_false_of_notMem (h : ':' ∉ t) : mentionsId repo t = false := by
  rw [Bool.eq_false_iff, ne_eq, mentionsId_iff]
  rintro ⟨quote, -, hin⟩
  exact h (hin.subset (List.mem_append_right _ List.mem_cons_self))

theorem idCount_itemLines (hrepo : IsName repo) (hother : IsName other) :
    idCount repo (Text.join ['\n'] (itemLines other)) = if other = repo then 1 else 0 := by
  have htitle : ∀ c : Char, 0 < c.toNat ∧ c.toNat < 0x41 → c ≠ ' ' → isNameChar c = false → c ∉ RepoName.title other :=
    fun c hc hspace hname hmem => (RepoName.mem_of_mem_title hmem hc).elim hspace (hother.notMem hname)
  have htitleline : '\n' ∉ RepoName.title other := htitle '\n' (by decide) (by decide) (by decide)
  have hname : '\n' ∉ Snippet.sidebarName other := notMem_sidebarName hother (by decide)
  have hcolon : ':' ∉ " '".toList ++ RepoName.title other ++ "',".toList := by
    have hnone : ':' ∉ RepoName.title other := htitle ':' (by decide) (by decide) (by decide)
    simp [hnone]
  have hmem : ∀ l ∈ itemLines other, '\n' ∉ l := by
    unfold itemLines
    simp [htitleline, hname]
  unfold idCount lines
  rw [Text.splitOn_join hmem (List.cons_ne_nil _ _)]
  have hopen : mentionsId repo "        \x7b" = false := mentionsId_eq_false_of_notMem (by simp)
  have htype : mentionsId repo ("          type".toList ++ ':' :: " 'docSidebar',".toList) = false :=
    mentionsId_eq_false (by simp) (by simp) (by decide)
  have hposition : mentionsId repo ("          position".toList ++ ':' :: " 'left',".toList) = false :=
    mentionsId_eq_false (by simp) (by simp) (by decide)
  have hlabel : mentionsId repo ("          label".toList ++ ':' :: (" '".toList ++ RepoName.title other ++ "',".toList)) = false :=
    mentionsId_eq_false (by simp) hcolon (by decide)
  have hclose : mentionsId repo "        \x7d," = false := mentionsId_eq_false_of_notMem (by simp)
  unfold itemLines
  simp only [List.countP_cons, List.countP_nil, hopen, htype, hposition, hlabel, hclose,
    mentionsId_itemLine_iff hrepo hother, Bool.false_eq_true, if_false, Nat.add_zero, Nat.zero_add]

/-- With an entry the navigation bar has one more item that tells of a sidebar, which is that of the repository. -/
theorem idCount_navbar (hrepo : IsName repo) (hother : IsName other) (h : navbar s other t = .applied t' m) :
    idCount repo t' = idCount repo t + if other = repo then 1 else 0 := by
  unfold idCount
  rw [(insertsLines_navbar h).countP_eq, ← idCount_itemLines hrepo hother]
  rfl

end Edit
end MdxSafe
