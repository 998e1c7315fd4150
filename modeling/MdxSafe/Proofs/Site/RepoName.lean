-- SUMMARY: The names of repositories that come out of names and URLs.
import MdxSafe.Proofs.Text.Case
import MdxSafe.Proofs.Text.Lines
import MdxSafe.Proofs.Text.Search
import MdxSafe.Proofs.Text.Trim
import MdxSafe.Site.RepoName

/-!
# Repository names

The name of a repository is made of characters of the text that it is taken from (`RepoName.mem_of_mem_ofText`). In a
text that holds the URL of a page it is the name in the first such URL (`RepoName.ofText_url`); every other text is only
trimmed. Either way it is its own name (`RepoName.ofText_ofText`).
-/

namespace MdxSafe.RepoName

variable {t name front owner rest : Text} {c : Char}

-- ---------------------------------------------------------------------------
-- What is taken from a text
-- ---------------------------------------------------------------------------

/-- A character that ends the name in a URL. -/
def isNameEnd (c : Char) : Bool := c = '/' || isBlank c

theorem isNameEnd_eq_false_iff : isNameEnd c = false ↔ c ≠ '/' ∧ isBlank c = false := by
  rw [isNameEnd, Bool.or_eq_false_iff, decide_eq_false_iff_not]

theorem isNameEnd_eq_true_iff : isNameEnd c = true ↔ c = '/' ∨ isBlank c = true := by
  rw [isNameEnd, Bool.or_eq_true, decide_eq_true_iff]

theorem isNameEnd_eq_false_of_all (h : (t.all fun c => !isNameEnd c) = true) : ∀ c ∈ t, isNameEnd c = false :=
  fun c hc => by simpa using List.all_eq_true.1 h c hc

theorem takeWhile_notNameEnd (t : Text) :
    (t.takeWhile fun c => c ≠ '/' && !isBlank c) = t.takeWhile fun c => !isNameEnd c := by
  congr 1
  funext c
  rw [isNameEnd, Bool.not_or, decide_not]

theorem exists_of_afterHost? (h : afterHost? t = some name) : ∃ owner rest, t = owner ++ '/' :: (name ++ rest)
    ∧ owner ≠ [] ∧ '/' ∉ owner ∧ name ≠ [] ∧ ∀ c ∈ name, isNameEnd c = false := by
  unfold afterHost? at h
  split at h
  · next a owner rest htake hdrop =>
    rw [takeWhile_notNameEnd] at h
    have hslash : '/' ∉ a :: owner := fun hmem => by
      rw [← htake] at hmem
      simpa using List.mem_takeWhile_imp hmem
    have ht : t = a :: owner ++ '/' :: rest := by rw [← htake, ← hdrop, List.takeWhile_append_dropWhile]
    split at h
    · cases h
    · next hname =>
      cases h
      refine ⟨a :: owner, rest.dropWhile fun c => !isNameEnd c, ?_, List.cons_ne_nil a owner, hslash, hname, ?_⟩
      · rw [List.takeWhile_append_dropWhile, ht]
      · exact fun c hc => by simpa using List.mem_takeWhile_imp hc
  · cases h

theorem exists_of_inUrl? (h : inUrl? t = some name) :
    ∃ front rest, t = front ++ (host ++ rest) ∧ afterHost? rest = some name := by
  induction t with
  | nil => cases h
  | cons c t ih =>
    rw [inUrl?] at h
    split at h
    · next hhost =>
      cases h
      obtain ⟨rest, hrest, hname⟩ := Option.bind_eq_some_iff.1 hhost
      refine ⟨[], rest, ?_, hname⟩
      rw [List.nil_append]
      exact Text.after?_eq_some_iff.1 hrest
    · obtain ⟨front, rest, rfl, hname⟩ := ih h
      exact ⟨c :: front, rest, rfl, hname⟩

theorem dropEnding_subset (name : Text) : dropEnding name ⊆ name := by
  rw [dropEnding]
  split
  · exact List.take_subset _ _
  · exact List.Subset.refl name

/-- A name is made of characters of the text that it is taken from. -/
theorem mem_of_mem_ofText (h : c ∈ ofText t) : c ∈ t := by
  unfold ofText at h
  split at h
  · next name hname =>
    obtain ⟨front, after, rfl, hafter⟩ := exists_of_inUrl? hname
    obtain ⟨owner, rest, rfl, -⟩ := exists_of_afterHost? hafter
    have hmem := dropEnding_subset name h
    simp [hmem]
  · exact (Text.trim_sublist isBlank t).subset h

-- ---------------------------------------------------------------------------
-- URLs
-- ---------------------------------------------------------------------------

theorem afterHost?_append (howner : owner ≠ []) (hslash : '/' ∉ owner)
    (hname : (rest.takeWhile fun c => !isNameEnd c) = name) (hne : name ≠ []) :
    afterHost? (owner ++ '/' :: rest) = some name := by
  have hnot : ∀ c ∈ owner, decide (c ≠ '/') = true := fun c hc => decide_eq_true fun heq => hslash (heq ▸ hc)
  obtain ⟨a, owner, rfl⟩ := List.exists_cons_of_ne_nil howner
  obtain ⟨c, name, rfl⟩ := List.exists_cons_of_ne_nil hne
  rw [← takeWhile_notNameEnd] at hname
  rw [afterHost?, List.takeWhile_append_of_pos hnot, List.dropWhile_append_of_pos hnot,
    List.takeWhile_cons_of_neg (by simp), List.dropWhile_cons_of_neg (by simp), List.append_nil]
  simp only [hname]

theorem afterHost?_name (howner : owner ≠ []) (hslash : '/' ∉ owner) (hname : name ≠ [])
    (hchars : ∀ c ∈ name, isNameEnd c = false) (hrest : ∀ c ∈ rest.head?, isNameEnd c = true) :
    afterHost? (owner ++ '/' :: (name ++ rest)) = some name := by
  have hend : rest.takeWhile (fun c => !isNameEnd c) = [] := by
    cases rest with
    | nil => rfl
    | cons c rest => simp [hrest c rfl]
  refine afterHost?_append howner hslash ?_ hname
  rw [List.takeWhile_append_of_pos fun c hc => by rw [hchars c hc]; rfl, hend, List.append_nil]

/-- The host has no slash but its last character. So none starts before a host and ends in it. -/
theorem not_host_prefix_append (hfront : front ≠ []) (h : ¬ host <:+: front) (t : Text) :
    ¬ host <+: front ++ (host ++ t) := by
  rintro ⟨u, hu⟩
  obtain ⟨label, hhost, hlabel⟩ : ∃ label : Text, host = label ++ ['/'] ∧ '/' ∉ label :=
    ⟨"github.com".toList, by decide +kernel, by decide +kernel⟩
  have htext : label ++ '/' :: u = front ++ (label ++ '/' :: t) := by simpa [hhost] using hu
  rcases Text.append_cons_eq_append_iff.1 htext with ⟨v, rfl, -⟩ | ⟨v, hv, hrest⟩
  · refine h ⟨[], v, ?_⟩
    rw [hhost]
    simp
  · obtain ⟨w, rfl, -⟩ := Text.exists_of_append_cons_eq_append hrest.symm hlabel
    have hlength := congrArg List.length hv
    rw [List.length_append, List.length_append] at hlength
    exact hfront (List.length_eq_zero_iff.1 (by omega))

/-- What stands before the first host is passed over. -/
theorem inUrl?_append (h : ¬ host <:+: front) (t : Text) : inUrl? (front ++ (host ++ t)) = inUrl? (host ++ t) := by
  induction front with
  | nil => rfl
  | cons c front ih =>
    have hnone : Text.after? host (c :: (front ++ (host ++ t))) = none :=
      Text.after?_eq_none_iff.2 (not_host_prefix_append (List.cons_ne_nil c front) h t)
    rw [List.cons_append, inUrl?, hnone]
    exact ih fun hin => h (List.infix_cons hin)

theorem inUrl?_host (h : afterHost? t = some name) : inUrl? (host ++ t) = some name := by
  obtain ⟨c, label, hhost⟩ : ∃ c label, host = c :: label := ⟨'g', "ithub.com/".toList, by decide +kernel⟩
  have hafter : Text.after? host (c :: (label ++ t)) = some t := by
    rw [← List.cons_append, ← hhost, Text.after?_append]
  rw [hhost, List.cons_append, inUrl?, hafter, Option.bind_some, h]

theorem endsWith_cloneEnding_iff : name.endsWith cloneEnding = true ↔ cloneEnding <:+ name := by
  constructor
  · intro h
    obtain ⟨front, rfl⟩ := Text.exists_of_endsWith h
    exact List.suffix_append front cloneEnding
  · rintro ⟨front, rfl⟩
    rw [Text.endsWith, Text.startsWith, List.reverse_append, Text.after?_append]
    rfl

theorem dropEnding_eq_self (h : ¬ cloneEnding <:+ name) : dropEnding name = name := by
  rw [dropEnding, if_neg (mt endsWith_cloneEnding_iff.1 h)]

theorem dropEnding_append (name : Text) : dropEnding (name ++ cloneEnding) = name := by
  rw [dropEnding, if_pos (endsWith_cloneEnding_iff.2 (List.suffix_append name cloneEnding)), List.length_append,
    Nat.add_sub_cancel, List.take_left]

/-- The name of the first URL in a text, whoever owns the repository and whatever follows. -/
theorem ofText_url {ending : Text} (hfront : ¬ host <:+: front) (howner : owner ≠ []) (hslash : '/' ∉ owner)
    (hname : name ≠ []) (hchars : ∀ c ∈ name, isNameEnd c = false) (hclone : ¬ cloneEnding <:+ name)
    (hending : ending = [] ∨ ending = cloneEnding) (hrest : ∀ c ∈ rest.head?, isNameEnd c = true) :
    ofText (front ++ (host ++ (owner ++ '/' :: (name ++ ending ++ rest)))) = name := by
  have hclass : ∀ c ∈ cloneEnding, isNameEnd c = false := isNameEnd_eq_false_of_all (by decide +kernel)
  have hendingChars : ∀ c ∈ name ++ ending, isNameEnd c = false := by
    intro c hc
    rcases List.mem_append.1 hc with hc | hc
    · exact hchars c hc
    · rcases hending with rfl | rfl
      · cases hc
      · exact hclass c hc
  have hurl := afterHost?_name howner hslash (List.append_ne_nil_of_left_ne_nil hname ending) hendingChars hrest
  rw [ofText, inUrl?_append hfront, inUrl?_host hurl]
  dsimp only
  rcases hending with rfl | rfl
  · rw [List.append_nil, dropEnding_eq_self hclone]
  · exact dropEnding_append name

/-- What is enough of a URL in a text to take a name from it: host and owner, and the first character of a name. -/
def HoldsUrl (t : Text) : Prop :=
  ∃ owner c, owner ≠ [] ∧ '/' ∉ owner ∧ isNameEnd c = false ∧ host ++ (owner ++ ['/', c]) <:+: t

theorem HoldsUrl.of_inUrl? (h : inUrl? t = some name) : HoldsUrl t := by
  obtain ⟨front, after, rfl, hafter⟩ := exists_of_inUrl? h
  obtain ⟨owner, rest, rfl, howner, hslash, hname, hchars⟩ := exists_of_afterHost? hafter
  obtain ⟨c, name, rfl⟩ := List.exists_cons_of_ne_nil hname
  exact ⟨owner, c, howner, hslash, hchars c List.mem_cons_self, front, name ++ rest, by simp⟩

theorem HoldsUrl.inUrl?_ne_none (h : HoldsUrl t) : inUrl? t ≠ none := by
  obtain ⟨owner, c, howner, hslash, hc, front, rest, rfl⟩ := h
  induction front with
  | nil =>
    have hname : (c :: rest).takeWhile (fun c => !isNameEnd c) = c :: rest.takeWhile fun c => !isNameEnd c :=
      List.takeWhile_cons_of_pos (by rw [hc]; rfl)
    have hurl := inUrl?_host (afterHost?_append howner hslash hname (List.cons_ne_nil c _))
    simp only [List.nil_append, List.append_assoc, List.cons_append] at hurl ⊢
    rw [hurl]
    exact Option.some_ne_none _
  | cons b front ih =>
    rw [List.cons_append, List.cons_append, inUrl?]
    split
    · exact Option.some_ne_none _
    · exact ih

/-- A name is taken from a text just if there is enough of a URL in it. -/
theorem inUrl?_eq_none_iff : inUrl? t = none ↔ ¬ HoldsUrl t := by
  constructor
  · exact fun h hurl => hurl.inUrl?_ne_none h
  · intro h
    cases hurl : inUrl? t with
    | none => rfl
    | some name => exact absurd (HoldsUrl.of_inUrl? hurl) h

/-- What could be a name in a URL is its own name. -/
theorem ofText_eq_self (h : ∀ c ∈ t, isNameEnd c = false) : ofText t = t := by
  have hurl : inUrl? t = none := inUrl?_eq_none_iff.2 fun ⟨owner, c, _, _, _, hin⟩ => by
    have hslash := h '/' (hin.subset (by simp))
    cases hslash
  have hblank : ∀ c ∈ t, isBlank c = false := fun c hc => (isNameEnd_eq_false_iff.1 (h c hc)).2
  rw [ofText, hurl]
  cases t with
  | nil => rfl
  | cons c t =>
    exact Text.trim_eq_self rfl (hblank c List.mem_cons_self) (List.getLast?_eq_some_getLast (List.cons_ne_nil c t))
      (hblank _ (List.getLast_mem (List.cons_ne_nil c t)))

theorem ofText_of_inUrl?_eq_none (h : inUrl? t = none) : ofText t = t.trimBlank := by
  rw [ofText, h]

/-- A repository is called by its name, however often the name is taken. -/
theorem ofText_ofText (t : Text) : ofText (ofText t) = ofText t := by
  cases hurl : inUrl? t with
  | some name =>
    obtain ⟨front, after, -, hafter⟩ := exists_of_inUrl? hurl
    obtain ⟨owner, rest, -, -, -, -, hchars⟩ := exists_of_afterHost? hafter
    have hname : ofText t = dropEnding name := by rw [ofText, hurl]
    rw [hname]
    exact ofText_eq_self fun c hc => hchars c (dropEnding_subset name hc)
  | none =>
    -- Trimming cannot bring about a URL, since what is left is part of the text.
    have hnone : inUrl? t.trimBlank = none := by
      rw [inUrl?_eq_none_iff] at hurl ⊢
      rintro ⟨owner, c, howner, hslash, hc, hin⟩
      exact hurl ⟨owner, c, howner, hslash, hc, hin.trans (Text.isInfix_trim isBlank t)⟩
    rw [ofText_of_inUrl?_eq_none hurl, ofText_of_inUrl?_eq_none hnone]
    exact Text.trim_trim isBlank t

-- ---------------------------------------------------------------------------
-- Names
-- ---------------------------------------------------------------------------

/-- What a name is made of: letters, digits, hyphens and underscores. Beyond ASCII everything but a blank is taken for a
letter. -/
def isNameChar (c : Char) : Bool := c.isAlphanum || c = '-' || c = '_' || (0x80 ≤ c.toNat && !isBlank c)

/-- The name of a repository. -/
structure IsName (name : Text) : Prop where
  ne_nil : name ≠ []
  chars : ∀ c ∈ name, isNameChar c = true

theorem isBlank_of_isNameChar (h : isNameChar c = true) : isBlank c = false := by
  have hascii : ∀ m < 0x80, isNameChar (Char.ofNat m) = true → isBlank (Char.ofNat m) = false := by decide +kernel
  by_cases hc : c.toNat < 0x80
  · have hsmall := hascii c.toNat hc
    rw [Char.ofNat_toNat] at hsmall
    exact hsmall h
  · simp only [isNameChar, Bool.or_eq_true, Bool.and_eq_true, decide_eq_true_eq, Bool.not_eq_true'] at h
    rcases h with ((h | rfl) | rfl) | h
    · replace h : (c.isUpper || c.isLower || c.isDigit) = true := h
      have hle (b : UInt32) (h : c.val ≤ b) : c.toNat ≤ b.toNat := UInt32.le_iff_toNat_le.1 h
      have h122 : c.toNat ≤ 122 := by
        rw [Bool.or_eq_true, Bool.or_eq_true] at h
        rcases h with (h | h) | h
        · exact Nat.le_trans (hle 90 (of_decide_eq_true h).2) (by decide)
        · exact hle 122 (of_decide_eq_true (Bool.and_eq_true_iff.1 h).2)
        · exact Nat.le_trans (hle 57 (of_decide_eq_true (Bool.and_eq_true_iff.1 h).2)) (by decide)
      omega
    · decide
    · decide
    · exact h.2

namespace IsName

theorem notMem (h : IsName name) (hc : isNameChar c = false) : c ∉ name := fun hmem => by
  rw [h.chars c hmem] at hc
  cases hc

theorem isBlank_eq_false (h : IsName name) (hmem : c ∈ name) : isBlank c = false :=
  isBlank_of_isNameChar (h.chars c hmem)

/-- A name is its own name. -/
theorem ofText_eq (h : IsName name) : ofText name = name := ofText_eq_self fun _ hc =>
  isNameEnd_eq_false_iff.2 ⟨fun heq => h.notMem (by decide) (heq ▸ hc), h.isBlank_eq_false hc⟩

end IsName

-- ---------------------------------------------------------------------------
-- Titles
-- ---------------------------------------------------------------------------

theorem mem_of_mem_splitCamel (h : c ∈ splitCamel t) : c = ' ' ∨ c ∈ t := by
  induction t with
  | nil => exact .inr h
  | cons a t ih =>
    cases t with
    | nil => exact .inr h
    | cons b t =>
      rw [splitCamel] at h
      split at h
      · rcases List.mem_cons.1 h with rfl | h
        · exact .inr List.mem_cons_self
        rcases List.mem_cons.1 h with rfl | h
        · exact .inl rfl
        · exact (ih h).imp_right (List.mem_cons_of_mem a)
      · rcases List.mem_cons.1 h with rfl | h
        · exact .inr List.mem_cons_self
        · exact (ih h).imp_right (List.mem_cons_of_mem a)

/-- Of what stands before the letters in ASCII, the title of a name holds what the name holds, and spaces. -/
theorem mem_of_mem_title (h : c ∈ title name) (hc : 0 < c.toNat ∧ c.toNat < 0x41) : c = ' ' ∨ c ∈ name := by
  rcases Text.mem_of_mem_join h with rfl | ⟨word, hword, hmem⟩
  · exact .inl rfl
  obtain ⟨piece, hpiece, rfl⟩ := List.mem_map.1 hword
  have hinpiece : c ∈ piece := by
    rcases List.mem_append.1 hmem with hmem | hmem
    · exact List.mem_of_mem_take (mem_of_mem_upper hmem hc)
    · exact List.mem_of_mem_drop (mem_of_mem_lower hmem hc)
  obtain ⟨b, hb, hchange⟩ := List.mem_map.1 (Text.mem_of_mem_splitOn hpiece hinpiece)
  split at hchange
  · exact .inl hchange.symm
  · rw [← hchange]
    exact mem_of_mem_splitCamel hb

end MdxSafe.RepoName
