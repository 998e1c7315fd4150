-- SUMMARY: Every piece of inline HTML ends with a closing bracket.
import MdxSafe.Markdown.Tag
import MdxSafe.Proofs.Text.Search

/-!
# The end of inline HTML

Every reader of a part of inline HTML leaves a rest of its text, and the ones that read a piece to its end leave what
follows a closing bracket (`closes_of_after?`). A reader of attributes may leave several rests; that holds for each.
-/

namespace MdxSafe.Tag

variable {t rest : Text}

/-- What is left of a text is what follows one of its closing brackets. -/
def Closes (t rest : Text) : Prop := '>' :: rest <:+ t

theorem Closes.of_suffix {u : Text} (h : Closes u rest) (hsuffix : u <:+ t) : Closes t rest := h.trans hsuffix

theorem suffix_dropWhile (p : Char → Bool) (t : Text) : t.dropWhile p <:+ t := List.dropWhile_suffix p

theorem suffix_of_dropWhile_eq {p : Char → Bool} {u : Text} (h : t.dropWhile p = u) : u <:+ t := h ▸ suffix_dropWhile p t

-- ---------------------------------------------------------------------------
-- Parts
-- ---------------------------------------------------------------------------

theorem suffix_of_afterName? (h : afterName? t = some rest) : rest <:+ t := by
  unfold afterName? at h
  split at h
  · split at h
    · cases h
      exact (suffix_dropWhile _ _).trans (List.suffix_cons ..)
    · cases h
  · cases h

theorem suffix_of_afterStop? {stop : Text} (hstop : stop ≠ []) (h : afterStop? stop t = some rest) :
    stop ++ rest <:+ t := by
  obtain ⟨⟨before, rest⟩, hcut, rfl⟩ := Option.map_eq_some_iff.1 h
  exact ⟨before, by simpa using (Text.cut?_eq_some hcut hstop).1.symm⟩

theorem suffix_of_bareRests (h : rest ∈ bareRests t) : rest <:+ t := by
  induction t with
  | nil => simp_all [bareRests]
  | cons c t ih =>
    rw [bareRests] at h
    split at h
    · rcases List.mem_append.1 h with h | h
      · exact (ih h).trans (List.suffix_cons c t)
      · split at h
        · exact List.mem_singleton.1 h ▸ List.suffix_refl _
        · cases h
    · exact List.mem_singleton.1 h ▸ List.suffix_refl _

theorem suffix_of_valueRests (h : rest ∈ valueRests t) : rest <:+ t := by
  have hquoted : ∀ {stop c : Char} {u : Text}, rest ∈ (afterStop? [stop] u).toList → rest <:+ c :: u := by
    intro stop c u hmem
    have hsuffix := suffix_of_afterStop? (by simp) (Option.mem_toList.1 hmem)
    exact ((List.suffix_cons stop rest).trans hsuffix).trans (List.suffix_cons c u)
  unfold valueRests at h
  split at h
  · exact hquoted h
  · exact hquoted h
  · split at h
    · exact (suffix_of_bareRests h).trans (List.suffix_cons ..)
    · cases h
  · cases h

theorem suffix_of_blankRests (h : rest ∈ blankRests t) : rest <:+ t := by
  induction t with
  | nil => simp_all [blankRests]
  | cons c t ih =>
    rw [blankRests] at h
    split at h
    · rcases List.mem_append.1 h with h | h
      · exact (ih h).trans (List.suffix_cons c t)
      · exact List.mem_singleton.1 h ▸ List.suffix_refl _
    · exact List.mem_singleton.1 h ▸ List.suffix_refl _

theorem suffix_of_assignmentRests (h : rest ∈ assignmentRests t) : rest <:+ t := by
  rcases List.mem_append.1 h with h | h
  · split at h
    · next u hu =>
      obtain ⟨v, hv, hrest⟩ := List.mem_flatMap.1 h
      have hassigned : u <:+ t := (List.suffix_cons '=' u).trans (suffix_of_dropWhile_eq hu)
      exact ((suffix_of_valueRests hrest).trans (suffix_of_blankRests hv)).trans hassigned
    · cases h
  · exact List.mem_singleton.1 h ▸ List.suffix_refl _

theorem suffix_of_attributeRests (h : rest ∈ attributeRests t) : rest <:+ t := by
  unfold attributeRests at h
  split at h
  · split at h
    · split at h
      · next a u hu =>
        split at h
        · have hname : u <:+ _ := (List.suffix_cons a u).trans (suffix_of_dropWhile_eq hu)
          exact ((suffix_of_assignmentRests h).trans (suffix_dropWhile _ _)).trans hname
        · cases h
      · cases h
    · cases h
  · cases h

-- ---------------------------------------------------------------------------
-- Pieces
-- ---------------------------------------------------------------------------

theorem closes_of_afterEnd? (h : afterEnd? t = some rest) : Closes t rest := by
  unfold afterEnd? at h
  split at h
  · next u hu =>
    cases h
    exact (List.suffix_cons '/' _).trans (suffix_of_dropWhile_eq hu)
  · next u hu =>
    cases h
    exact suffix_of_dropWhile_eq hu
  · cases h

theorem closes_of_afterAttributes? {fuel : Nat} (h : afterAttributes? fuel t = some rest) : Closes t rest := by
  induction fuel generalizing t with
  | zero => exact closes_of_afterEnd? h
  | succ fuel ih =>
    rw [afterAttributes?, Option.or_eq_some_iff] at h
    rcases h with h | ⟨-, h⟩
    · obtain ⟨u, hu, h⟩ := List.exists_of_findSome?_eq_some h
      exact (ih h).of_suffix (suffix_of_attributeRests hu)
    · exact closes_of_afterEnd? h

theorem closes_of_afterOpen? (h : afterOpen? t = some rest) : Closes t rest := by
  obtain ⟨u, hu, h⟩ := Option.bind_eq_some_iff.1 h
  exact (closes_of_afterAttributes? h).of_suffix (suffix_of_afterName? hu)

theorem closes_of_afterClose? (h : afterClose? t = some rest) : Closes t rest := by
  obtain ⟨u, hu, h⟩ := Option.bind_eq_some_iff.1 h
  split at h
  · next v hv =>
    cases h
    exact Closes.of_suffix (suffix_of_dropWhile_eq hv) (suffix_of_afterName? hu)
  · cases h

theorem closes_of_afterCommentBody? (h : afterCommentBody? t = some rest) : Closes t rest := by
  fun_induction afterCommentBody? t with
  | case1 | case4 | case6 => cases h
  | case2 =>
    cases h
    exact ⟨['-', '-'], rfl⟩
  | case3 c t _ ih => exact (ih h).of_suffix ⟨['-', '-', c], rfl⟩
  | case5 c t _ _ _ ih => exact (ih h).of_suffix ⟨['-', c], rfl⟩
  | case7 c t _ _ _ _ _ ih => exact (ih h).of_suffix (List.suffix_cons c t)

theorem closes_of_afterComment? (h : afterComment? t = some rest) : Closes t rest := by
  unfold afterComment? at h
  split at h
  · cases h
    exact List.suffix_refl _
  · cases h
    exact List.suffix_cons ..
  · exact closes_of_afterCommentBody? h

/-- A piece of HTML ends with a closing bracket. -/
theorem closes_of_after? (h : after? t = some rest) : Closes t rest := by
  have hstop : ∀ (stop : Text) {u : Text}, afterStop? (stop ++ ['>']) u = some rest → Closes u rest := by
    intro stop u h
    obtain ⟨before, hbefore⟩ := suffix_of_afterStop? (by simp) h
    exact ⟨before ++ stop, by simpa using hbefore⟩
  unfold after? at h
  split at h
  · exact (closes_of_afterClose? h).of_suffix (List.suffix_cons ..)
  · exact (hstop ['?'] h).of_suffix (List.suffix_cons ..)
  · exact (closes_of_afterComment? h).of_suffix ⟨['!', '-', '-'], rfl⟩
  · exact (hstop [']', ']'] h).of_suffix ⟨"![CDATA[".toList, rfl⟩
  · split at h
    · exact (hstop [] h).of_suffix ⟨['!', _], rfl⟩
    · cases h
  · exact closes_of_afterOpen? h

end MdxSafe.Tag
