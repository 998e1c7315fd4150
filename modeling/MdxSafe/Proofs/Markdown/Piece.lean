-- SUMMARY: The pieces of running text are made of tame tokens.
import MdxSafe.Markdown.Inline
import MdxSafe.Proofs.Markdown.Tag
import MdxSafe.Proofs.Tree.Tame
import MdxSafe.Proofs.Url.Percent

/-!
# Pieces of running text

Whatever is read at a position of running text can be seated (`isSeated_pieceAt`): line ends stand in a piece only in
inline HTML and in the text of an autolink, and HTML stands between angle brackets. Link targets come in normal form,
from the text itself or from a definition.
-/

namespace MdxSafe

/-- No target of the definitions holds a line break. -/
def Reference.AreUnbroken (refs : List Reference) : Prop := ∀ r ∈ refs, '\n' ∉ r.target.href

/-- An attribute that is a text is read as it is. -/
theorem Token.notMem_attrText {t : Token} {key u : Text} {c : Char} (h : t.attrs.get key = .text u) (hu : c ∉ u) :
    c ∉ t.attrText key := by
  rw [attrText, h]
  split
  · exact hu
  · simp

namespace Inline

-- ---------------------------------------------------------------------------
-- Source
-- ---------------------------------------------------------------------------

theorem getElem?_suffixesOf (t : Text) (i : Nat) : ((suffixesOf t)[i]?).getD [] = t.drop i := by
  induction t generalizing i with
  | nil => cases i <;> simp [suffixesOf]
  | cons c t ih =>
    cases i with
    | zero => rfl
    | succ i => simpa [suffixesOf] using ih i

theorem Source.from_ofText (t : Text) (i : Nat) : (Source.ofText t).from_ i = t.drop i := by
  rw [← getElem?_suffixesOf, from_, ofText, Array.getD_eq_getD_getElem?, List.getElem?_toArray]

theorem mem_takeWhileUpTo {p : Char → Bool} {n : Nat} {t : Text} {c : Char} (h : c ∈ Text.takeWhileUpTo p n t) :
    c ∈ t ∧ p c = true := by
  fun_induction Text.takeWhileUpTo p n t with
  | case1 | case2 => cases h
  | case3 n d t hd ih =>
    rcases List.mem_cons.1 h with rfl | h
    · exact ⟨List.mem_cons_self, hd⟩
    · exact ⟨List.mem_cons_of_mem d (ih h).1, (ih h).2⟩
  | case4 => cases h

-- ---------------------------------------------------------------------------
-- Pieces
-- ---------------------------------------------------------------------------

/-- The tokens of a piece are seated, its literal characters are no line ends, and its target holds none. -/
def Piece.IsSeated (deep : Prop) : Piece → Prop
  | .chars t => '\n' ∉ t
  | .lineEnd => True
  | .tokens ts => AreSeated deep ts
  | .link target _ _ | .image target _ _ => '\n' ∉ target.href

variable {deep : Prop} {s : Scope} {memo : Memo} {i : Nat} {r : Piece × Nat}

theorem isSeated_escapeAt? (h : escapeAt? s i = some r) : r.1.IsSeated deep := by
  unfold escapeAt? at h
  split at h
  · cases h
  · cases h
    exact .single (.lineEnd (.inr rfl) rfl) (by simp)
  · next c hc _ =>
    cases h
    exact .single (.special rfl rfl (by simp) (by simpa using Ne.symm hc)) (by simp)

theorem notMem_body {a b : Nat} {t body : Text} {ref : Entity.Ref} (h : Entity.take? a b t = some (body, ref)) :
    '\n' ∉ body := by
  unfold Entity.take? at h
  dsimp only at h
  split at h
  · obtain ⟨r, -, hr⟩ := Option.map_eq_some_iff.1 h
    cases hr
    exact fun hmem => absurd (List.mem_takeWhile_imp hmem) (by decide)
  · cases h

theorem isSeated_entityAt? (h : entityAt? s i = some r) : r.1.IsSeated deep := by
  unfold entityAt? at h
  split at h
  · split at h
    · next body ref hbody =>
      cases h
      have hmarkup : '\n' ∉ '&' :: body ++ [';'] := by simpa using notMem_body hbody
      exact .single (.special rfl rfl (by simp) hmarkup) (by simp)
    · cases h
  · cases h

theorem href_ofBody? {t href text : Text} (h : Autolink.ofBody? t = some (href, text)) : '\n' ∉ href := by
  have hlink : ∀ {url : Text},
      (if Url.isSafe (Url.normalize url) then some (Url.normalize url, Url.readable t) else none) = some (href, text) →
        '\n' ∉ href := by
    intro url h
    split at h
    · cases h
      exact Url.notMem_normalize url
    · cases h
  unfold Autolink.ofBody? at h
  dsimp only at h
  split at h
  · exact hlink h
  · split at h
    · exact hlink h
    · cases h

/-- What is taken for inline HTML stands between angle brackets. -/
theorem slice_html {t rest : Text} (hsource : s.source = .ofText t) (hi : s.source.at? i = some '<')
    (h : Tag.after? (s.source.from_ (i + 1)) = some rest) :
    ∃ u, s.source.slice i (i + ((s.source.from_ (i + 1)).length - rest.length + 1)) = '<' :: (u ++ ['>']) := by
  obtain ⟨u, hu⟩ := Tag.closes_of_after? h
  rw [Source.at?, hsource, Source.from_ofText] at hi
  rw [hsource, Source.from_ofText] at hu
  have hfrom : t.drop i = '<' :: t.drop (i + 1) := by
    obtain ⟨v, hv⟩ := List.head?_eq_some_iff.1 hi
    rw [hv, ← List.drop_drop, hv]
    rfl
  refine ⟨u, ?_⟩
  rw [Source.slice, hsource, Source.from_ofText, Source.from_ofText, hfrom, ← hu]
  have hlength : (u ++ '>' :: rest).length - rest.length = u.length + 1 := by
    simp only [List.length_append, List.length_cons]
    omega
  rw [hlength, Nat.add_sub_cancel_left, List.take_succ_cons, List.take_length_add_append]
  rfl

theorem isSeated_angleAt? {t : Text} (hsource : s.source = .ofText t) (hi : s.source.at? i = some '<')
    (h : angleAt? s i = some r) : r.1.IsSeated deep := by
  unfold angleAt? at h
  dsimp only at h
  split at h
  · next href text hauto =>
    cases h
    have hhref : '\n' ∉ href := by
      split at hauto
      · exact href_ofBody? hauto
      · cases hauto
    refine ⟨_, .auto .nil, .cons ⟨rfl, rfl, rfl, ?_, rfl⟩ (.cons ⟨rfl, rfl⟩ (.cons ⟨rfl, rfl⟩ .nil))⟩
    exact Token.notMem_attrText rfl hhref
  · split at h
    · split at h
      · next rest hrest =>
        cases h
        obtain ⟨u, hu⟩ := slice_html hsource hi hrest
        exact .single (.html rfl rfl hu) (by simp)
      · cases h
    · cases h

theorem notMem_codeContent (t : Text) : '\n' ∉ codeContent t := by
  have hmap : '\n' ∉ t.map fun c => if c = '\n' then ' ' else c := by
    intro h
    obtain ⟨c, -, hc⟩ := List.mem_map.1 h
    split at hc
    · exact absurd hc (by decide)
    · next hne => exact hne hc
  rw [codeContent]
  split
  · exact fun h => hmap (List.mem_of_mem_drop (List.dropLast_subset _ h))
  · exact hmap

theorem isSeated_codeAt (s : Scope) (i : Nat) : (codeAt s i).1.IsSeated deep := by
  have hmarks : ∀ n, '\n' ∉ List.replicate n '`' := fun n h => absurd (List.eq_of_mem_replicate h) (by decide)
  unfold codeAt
  dsimp only
  split
  · exact .single (.code rfl rfl (hmarks _) (notMem_codeContent _)) (by simp)
  · exact hmarks _

theorem href_takeInlineTarget? {t rest : Text} {target : LinkTarget}
    (h : Link.takeInlineTarget? t = some (target, rest)) : '\n' ∉ target.href := by
  unfold Link.takeInlineTarget? at h
  split at h
  · cases h
  · rw [Option.some.injEq] at h
    dsimp only at h
    split at h
    · cases h
      simp
    · split at h
      · cases h
        simp
      · split at h <;> cases h <;> exact Url.notMem_normalize _

theorem href_referenceAt (hrefs : Reference.AreUnbroken s.refs) {fuel start stop j : Nat} {q : LinkTarget × Nat}
    (h : (referenceAt fuel s memo start stop j).2 = some q) : '\n' ∉ q.1.href := by
  cases fuel with
  | zero => simp [referenceAt] at h
  | succ fuel =>
    rw [referenceAt] at h
    split at h
    · cases h
    · obtain ⟨d, hd, rfl⟩ := Option.map_eq_some_iff.1 h
      exact hrefs d (List.mem_of_find?_eq_some hd)

theorem isSeated_linkAt (hrefs : Reference.AreUnbroken s.refs) {fuel : Nat} (h : (linkAt fuel s memo i).2 = some r) :
    r.1.IsSeated deep := by
  cases fuel with
  | zero => simp [linkAt] at h
  | succ fuel =>
    rw [linkAt] at h
    split at h
    · cases h
    · dsimp only at h
      split at h
      · split at h
        · cases h
        · next target rest htarget =>
          split at h
          · cases h
            exact href_takeInlineTarget? htarget
          · obtain ⟨q, hq, rfl⟩ := Option.map_eq_some_iff.1 h
            exact href_referenceAt hrefs hq
      · obtain ⟨q, hq, rfl⟩ := Option.map_eq_some_iff.1 h
        exact href_referenceAt hrefs hq

theorem isSeated_imageAt (hrefs : Reference.AreUnbroken s.refs) {fuel : Nat}
    (h : (imageAt fuel s memo i).2 = some r) : r.1.IsSeated deep := by
  cases fuel with
  | zero => simp [imageAt] at h
  | succ fuel =>
    rw [imageAt] at h
    split at h
    · cases h
    · split at h
      · cases h
      · dsimp only at h
        split at h
        · split at h
          · cases h
          · next target rest htarget =>
            split at h
            · cases h
              exact href_takeInlineTarget? htarget
            · cases h
        · obtain ⟨q, hq, rfl⟩ := Option.map_eq_some_iff.1 h
          exact href_referenceAt hrefs hq

/-- A piece can be seated, whatever it is. -/
theorem isSeated_pieceAt {t : Text} (hsource : s.source = .ofText t) (hrefs : Reference.AreUnbroken s.refs) {fuel : Nat}
    (h : (pieceAt fuel s memo i).2 = some r) : r.1.IsSeated deep := by
  cases fuel with
  | zero => simp [pieceAt] at h
  | succ fuel =>
    rw [pieceAt] at h
    split at h
    · cases h
    · next c hc =>
      split at h
      · cases h
        intro hmem
        exact absurd (mem_takeWhileUpTo hmem).2 (by decide)
      · split at h
        · cases h
          trivial
        · exact isSeated_escapeAt? h
        · cases h
          exact isSeated_codeAt s i
        · exact isSeated_linkAt hrefs h
        · exact isSeated_imageAt hrefs h
        · exact isSeated_angleAt? hsource hc h
        · exact isSeated_entityAt? h
        · cases h

/-- A line end is a piece, however little fuel there is. -/
theorem pieceAt_ne_none {fuel : Nat} (hi : s.source.at? i = some '\n') : (pieceAt (fuel + 1) s memo i).2 ≠ none := by
  rw [pieceAt, hi]
  simp [isSpecial]

end Inline
end MdxSafe
