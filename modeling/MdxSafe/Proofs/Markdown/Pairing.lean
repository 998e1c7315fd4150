-- SUMMARY: What pairing delimiters leaves of the tokens of running text: their places, their links and their line breaks.
import MdxSafe.Markdown.Delimiter
import MdxSafe.Proofs.Tree.Tame

/-!
# Tokens of running text and pairs of delimiters

Tokens of running text are seated (`Seated`) and stay so when delimiters are paired: pairing works on free seats
without links alone (`seated_strike`, `seated_emphasizeFrom`), and joining texts only takes free seats away. So no
autolink is taken apart, and no link gets lost (`areSeated_apply`).
-/

namespace MdxSafe

-- ---------------------------------------------------------------------------
-- Seated tokens
-- ---------------------------------------------------------------------------

/-- Every token has a seat that it may take. -/
structure Seated (deep : Prop) (ls : List Seat) (tokens : Array Token) : Prop where
  length : ls.length = tokens.size
  takes : ∀ {i : Nat} {t : Token} {l : Seat}, tokens[i]? = some t → ls[i]? = some l → l.Takes deep t

theorem seated_iff {deep : Prop} {ls : List Seat} {tokens : Array Token} :
    Seated deep ls tokens ↔ List.Forall₂ (Seat.Takes deep) ls tokens.toList := by
  rw [List.forall₂_iff_get]
  constructor
  · rintro ⟨hlength, htakes⟩
    refine ⟨by simpa using hlength, fun i hi hi' => htakes (i := i) ?_ (List.getElem?_eq_getElem hi)⟩
    simp only [Array.length_toList] at hi'
    simp [hi']
  · rintro ⟨hlength, htakes⟩
    refine ⟨by simpa using hlength, fun {i t l} ht hl => ?_⟩
    obtain ⟨hi, rfl⟩ := Array.getElem?_eq_some_iff.1 ht
    obtain ⟨hi', rfl⟩ := List.getElem?_eq_some_iff.1 hl
    simpa using htakes i hi' (by simpa using hi)

/-- The links of tokens are those of their seats. -/
theorem Seated.linksIn_eq {deep : Prop} {ls : List Seat} {tokens : Array Token} (h : Seated deep ls tokens) :
    Token.linksIn tokens.toList = (ls.map Seat.links).sum := by
  rw [Token.linksIn_eq_sum]
  have htakes := seated_iff.1 h
  clear h
  generalize tokens.toList = ts at htakes
  induction htakes with
  | nil => rfl
  | cons htakes _ ih => rw [List.map_cons, List.map_cons, List.sum_cons, List.sum_cons, htakes.links_eq, ih]

/-- At an index there is a free seat, with no link in it. -/
def IsPlainAt (ls : List Seat) (i : Nat) : Prop := ls[i]? = some (.free 0)

-- ---------------------------------------------------------------------------
-- Pairs
-- ---------------------------------------------------------------------------

namespace Delimiter

variable {deep : Prop} {ls : List Seat} {tokens : Array Token} {ds : Array Delimiter} {n : Nat}

/-- A delimiter whose token is in a plain seat and whose partner, if it has one, is among the first `n`. -/
structure IsFit (ls : List Seat) (n : Nat) (d : Delimiter) : Prop where
  plain : IsPlainAt ls d.token
  partner : ∀ j, d.partner = some j → j < n

theorem fit_set (h : ∀ d ∈ ds, IsFit ls n d) {i : Nat} {e : Delimiter} (he : i < ds.size → IsFit ls n e) :
    ∀ d ∈ ds.set! i e, IsFit ls n d := by
  intro d hd
  rw [Array.set!_eq_setIfInBounds] at hd
  by_cases hi : i < ds.size
  · rcases Array.mem_or_eq_of_mem_setIfInBounds hd with hd | rfl
    · exact h d hd
    · exact he hi
  · rw [Array.setIfInBounds_eq_of_size_le (Nat.not_lt.1 hi)] at hd
    exact h d hd

theorem getElem!_mem {i : Nat} (h : i < ds.size) : ds[i]! ∈ ds := by
  rw [getElem!_pos ds i h]
  exact Array.getElem_mem h

/-- Pairing changes no token index, and partners are found among the delimiters. -/
theorem fit_pairAt {p : Pairing} (hsize : p.delimiters.size = n) (h : ∀ d ∈ p.delimiters, IsFit ls n d) {i : Nat}
    (hi : i < n) : (pairAt p i).delimiters.size = n ∧ ∀ d ∈ (pairAt p i).delimiters, IsFit ls n d := by
  have hcloser := h _ (getElem!_mem (hsize ▸ hi))
  unfold pairAt
  dsimp only
  split
  · exact ⟨hsize, h⟩
  split
  · next o _ =>
    have hclosed : IsFit ls n { p.delimiters[i]! with opens := false } := ⟨hcloser.plain, hcloser.partner⟩
    refine ⟨by simpa using hsize, ?_⟩
    dsimp only
    refine fit_set (fit_set h fun _ => hclosed) fun ho => ?_
    have hopener := h _ (getElem!_mem (i := o) (by simpa using ho))
    exact ⟨hopener.plain, fun j hj => Option.some.inj hj ▸ hi⟩
  · exact ⟨hsize, h⟩

theorem fit_pair (h : ∀ d ∈ ds, IsFit ls ds.size d) :
    (pair ds).size = ds.size ∧ ∀ d ∈ pair ds, IsFit ls ds.size d := by
  unfold pair
  refine List.foldlRecOn (motive := fun p : Pairing => p.delimiters.size = ds.size ∧ ∀ d ∈ p.delimiters, IsFit ls ds.size d)
    _ _ ⟨rfl, h⟩ fun p hp i hi => ?_
  exact fit_pairAt hp.1 hp.2 (List.mem_range.1 hi)

-- ---------------------------------------------------------------------------
-- Tokens of pairs
-- ---------------------------------------------------------------------------

theorem seated_mark (h : Seated deep ls tokens) {i : Nat} (hplain : IsPlainAt ls i) {t : Token}
    (ht : Seat.Takes deep (.free 0) t) : Seated deep ls (mark tokens i t) := by
  refine ⟨by simpa [mark] using h.length, fun {j u l} hu hl => ?_⟩
  rw [mark, Array.set!_eq_setIfInBounds, Array.getElem?_setIfInBounds] at hu
  split at hu
  · next hij =>
    subst hij
    split at hu
    · cases hu
      rw [hplain, Option.some.injEq] at hl
      exact hl ▸ ht
    · cases hu
  · exact h.takes hu hl

theorem takes_opening {kind : TokenKind} (hkind : kind = .emOpen ∨ kind = .strongOpen ∨ kind = .strikeOpen) {markup : Text}
    (hmarkup : '\n' ∉ markup) : Seat.Takes deep (.free 0) (.opening kind markup) :=
  ⟨.opens hkind rfl hmarkup, by rcases hkind with rfl | rfl | rfl <;> rfl⟩

theorem takes_closing {kind : TokenKind} (hkind : kind = .emClose ∨ kind = .strongClose ∨ kind = .strikeClose)
    (markup : Text) : Seat.Takes deep (.free 0) (.closing kind markup) :=
  ⟨.closes (by tauto) rfl, by rcases hkind with rfl | rfl | rfl <;> rfl⟩

theorem takes_literal {u : Text} (h : '\n' ∈ u → deep) : Seat.Takes deep (.free 0) (.literal u) :=
  ⟨Token.isTame_literal h, rfl⟩

theorem seated_strikePair (h : Seated deep ls tokens) (hds : ∀ d ∈ ds, IsFit ls ds.size d) {d : Delimiter}
    (hd : d ∈ ds) : Seated deep ls (strikePair ds tokens d) := by
  unfold strikePair
  split
  · next j hj =>
    split
    · have hpartner := hds _ (getElem!_mem ((hds d hd).partner j hj))
      exact seated_mark (seated_mark h (hds d hd).plain (takes_opening (by simp) (by decide))) hpartner.plain
        (takes_closing (by simp) _)
    · exact h
  · exact h

theorem lt_size_of_isPlainAt (h : Seated deep ls tokens) {i : Nat} (hplain : IsPlainAt ls i) : i < tokens.size :=
  h.length ▸ (List.getElem?_eq_some_iff.1 hplain).1

/-- The seat of a token that is neither a link nor an image nor part of an autolink is plain. -/
theorem isPlainAt_of_takes {i : Nat} {t : Token} {l : Seat} (hl : ls[i]? = some l) (htakes : l.Takes deep t)
    (hlinks : t.links = 0) (hauto : l ≠ .autoText ∧ l ≠ .autoClose) : IsPlainAt ls i := by
  have hzero := htakes.links_eq.symm.trans hlinks
  cases l with
  | free k => rw [IsPlainAt, hl, show k = 0 from hzero]
  | autoOpen => cases hzero
  | autoText => exact absurd rfl hauto.1
  | autoClose => exact absurd rfl hauto.2

/-- Before a plain seat a text is in a plain seat as well: it is not the text of an autolink. -/
theorem plain_before (h : Seated deep ls tokens) (hrow : IsRow ls) {i : Nat} (hplain : IsPlainAt ls i)
    (htext : tokens[i - 1]!.kind = .text) : IsPlainAt ls (i - 1) := by
  have hi := lt_size_of_isPlainAt h hplain
  cases i with
  | zero => exact hplain
  | succ i =>
    rw [Nat.add_sub_cancel] at htext ⊢
    have htoken : tokens[i]? = some tokens[i]! := by
      rw [getElem!_pos tokens i (by omega)]
      exact Array.getElem?_eq_getElem _
    rcases hrow.before_free hplain with ⟨k, hfree⟩ | hclose
    · exact isPlainAt_of_takes hfree (h.takes htoken hfree)
        (Token.links_of_kind (by simp [htext])) ⟨nofun, nofun⟩
    · have htakes := h.takes htoken hclose
      rw [htakes.1] at htext
      cases htext

theorem plain_loneTilde? (h : Seated deep ls tokens) (hrow : IsRow ls) (hds : ∀ d ∈ ds, IsFit ls ds.size d)
    {d : Delimiter} (hd : d ∈ ds) {i : Nat} (hi : loneTilde? ds tokens d = some i) : IsPlainAt ls i := by
  unfold loneTilde? at hi
  split at hi
  · next j hj =>
    dsimp only at hi
    split at hi
    · next htilde =>
      cases hi
      simp only [Bool.and_eq_true, decide_eq_true_eq] at htilde
      exact plain_before h hrow (hds _ (getElem!_mem ((hds d hd).partner j hj))).plain htilde.1.2
    · cases hi
  · cases hi

theorem lastStrikeClose_cases (tokens : Array Token) (fuel i : Nat) :
    lastStrikeClose tokens fuel i = i
      ∨ ∃ t, tokens[lastStrikeClose tokens fuel i]? = some t ∧ t.kind = .strikeClose := by
  induction fuel generalizing i with
  | zero => exact .inl rfl
  | succ fuel ih =>
    rw [lastStrikeClose]
    split
    · next t ht =>
      split
      · next hkind =>
        rcases ih (i + 1) with hstop | hfound
        · exact .inr ⟨t, by rw [hstop]; exact ht, hkind⟩
        · exact .inr hfound
      · exact .inl rfl
    · exact .inl rfl

theorem plain_strikeClose (h : Seated deep ls tokens) {i : Nat} {t : Token} (ht : tokens[i]? = some t)
    (hkind : t.kind = .strikeClose) : IsPlainAt ls i := by
  have hi : i < ls.length := h.length ▸ (Array.getElem?_eq_some_iff.1 ht).1
  have hl := List.getElem?_eq_getElem hi
  have htakes := h.takes ht hl
  refine isPlainAt_of_takes hl htakes (Token.links_of_kind (by simp [hkind])) ⟨?_, ?_⟩
  all_goals
    intro hauto
    rw [hauto] at htakes
    exact absurd (hkind.symm.trans htakes.1) (by decide)

theorem seated_moveTilde (h : Seated deep ls tokens) {i : Nat} (hplain : IsPlainAt ls i) :
    Seated deep ls (moveTilde tokens i) := by
  have hlast : IsPlainAt ls (lastStrikeClose tokens tokens.size i) := by
    rcases lastStrikeClose_cases tokens tokens.size i with hself | ⟨t, ht, hkind⟩
    · rwa [hself]
    · exact plain_strikeClose h ht hkind
  unfold moveTilde
  generalize lastStrikeClose tokens tokens.size i = j at hlast
  have hi := lt_size_of_isPlainAt h hplain
  have hj := lt_size_of_isPlainAt h hlast
  rw [Array.swapIfInBounds_def, dif_pos hi, dif_pos hj]
  refine ⟨by simpa using h.length, fun {k t l} ht hl => ?_⟩
  rw [Array.getElem?_swap] at ht
  have hplainTakes : ∀ {m : Nat} (hm : m < tokens.size), IsPlainAt ls m → Seat.Takes deep (.free 0) tokens[m] :=
    fun hm hplain => h.takes (Array.getElem?_eq_getElem hm) hplain
  split at ht
  · next hjk =>
    cases ht
    rw [← hjk, hlast, Option.some.injEq] at hl
    exact hl ▸ hplainTakes hi hplain
  · split at ht
    · next hik =>
      cases ht
      rw [← hik, hplain, Option.some.injEq] at hl
      exact hl ▸ hplainTakes hj hlast
    · exact h.takes ht hl

/-- A step of turning paired double tildes into deletions, with the lone tildes that are to be moved. -/
def strikeStep (ds : Array Delimiter) (r : Array Token × List Nat) (d : Delimiter) : Array Token × List Nat :=
  (strikePair ds r.1 d, match loneTilde? ds (strikePair ds r.1 d) d with
    | some i => i :: r.2
    | none => r.2)

theorem seated_strikeStep {r : Array Token × List Nat} (h : Seated deep ls r.1 ∧ ∀ i ∈ r.2, IsPlainAt ls i)
    (hrow : IsRow ls) (hds : ∀ d ∈ ds, IsFit ls ds.size d) {d : Delimiter} (hd : d ∈ ds) :
    Seated deep ls (strikeStep ds r d).1 ∧ ∀ i ∈ (strikeStep ds r d).2, IsPlainAt ls i := by
  have hpair := seated_strikePair h.1 hds hd
  refine ⟨hpair, fun i hi => ?_⟩
  rw [strikeStep] at hi
  dsimp only at hi
  split at hi
  · next j hj =>
    rcases List.mem_cons.1 hi with rfl | hi
    · exact plain_loneTilde? hpair hrow hds hd hj
    · exact h.2 i hi
  · exact h.2 i hi

theorem seated_strike (h : Seated deep ls tokens) (hrow : IsRow ls) (hds : ∀ d ∈ ds, IsFit ls ds.size d) :
    Seated deep ls (strike ds tokens) := by
  have hpairs : Seated deep ls (ds.toList.foldl (strikeStep ds) (tokens, [])).1
      ∧ ∀ i ∈ (ds.toList.foldl (strikeStep ds) (tokens, [])).2, IsPlainAt ls i :=
    List.foldlRecOn (motive := fun r : Array Token × List Nat => Seated deep ls r.1 ∧ ∀ i ∈ r.2, IsPlainAt ls i) _ _
      ⟨h, by simp⟩ fun r hr d hd => seated_strikeStep hr hrow hds (Array.mem_toList_iff.1 hd)
  rw [Array.foldl_toList] at hpairs
  exact List.foldlRecOn (motive := Seated deep ls) _ _ hpairs.1 fun _ hr i hi => seated_moveTilde hr (hpairs.2 i hi)

theorem partner_of_emphasis {d : Delimiter} {j : Nat}
    (h : (if d.marker = '*' || d.marker = '_' then d.partner else none) = some j) :
    '\n' ∉ [d.marker] ∧ '\n' ∉ [d.marker, d.marker] ∧ d.partner = some j := by
  split at h
  · next hmarker =>
    simp only [Bool.or_eq_true, decide_eq_true_eq] at hmarker
    refine ⟨?_, ?_, h⟩ <;> rcases hmarker with hm | hm <;> rw [hm] <;> decide
  · cases h

/-- The tokens of a pair of delimiters are turned into the tokens of an element. -/
theorem seated_pair (h : Seated deep ls tokens) {d e : Delimiter} (hd : IsFit ls n d) (he : IsFit ls n e)
    {kind kind' : TokenKind} (hkind : kind = .emOpen ∨ kind = .strongOpen ∨ kind = .strikeOpen)
    (hkind' : kind' = .emClose ∨ kind' = .strongClose ∨ kind' = .strikeClose) {m : Text} (hm : '\n' ∉ m) :
    Seated deep ls (mark (mark tokens d.token (.opening kind m)) e.token (.closing kind' m)) :=
  seated_mark (seated_mark h hd.plain (takes_opening hkind hm)) he.plain (takes_closing hkind' m)

theorem seated_doubled (hds : ∀ d ∈ ds, IsFit ls ds.size d) (h : Seated deep ls tokens) {i j : Nat} (hi : i < ds.size)
    (hj : ds[i]!.partner = some j) (hdoubled : isDoubled ds i j = true) {m : Text} (hm : '\n' ∉ m) :
    Seated deep ls (mark (mark (mark (mark tokens ds[i]!.token (.opening .strongOpen m)) ds[j]!.token
      (.closing .strongClose m)) ds[i - 1]!.token (.literal [])) ds[j + 1]!.token (.literal [])) := by
  have hd := hds _ (getElem!_mem hi)
  have hnext := hds _ (getElem!_mem (i := i - 1) (by omega))
  simp only [isDoubled, Bool.and_eq_true, beq_iff_eq] at hdoubled
  have hlast := hds _ (getElem!_mem (hnext.partner _ hdoubled.2.1.1.1))
  exact seated_mark (seated_mark (seated_pair h hd (hds _ (getElem!_mem (hd.partner j hj))) (by simp) (by simp) hm)
    hnext.plain (takes_literal (by simp))) hlast.plain (takes_literal (by simp))

theorem seated_emphasizeFrom (hds : ∀ d ∈ ds, IsFit ls ds.size d) {n : Nat} (hn : n ≤ ds.size)
    (h : Seated deep ls tokens) : Seated deep ls (emphasizeFrom ds n tokens) := by
  fun_induction emphasizeFrom ds n tokens with
  | case1 => exact h
  | case2 _ _ _ _ ih => exact ih (by omega) h
  | case3 _ _ _ _ hpartner hdoubled =>
    obtain ⟨-, hm, hpartner⟩ := partner_of_emphasis hpartner
    exact seated_doubled hds h (by omega) hpartner hdoubled hm
  | case4 _ _ _ _ _ hpartner hdoubled _ _ _ ih =>
    obtain ⟨-, hm, hpartner⟩ := partner_of_emphasis hpartner
    exact ih (by omega) (seated_doubled hds h (by omega) hpartner hdoubled hm)
  | case5 i _ _ _ hpartner _ _ _ ih =>
    obtain ⟨hm, -, hpartner⟩ := partner_of_emphasis hpartner
    have hd := hds _ (getElem!_mem (i := i) (by omega))
    have he := hds _ (getElem!_mem (hd.partner _ hpartner))
    exact ih (by omega) (seated_pair h hd he (.inl rfl) (.inl rfl) hm)

theorem joinTexts_cons_of_ne {t : Token} (h : t.kind ≠ .text) (ts : List Token) :
    joinTexts (t :: ts) = t :: joinTexts ts := by
  rw [joinTexts]
  cases joinTexts ts with
  | nil => rfl
  | cons u us => simp [h]

theorem joinTexts_cons_cons_of_ne (u : Token) {t : Token} (h : t.kind ≠ .text) (ts : List Token) :
    joinTexts (u :: t :: ts) = u :: t :: joinTexts ts := by
  rw [joinTexts, joinTexts_cons_of_ne h]
  simp [h]

theorem linksIn_joinTexts (ts : List Token) : Token.linksIn (joinTexts ts) = Token.linksIn ts := by
  induction ts with
  | nil => rfl
  | cons t ts ih =>
    rw [joinTexts, Token.linksIn, ← ih]
    cases joinTexts ts with
    | nil => rfl
    | cons u us =>
      dsimp only
      split
      · next htext =>
        simp only [Bool.and_eq_true, decide_eq_true_eq] at htext
        have ht := Token.links_of_kind (t := t) (by simp [htext.1])
        have hu := Token.links_of_kind (t := u) (by simp [htext.2])
        have hjoined := Token.links_of_kind (t := { u with content := t.content ++ u.content }) (by simp [htext.2])
        rw [Token.linksIn, Token.linksIn, ht, hu, hjoined, Nat.zero_add, Nat.zero_add]
      · rfl

/-- Joining texts takes free seats away, and no seat of an autolink. -/
theorem areSeated_joinTexts (hrow : IsRow ls) {ts : List Token} (h : List.Forall₂ (Seat.Takes deep) ls ts) :
    AreSeated deep (joinTexts ts) := by
  induction hrow generalizing ts with
  | nil =>
    cases h
    exact ⟨[], .nil, .nil⟩
  | @free k ls _ ih =>
    obtain _ | @⟨_, t, _, ts, ht, hts⟩ := h
    obtain ⟨ms, hms, hjoined⟩ := ih hts
    rw [joinTexts]
    cases hrest : joinTexts ts with
    | nil => exact ⟨[.free k], .free k .nil, .cons ht .nil⟩
    | cons u us =>
      rw [hrest] at hjoined
      dsimp only
      split
      · next htext =>
        simp only [Bool.and_eq_true, decide_eq_true_eq] at htext
        obtain _ | @⟨m, _, ms, _, hu, hus⟩ := hjoined
        cases hms with
        | auto => exact absurd (htext.2.symm.trans hu.1) (by decide)
        | free j hms =>
          have hjoinedText : Token.IsTame deep { u with content := t.content ++ u.content } := by
            refine .text htext.2 (hu.1.of_text htext.2).1 fun hmem => ?_
            rcases List.mem_append.1 hmem with hmem | hmem
            · exact (ht.1.of_text htext.1).2 hmem
            · exact (hu.1.of_text htext.2).2 hmem
          have hlinks := Token.links_of_kind (t := { u with content := t.content ++ u.content }) (by simp [htext.2])
          exact ⟨.free 0 :: ms, .free 0 hms, .cons ⟨hjoinedText, hlinks⟩ hus⟩
      · exact ⟨.free k :: ms, .free k hms, .cons ht hjoined⟩
  | @auto ls _ ih =>
    obtain _ | @⟨_, o, _, _, ho, h⟩ := h
    obtain _ | @⟨_, u, _, _, hu, h⟩ := h
    obtain _ | @⟨_, c, _, ts, hc, hts⟩ := h
    obtain ⟨ms, hms, hjoined⟩ := ih hts
    refine ⟨.autoOpen :: .autoText :: .autoClose :: ms, .auto hms, ?_⟩
    rw [joinTexts_cons_of_ne (by simp [ho.1]), joinTexts_cons_cons_of_ne u (by simp [hc.1])]
    exact .cons ho (.cons hu (.cons hc hjoined))

/-- Pairing delimiters whose tokens are in plain seats leaves tokens that can be seated, with as many links as before. -/
theorem areSeated_apply (hrow : IsRow ls) (h : Seated deep ls tokens) (hds : ∀ d ∈ ds, IsFit ls ds.size d) :
    AreSeated deep (apply ds tokens) ∧ Token.linksIn (apply ds tokens) = Token.linksIn tokens.toList := by
  obtain ⟨hsize, hpaired⟩ := fit_pair hds
  rw [← hsize] at hpaired
  have hmarked := seated_emphasizeFrom hpaired (Nat.le_refl _) (seated_strike h hrow hpaired)
  refine ⟨areSeated_joinTexts hrow (seated_iff.1 hmarked), ?_⟩
  exact (linksIn_joinTexts _).trans (hmarked.linksIn_eq.trans h.linksIn_eq.symm)

end Delimiter
end MdxSafe
