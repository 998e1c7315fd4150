-- SUMMARY: Code blocks and HTML blocks are read back from their lines.
import MdxSafe.Proofs.Markdown.Paragraph

/-!
# Reading verbatim blocks

The payload of fenced code may hold anything that looks like a fence as long as the fence is longer than every
run of its character in the payload. An HTML block ends by a mark on its last line or by what follows it.
-/

namespace MdxSafe

-- ---------------------------------------------------------------------------
-- Fences
-- ---------------------------------------------------------------------------

namespace Layout

theorem best_le_longestRun (c : Char) (run best : Nat) (t : Text) : max run best ≤ longestRun c run best t := by
  induction t generalizing run best with
  | nil => exact Nat.le_refl _
  | cons d t ih =>
    rw [longestRun]
    split
    · exact Nat.le_trans (by omega) (ih (run + 1) best)
    · exact Nat.le_trans (by omega) (ih 0 (max run best))

theorem longestRun_append (c : Char) (run best : Nat) (t u : Text) :
    ∃ run' best', longestRun c run best (t ++ u) = longestRun c run' best' u := by
  induction t generalizing run best with
  | nil => exact ⟨run, best, rfl⟩
  | cons d t ih =>
    rw [List.cons_append, longestRun]
    split
    · exact ih (run + 1) best
    · exact ih 0 (max run best)

theorem le_longestRun_takeWhile (c : Char) (run best : Nat) (t : Text) :
    run + (t.takeWhile (· = c)).length ≤ longestRun c run best t := by
  induction t generalizing run best with
  | nil => exact Nat.le_max_left run best
  | cons d t ih =>
    by_cases h : d = c
    · have := ih (run + 1) best
      simp only [longestRun, h, if_true, List.takeWhile_cons, decide_true, List.length_cons]
      omega
    · have := best_le_longestRun c 0 (max run best) t
      simp only [longestRun, h, if_false, List.takeWhile_cons, decide_false, Bool.false_eq_true, List.length_nil]
      omega

/-- No run in a text is longer than the longest one. -/
theorem run_le_longestRun (c : Char) (t u v : Text) :
    (u.takeWhile (· = c)).length ≤ longestRun c 0 0 (t ++ (u ++ v)) := by
  obtain ⟨run, best, h⟩ := longestRun_append c 0 0 t (u ++ v)
  have hrun := le_longestRun_takeWhile c run best (u ++ v)
  have happend : (u.takeWhile (· = c)).length ≤ ((u ++ v).takeWhile (· = c)).length := by
    rw [List.takeWhile_append]
    split
    · next heq => simp [heq]
    · exact Nat.le_refl _
  rw [h]
  omega

end Layout

namespace Outline

/-- The character of the fence of a code block. -/
def fenceMark (opts : Layout.Options) (info : Text) : Char :=
  if opts.fence = .backticks ∧ '`' ∈ info then '~' else opts.fence.mark

theorem fence_eq (opts : Layout.Options) (info payload : Text) :
    fence opts info payload
      = List.replicate (max 3 (Layout.longestRun (fenceMark opts info) 0 0 payload + 1)) (fenceMark opts info) :=
  rfl

theorem fenceMark_eq (opts : Layout.Options) (info : Text) :
    fenceMark opts info = '~' ∨ fenceMark opts info = '`' := by
  unfold fenceMark
  split
  · exact .inl rfl
  · cases opts.fence with
    | backticks => exact .inr rfl
    | tildes => exact .inl rfl

/-- A fence around a payload: three or more of its character, and more than any run in the payload has. -/
structure IsFence (mark : Char) (n : Nat) (payload : Text) : Prop where
  mark_eq : mark = '~' ∨ mark = '`'
  three_le : 3 ≤ n
  longestRun_lt : Layout.longestRun mark 0 0 payload < n

theorem exists_isFence (opts : Layout.Options) (info payload : Text) :
    ∃ n, fence opts info payload = List.replicate n (fenceMark opts info) ∧ IsFence (fenceMark opts info) n payload :=
  ⟨_, fence_eq opts info payload, fenceMark_eq opts info, Nat.le_max_left _ _, by omega⟩

theorem flush_replicate {c : Char} {n : Nat} (hc : c = '~' ∨ c = '`') (hn : 0 < n) (t : Text) :
    flush (List.replicate n c ++ t) := by
  obtain ⟨m, rfl⟩ : ∃ m, n = m + 1 := ⟨n - 1, by omega⟩
  rcases hc with rfl | rfl <;> rfl

namespace IsFence

variable {mark : Char} {n : Nat} {t u v payload : Text}

theorem flush (h : IsFence mark n payload) (t : Text) : flush (List.replicate n mark ++ t) :=
  flush_replicate h.mark_eq (by have := h.three_le; omega) t

/-- A run at any place of the payload is shorter than the fence. -/
theorem run_lt (h : IsFence mark n (t ++ (u ++ v))) : (u.takeWhile (· = mark)).length < n :=
  Nat.lt_of_le_of_lt (Layout.run_le_longestRun mark t u v) h.longestRun_lt

end IsFence

theorem fencedCode_eq {opts : Layout.Options} {info payload : Text}
    (h : payload = [] ∨ payload.getLast? = some '\n') :
    Layout.fencedCode opts info payload
      = fence opts info payload ++ info ++ '\n' :: (payload ++ fence opts info payload) := by
  have hcode : ¬ (payload ≠ [] ∧ payload.getLast? ≠ some '\n') := by tauto
  simp only [Layout.fencedCode, if_neg hcode, fence, List.append_assoc, List.cons_append]

/-- The lines of a code block: the fence with the info text, the lines of the payload, the fence. -/
theorem exists_lines_code {info payload : Text} (hinfo : '\n' ∉ info)
    (h : payload = [] ∨ payload.getLast? = some '\n') :
    ∃ ps : List Text, payload = ps.flatMap (· ++ ['\n']) ∧ ∀ opts : Layout.Options,
      (Leaf.code info payload).lines opts
        = (fence opts info payload ++ info) :: (ps ++ [fence opts info payload]) := by
  obtain ⟨ps, hpayload, hps⟩ := Text.exists_lines h
  refine ⟨ps, hpayload, fun opts => ?_⟩
  have hmark : '\n' ∉ fence opts info payload := by
    rw [fence_eq, List.mem_replicate]
    rcases fenceMark_eq opts info with h | h <;> simp [h]
  have hfirst : '\n' ∉ fence opts info payload ++ info := by simp [hmark, hinfo]
  have hall : ∀ p ∈ (fence opts info payload ++ info) :: ps, '\n' ∉ p :=
    fun p hp => (List.mem_cons.1 hp).elim (fun e => e ▸ hfirst) (hps p)
  have hsplit := Text.splitOn_flatMap_append hall hmark
  rw [List.flatMap_cons, ← hpayload, List.append_assoc, List.append_assoc, List.singleton_append] at hsplit
  rwa [Leaf.lines, Leaf.text, fencedCode_eq h]

end Outline

-- ---------------------------------------------------------------------------
-- Code
-- ---------------------------------------------------------------------------

namespace Fence

/-- What opens a fence is the fence and its info text. -/
theorem eq_of_open? {t : Text} {f : Fence} (h : open? t = some f) :
    t = List.replicate f.length f.mark ++ f.info ∧ 3 ≤ f.length ∧ (f.mark = '~' ∨ f.mark = '`') := by
  cases t with
  | nil => cases h
  | cons c t =>
    rw [open?] at h
    by_cases hmark : c = '~' ∨ c = '`'
    · rw [if_pos hmark] at h
      dsimp only at h
      split at h
      · cases h
      · next hlong =>
        cases h
        rw [not_or, Nat.not_lt] at hlong
        refine ⟨?_, hlong.1, hmark⟩
        have hrun : (c :: t).takeWhile (· = c) = List.replicate ((c :: t).takeWhile (· = c)).length c :=
          List.eq_replicate_iff.2 ⟨rfl, fun d hd => by simpa using List.mem_takeWhile_imp hd⟩
        rw [← hrun]
        exact (List.prefix_iff_eq_append.1 (List.takeWhile_prefix _)).symm
    · rw [if_neg hmark] at h
      cases h

/-- A fence opens with its characters and an info text that does not go on with them. -/
theorem open?_replicate {c : Char} {n : Nat} {info : Text} (hc : c = '~' ∨ c = '`') (hn : 3 ≤ n)
    (hinfo : info.head? ≠ some c) (htick : c = '`' → '`' ∉ info) :
    open? (List.replicate n c ++ info) = some ⟨c, n, info⟩ := by
  have hrun : (List.replicate n c ++ info).takeWhile (· = c) = List.replicate n c := by
    rw [List.takeWhile_append_of_pos (by simp)]
    cases info with
    | nil => simp
    | cons d info =>
      have hd : d ≠ c := fun heq => hinfo (by rw [heq, List.head?_cons])
      simp [hd]
  obtain ⟨m, rfl⟩ : ∃ m, n = m + 1 := ⟨n - 1, by omega⟩
  rw [List.replicate_succ, List.cons_append] at hrun ⊢
  rw [open?, if_pos hc, hrun]
  have hlength : (c :: List.replicate m c).length = m + 1 := by simp
  have hdrop : (c :: (List.replicate m c ++ info)).drop (m + 1) = info := by
    rw [List.drop_succ_cons]
    exact List.drop_left' (List.length_replicate)
  dsimp only
  rw [hlength, hdrop, if_neg]
  rintro (hlt | ⟨htilde, hmem⟩)
  · omega
  · exact htick htilde hmem

/-- A line that opens a fence and gives an info text back starts with a fence of all characters before. -/
theorem open?_append {c : Char} {n : Nat} {info : Text} {f : Fence} (hn : 0 < n)
    (h : Fence.open? (List.replicate n c ++ info) = some f) (hinfo : f.info = info) : f = ⟨c, n, info⟩ := by
  obtain ⟨heq, -, -⟩ := eq_of_open? h
  rw [hinfo] at heq
  have hfence := List.append_cancel_right heq
  have hlength : n = f.length := by simpa using congrArg List.length hfence
  have hmark : c ∈ List.replicate f.length f.mark := hfence ▸ List.mem_replicate.2 ⟨by omega, rfl⟩
  obtain ⟨mark, length, info'⟩ := f
  obtain rfl : c = mark := List.eq_of_mem_replicate hmark
  rw [Fence.mk.injEq]
  exact ⟨rfl, hlength.symm, hinfo⟩

/-- A fence closes with a line of exactly its characters. -/
theorem isClosedBy_replicate (c : Char) (n : Nat) (info : Text) :
    Fence.isClosedBy ⟨c, n, info⟩ (List.replicate n c) = true := by
  simp [Fence.isClosedBy]

/-- A fence does not close with a line whose first characters are too few. -/
theorem isClosedBy_eq_false {c : Char} {n : Nat} {info t : Text} (h : (t.takeWhile (· = c)).length < n) :
    Fence.isClosedBy ⟨c, n, info⟩ t = false := by
  simp only [Fence.isClosedBy, Bool.and_eq_false_iff, decide_eq_false_iff_not]
  left
  omega

end Fence

namespace Block

open Outline

variable {z : Zone} {i stop fuel : Nat} {refs : List Reference} {opts : Layout.Options} {gap : Text → Prop}

theorem fenceEnd_eq {f : Fence} {n : Nat} {s : Text}
    (hgo : ∀ k, i ≤ k → k < n → ∃ t, z.Shows k t ∧ f.isClosedBy (afterIndent t) = false)
    (hs : z.Shows n s) (hflush : flush s) (hclosed : f.isClosedBy s = true) (hin : i ≤ n) (hstop : n < stop)
    (hfuel : n < i + fuel) : z.fenceEnd f stop fuel i = (n, true) := by
  induction fuel generalizing i with
  | zero => omega
  | succ fuel ih =>
    rw [Zone.fenceEnd]
    by_cases h : i = n
    · subst h
      have hempty : (z.line i).isEmpty = false := hs.isEmpty_eq_false hflush
      have hcontent : (z.line i).content = s := hs.content_eq_self hflush
      have hout := hs.isOutside_eq (ne_nil_of_flush hflush)
      simp [Nat.not_le.2 hstop, hempty, hout, hcontent, hs.isCode_eq hflush, hclosed]
    · obtain ⟨t, ht, hopen⟩ := hgo i (Nat.le_refl i) (by omega)
      have hcontent : (z.line i).content = afterIndent t := ht.content_eq
      have hout : (!(z.line i).isEmpty && z.isOutside i) = false := by
        by_cases hne : t = []
        · have : (z.line i).isEmpty = true := by rw [← Zone.isEmpty, ht.isEmpty_eq, hne]; rfl
          simp [this]
        · simp [ht.isOutside_eq hne]
      simp only [hout, ht.ended_eq, hcontent, hopen, Bool.not_true, Bool.and_false, Bool.or_false,
        decide_eq_true_eq, Bool.false_eq_true, if_false]
      rw [if_neg (by omega)]
      exact ih (fun k hik hk => hgo k (by omega) hk) (by omega) (by omega)

/-- No line of a payload closes the fence around it. -/
theorem isClosedBy_payload {mark : Char} {n : Nat} {info p : Text} {ps : List Text}
    (h : IsFence mark n (ps.flatMap (· ++ ['\n']))) (hp : p ∈ ps) :
    Fence.isClosedBy ⟨mark, n, info⟩ (afterIndent p) = false := by
  obtain ⟨us, vs, rfl⟩ := List.append_of_mem hp
  have hsplit : (us ++ p :: vs).flatMap (· ++ ['\n'])
      = us.flatMap (· ++ ['\n']) ++ p.takeWhile isIndent ++ (afterIndent p ++ '\n' :: vs.flatMap (· ++ ['\n'])) := by
    rw [List.append_assoc, ← List.append_assoc (p.takeWhile isIndent), takeWhile_append_afterIndent]
    simp
  rw [hsplit] at h
  exact Fence.isClosedBy_eq_false h.run_lt

theorem reads_code {info payload : Text} (hl : (Leaf.code info payload).isLaid opts)
    (hsees : z.Sees i stop ((Leaf.code info payload).lines opts))
    (hfollow : z.Follows (i + ((Leaf.code info payload).lines opts).length) stop
      (fun f => (Leaf.code info payload).admits f) gap) :
    block (fuel + 1) z refs i stop
      = .ok ⟨((Leaf.code info payload).tokens opts false).toArray,
          i + ((Leaf.code info payload).lines opts).length, refs, true⟩ := by
  replace hl := isLaid_code_iff.1 hl
  have htable := tableHead?_eq_none_of_sees hsees.shows (Text.splitOn_ne_nil _ _) hl.table hfollow
    (fun f hf => noDelimiter_of_admits hf) hsees.stop_le
  obtain ⟨ps, hpayload, hlines⟩ := exists_lines_code hl.line hl.ended
  rw [hlines] at hsees ⊢
  obtain ⟨f, hf, hinfo⟩ := (Option.any_eq_true _ _).1 hl.opens
  obtain ⟨n, hfence, hn⟩ := exists_isFence opts info payload
  generalize fenceMark opts info = mark at hfence hn
  have hthree := hn.three_le
  rw [hfence] at hsees hf
  -- the fence that the first line opens is the fence that was written
  obtain rfl := Fence.open?_append (by omega) hf (of_decide_eq_true hinfo)
  have hflush := hn.flush info
  have hs := hsees.shows.head
  have hpays : z.ShowsAll (i + 1) ps := hsees.shows.tail.left
  have hlast : z.Shows (i + 1 + ps.length) (List.replicate n mark) := hsees.shows.tail.right.head
  have hle := hsees.le_stop
  simp only [List.length_cons, List.length_append, List.length_nil] at hle ⊢
  have hopens : ∀ k, i + 1 ≤ k → k < i + 1 + ps.length →
      ∃ t, z.Shows k t ∧ Fence.isClosedBy ⟨mark, n, info⟩ (afterIndent t) = false := by
    intro k hik hk
    obtain ⟨p, hp, hshows⟩ := hpays.exists_mem hik hk
    exact ⟨p, hshows, isClosedBy_payload (hpayload ▸ hn) hp⟩
  have hend : z.fenceEnd ⟨mark, n, info⟩ stop (stop - i + 1) (i + 1) = (i + 1 + ps.length, true) :=
    fenceEnd_eq hopens hlast (by simpa using hn.flush []) (Fence.isClosedBy_replicate mark n info) (by omega)
      (by omega) (by omega)
  have htext : z.text (z.indent i) true (i + 1) (i + 1 + ps.length) = payload := by
    rw [hs.indent_eq hflush, Zone.text_keepEnd hpays, ← hpayload]
  have hbefore : leafBefore? z i stop
      = .ok (some ([{ kind := .fence, info, markup := List.replicate n mark, content := payload }],
          i + 1 + ps.length + 1)) := by
    simp only [leafBefore?, Zone.frontMatterAt?_eq_none hsees.plain, htable, hs.isCode_eq hflush,
      hs.fence?_eq hflush, hf, Option.map_some, hend, htext]
    rfl
  have hnext : i + (ps.length + (0 + 1) + 1) = i + 1 + ps.length + 1 := by omega
  rw [block_of_leafBefore hbefore, Leaf.tokens, hfence, hnext]

-- ---------------------------------------------------------------------------
-- HTML
-- ---------------------------------------------------------------------------

theorem exists_cons_of_html {s : Text} {k : HtmlBlock.Kind} (h : HtmlBlock.kind? s = some k) :
    ∃ t, s = '<' :: t := by
  match s with
  | [] => cases h
  | c :: t =>
    by_cases hc : c = '<'
    · exact ⟨t, by rw [hc]⟩
    · rw [HtmlBlock.kind?_eq_none t hc] at h
      cases h

theorem endsAt_nil (k : HtmlBlock.Kind) : k.endsAt [] = !endsByMark k := by
  cases k <;> decide

/-- Where an HTML block ends: on the line before `n` by its mark, or before what does not belong to it. -/
theorem htmlEnd_eq {k : HtmlBlock.Kind} {n : Nat}
    (hgo : ∀ j, i ≤ j → j < n → j < stop ∧ (!z.isEmpty j && z.isOutside j) = false
      ∧ (k.endsAt (z.content j) = true → j + 1 = n ∧ z.content j ≠ []))
    (hend : (i < n ∧ k.endsAt (z.content (n - 1))) ∨ stop ≤ n ∨ (!z.isEmpty n && z.isOutside n) = true
      ∨ (k.endsAt (z.content n) ∧ z.content n = []))
    (hin : i ≤ n) (hfuel : n ≤ i + fuel) : z.htmlEnd k stop fuel i = n := by
  induction fuel generalizing i with
  | zero =>
    rw [Zone.htmlEnd]
    omega
  | succ fuel ih =>
    rw [Zone.htmlEnd]
    by_cases h : i = n
    · subst h
      rcases hend with ⟨hlt, -⟩ | hs | ho | ⟨he, hc⟩
      · omega
      · simp [hs]
      · simp [ho]
      · rw [if_pos he, if_pos hc, ite_self]
    · obtain ⟨hlt, ho, he⟩ := hgo i (Nat.le_refl i) (by omega)
      rw [if_neg (by simp [ho, hlt])]
      by_cases hk : k.endsAt (z.content i) = true
      · obtain ⟨hn, hc⟩ := he hk
        rw [if_pos hk, if_neg hc, hn]
      · rw [if_neg hk]
        refine ih (fun j hij hj => hgo j (by omega) hj) ?_ (by omega) (by omega)
        rcases hend with ⟨-, hk'⟩ | hrest
        · by_cases hlast : i + 1 = n
          · have hi : n - 1 = i := by omega
            rw [hi] at hk'
            exact absurd hk' hk
          · exact .inl ⟨by omega, hk'⟩
        · exact .inr hrest

/-- The mark that ends an HTML block stands on its last line only. -/
theorem endsAt_iff_of_endsOnLast {k : HtmlBlock.Kind} {ss : List Text} (hshows : z.ShowsAll i ss)
    (h : endsOnLast k ss) {j : Nat} (hij : i ≤ j) (hj : j < i + ss.length) :
    k.endsAt (z.content j) = true ↔ j + 1 = i + ss.length := by
  induction ss generalizing i with
  | nil =>
    rw [List.length_nil] at hj
    omega
  | cons s ss ih =>
    cases ss with
    | nil =>
      have hji : j = i := by
        rw [List.length_singleton] at hj
        omega
      subst hji
      rw [hshows.head.content_eq, List.length_singleton]
      simpa [endsOnLast] using h
    | cons t ts =>
      simp only [endsOnLast, Bool.and_eq_true, Bool.not_eq_true'] at h
      have hlen : i + (s :: t :: ts).length = i + 1 + (t :: ts).length := by
        rw [List.length_cons]
        omega
      rw [hlen] at hj ⊢
      by_cases hji : j = i
      · subst hji
        rw [hshows.head.content_eq, h.1, List.length_cons]
        simp
      · exact ih hshows.tail h.2 (by omega) hj

theorem endsAt_eq_of_not_endsByMark {k : HtmlBlock.Kind} (h : endsByMark k = false) (t : Text) :
    k.endsAt t = decide (t = []) := by
  cases k <;> first | rfl | cases h

/-- Before what follows an HTML block without an end mark, the block ends. -/
theorem ends_html {n : Nat} {touch : Text → Prop} (hfollow : z.Follows n stop touch gap)
    (hstop : stop ≤ z.bound) (htouch : ∀ f, ¬ touch f) :
    stop ≤ n ∨ (!z.isEmpty n && z.isOutside n) = true ∨ z.content n = [] := by
  cases hfollow with
  | atEnd hn => exact .inl (by omega)
  | stopGap hn => exact .inl (by omega)
  | outside _ hs => exact .inr (.inr hs.content_eq)
  | gap _ hs => exact .inr (.inr hs.content_eq)
  | sibling _ hne _ ho =>
    have ho : z.isOutside n = true := decide_eq_true ho
    exact .inr (.inl (by rw [hne, ho]; rfl))
  | touch _ f _ _ hf => exact absurd hf (htouch f)

/-- The line after an HTML block is the line after its lines. -/
theorem htmlNext_eq {k : HtmlBlock.Kind} {s : Text} {ss : List Text} {touch : Text → Prop}
    (hsees : z.Sees i stop (s :: ss)) (hflush : flush s)
    (hends : if endsByMark k then endsOnLast k (s :: ss) else ss.all fun t => !blank t)
    (hfollow : z.Follows (i + (s :: ss).length) stop touch gap) (htouch : endsByMark k = false → ∀ f, ¬ touch f) :
    (if k.endsAt (z.content i) then i + 1 else z.htmlEnd k stop (stop - i + 1) (i + 1))
      = i + (s :: ss).length := by
  have hle := hsees.le_stop
  have hpos : 0 < (s :: ss).length := Nat.succ_pos _
  have hinside : ∀ j, i ≤ j → j < i + (s :: ss).length → (!z.isEmpty j && z.isOutside j) = false := by
    intro j hij hj
    obtain ⟨t, -, ht⟩ := hsees.shows.exists_mem hij hj
    by_cases hne : t = []
    · simp [ht.isEmpty_eq, hne, blank]
    · simp [ht.isOutside_eq hne]
  by_cases hmark : endsByMark k
  · rw [if_pos hmark] at hends
    have hiff := fun j => endsAt_iff_of_endsOnLast (j := j) hsees.shows hends
    by_cases hone : k.endsAt (z.content i)
    · rw [if_pos hone, (hiff i (Nat.le_refl i) (by omega)).1 hone]
    · have hlast : i + 1 ≠ i + (s :: ss).length := fun h => hone ((hiff i (Nat.le_refl i) (by omega)).2 h)
      rw [if_neg hone]
      refine htmlEnd_eq ?_ (.inl ⟨by omega, (hiff _ (by omega) (by omega)).2 (by omega)⟩) (by omega) (by omega)
      intro j hij hj
      refine ⟨by omega, hinside j (by omega) hj, fun he => ⟨(hiff j (by omega) hj).1 he, ?_⟩⟩
      intro hc
      rw [hc, endsAt_nil, hmark] at he
      cases he
  · rw [Bool.not_eq_true] at hmark
    rw [hmark, if_neg (by simp), List.all_eq_true] at hends
    have hone : k.endsAt (z.content i) = false := by
      rw [endsAt_eq_of_not_endsByMark hmark, hsees.shows.head.content_eq_self hflush]
      simpa using ne_nil_of_flush hflush
    rw [hone, if_neg (by simp)]
    refine htmlEnd_eq ?_ (.inr ?_) (by omega) (by omega)
    · intro j hij hj
      refine ⟨by omega, hinside j (by omega) hj, fun he => ?_⟩
      obtain ⟨t, ht, hshows⟩ := hsees.shows.tail.exists_mem hij (by rw [List.length_cons] at hj; omega)
      have hblank := hends t ht
      rw [endsAt_eq_of_not_endsByMark hmark, decide_eq_true_eq, hshows.content_eq, ← blank_iff_afterIndent] at he
      simp [he] at hblank
    · rcases ends_html hfollow hsees.stop_le (htouch hmark) with h | h | h
      · exact .inl h
      · exact .inr (.inl h)
      · refine .inr (.inr ⟨?_, h⟩)
        rw [endsAt_eq_of_not_endsByMark hmark, h]
        rfl

theorem reads_html {v : Text} (hl : (Leaf.html v).isLaid opts) (hsees : z.Sees i stop ((Leaf.html v).lines opts))
    (hfollow : z.Follows (i + ((Leaf.html v).lines opts).length) stop (fun f => (Leaf.html v).admits f) gap) :
    block (fuel + 1) z refs i stop
      = .ok ⟨((Leaf.html v).tokens opts false).toArray, i + ((Leaf.html v).lines opts).length, refs, true⟩ := by
  obtain ⟨s, ss, k, hl⟩ := isLaid_html_iff.1 hl
  have hlines : (Leaf.html v).lines opts = s :: ss := hl.lines
  have htext := Text.flatMap_splitOn v
  rw [hl.lines] at htext
  rw [hlines] at hsees hfollow ⊢
  have hs := hsees.shows.head
  have htable := tableHead?_eq_none_of_sees hsees.shows (by simp) hl.table hfollow
    (fun f hf => noDelimiter_of_admits hf) hsees.stop_le
  have htouch : endsByMark k = false → ∀ f, ¬ (Leaf.html v).admits f := by
    intro hmark f hf
    simp [Leaf.admits, Leaf.isClosed, hl.lines, hl.kind, hmark] at hf
  have hnext := htmlNext_eq hsees hl.flush hl.ends hfollow htouch
  have hcut : (z.line (i + (s :: ss).length - 1)).isCutOff = false := by
    obtain ⟨t, -, ht⟩ := hsees.shows.exists_mem (k := i + (s :: ss).length - 1) (by simp) (by simp)
    exact ht.isCutOff_eq
  obtain ⟨t, ht⟩ := exists_cons_of_html hl.kind
  have hbefore : leafBefore? z i stop = .ok none :=
    leafBefore?_eq_none hs hl.flush hsees.plain htable (ht ▸ Fence.open?_eq_none t (by decide))
  refine block_of_leafAfter hbefore hs hl.flush (by simp [ht]) (ht ▸ thematicBreak?_eq_none t (by decide))
    (ht ▸ ListMarker.read?_eq_none t (by decide) (by decide)) (definition?_eq_none_of_head hs hl.flush (by simp [ht]))
    (r := ([{ kind := .htmlBlock, content := v ++ ['\n'] }], i + (s :: ss).length)) ?_
  simp only [leafAfter, hs.html?_eq hl.flush, hl.kind, hnext, hcut, Zone.text_keepEnd hsees.shows, htext,
    Bool.false_and, Bool.false_eq_true, if_false]

end Block
end MdxSafe
