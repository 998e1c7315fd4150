-- SUMMARY: The tokens that running text is read into file tame nodes.
import MdxSafe.Proofs.Markdown.Pairing
import MdxSafe.Proofs.Markdown.Piece
import MdxSafe.Proofs.Markdown.Running

/-!
# Reading running text

While running text is read, the tokens of its draft stay seated, with every delimiter on a plain seat (`isTame_run`).
Line ends become literal at the greatest depth of links only, and a draft that is read there holds as many links as the
text is deep (`links_run_le`). So the nodes of running text are tame, but for line ends in a text that holds at least
that many links (`isTame_parse`).
-/

namespace MdxSafe

open Assembly

theorem Token.linksIn_append (ts us : List Token) : linksIn (ts ++ us) = linksIn ts + linksIn us := by
  simp [linksIn_eq_sum]

theorem Seated.append {deep : Prop} {ls ms : List Seat} {tokens : Array Token} {ts : List Token}
    (h : Seated deep ls tokens) (h' : List.Forall₂ (Seat.Takes deep) ms ts) :
    Seated deep (ls ++ ms) (tokens ++ ts.toArray) := by
  rw [seated_iff, Array.toList_append]
  exact List.rel_append (seated_iff.1 h) h'

theorem IsPlainAt.append {ls : List Seat} {i : Nat} (h : IsPlainAt ls i) (ms : List Seat) : IsPlainAt (ls ++ ms) i := by
  have hi : i < ls.length := (List.getElem?_eq_some_iff.1 h).1
  rwa [IsPlainAt, List.getElem?_append_left hi]

namespace Inline

-- ---------------------------------------------------------------------------
-- Drafts
-- ---------------------------------------------------------------------------

namespace Draft

/-- The tokens of a draft are seated, its delimiters are on plain seats and not paired yet, and no line end is literal
in it unless `deep` holds. -/
structure IsSeated (deep : Prop) (ls : List Seat) (d : Draft) : Prop where
  row : IsRow ls
  seated : Seated deep ls d.tokens
  plain : ∀ e ∈ d.delimiters, IsPlainAt ls e.token ∧ e.partner = none
  pending : '\n' ∈ d.pending → deep

/-- The tokens of a draft can be seated. -/
def IsTame (deep : Prop) (d : Draft) : Prop := ∃ ls, d.IsSeated deep ls

/-- The number of links in a draft. -/
def links (d : Draft) : Nat := Token.linksIn d.tokens.toList

variable {deep : Prop} {d : Draft} {t : Token} {ts : List Token} {u : Text}

theorem isTame_empty : IsTame deep {} := ⟨[], .nil, seated_iff.2 .nil, by simp, by simp⟩

theorem pending_flush (d : Draft) : d.flush.pending = [] := by
  unfold flush
  split
  · next h => exact h
  · rfl

theorem IsSeated.append {ls ms : List Seat} (h : d.IsSeated deep ls) (hrow : IsRow ms)
    (hts : List.Forall₂ (Seat.Takes deep) ms ts) (hu : '\n' ∈ u → deep) :
    ({ d with tokens := d.tokens ++ ts.toArray, pending := u } : Draft).IsSeated deep (ls ++ ms) where
  row := h.row.append hrow
  seated := h.seated.append hts
  plain e he := ⟨(h.plain e he).1.append ms, (h.plain e he).2⟩
  pending := hu

theorem IsTame.addChars (h : d.IsTame deep) (hu : '\n' ∈ u → deep) : (d.addChars u).IsTame deep := by
  obtain ⟨ls, hrow, hseated, hplain, hpending⟩ := h
  refine ⟨ls, hrow, hseated, hplain, fun hmem => ?_⟩
  rw [Draft.addChars, List.reverseAux_eq] at hmem
  rcases List.mem_append.1 hmem with hmem | hmem
  · exact hu (List.mem_reverse.1 hmem)
  · exact hpending hmem

theorem IsTame.flush (h : d.IsTame deep) : d.flush.IsTame deep := by
  unfold Draft.flush
  split
  · exact h
  · obtain ⟨ls, h⟩ := h
    have hliteral : Seat.Takes deep (.free 0) (.literal d.pending.reverse) :=
      Delimiter.takes_literal fun hmem => h.pending (List.mem_reverse.1 hmem)
    refine ⟨ls ++ [.free 0], ?_⟩
    rw [← Array.append_singleton]
    exact h.append (.free 0 .nil) (.cons hliteral .nil) (by simp)

theorem links_flush (d : Draft) : d.flush.links = d.links := by
  unfold flush
  split
  · rfl
  · rw [links, Array.toList_push, Token.linksIn_append]
    rfl

-- ---------------------------------------------------------------------------
-- Pushing tokens
-- ---------------------------------------------------------------------------

theorem push_eq (d : Draft) (t : Token) : d.push t = { d.flush with tokens := d.flush.tokens.push t } := rfl

theorem flush_push (d : Draft) (t : Token) : (d.push t).flush = d.push t := if_pos (pending_flush d)

theorem foldl_push_cons (d : Draft) (t : Token) (ts : List Token) :
    (t :: ts).foldl push d = { d.flush with tokens := d.flush.tokens ++ (t :: ts).toArray } := by
  induction ts generalizing d t with
  | nil => simp [push_eq]
  | cons u ts ih =>
    have hrest := ih (d.push t) u
    rw [flush_push] at hrest
    rw [List.foldl_cons, hrest, push_eq]
    simp

theorem IsTame.foldl_push (h : d.IsTame deep) (hts : AreSeated deep ts) : (ts.foldl push d).IsTame deep := by
  cases ts with
  | nil => exact h
  | cons t ts =>
    obtain ⟨ls, hflush⟩ := h.flush
    obtain ⟨ms, hrow, hts⟩ := hts
    rw [foldl_push_cons]
    exact ⟨ls ++ ms, hflush.append hrow hts hflush.pending⟩

theorem links_foldl_push (d : Draft) (ts : List Token) : (ts.foldl push d).links = d.links + Token.linksIn ts := by
  cases ts with
  | nil => rfl
  | cons t ts =>
    rw [foldl_push_cons, links, Array.toList_append, Token.linksIn_append, ← links_flush d]
    rfl

theorem IsTame.push (h : d.IsTame deep) (ht : AreSeated deep [t]) : (d.push t).IsTame deep := h.foldl_push ht

theorem links_push (d : Draft) (t : Token) : (d.push t).links = d.links + t.links := links_foldl_push d [t]

theorem isTame_dropPending (h : d.IsTame deep) (hu : u <:+ d.pending) : ({ d with pending := u } : Draft).IsTame deep := by
  obtain ⟨ls, hrow, hseated, hplain, hpending⟩ := h
  exact ⟨ls, hrow, hseated, hplain, fun hmem => hpending (hu.mem hmem)⟩

theorem IsTame.addLineEnd (h : d.IsTame deep) : d.addLineEnd.IsTame deep := by
  have hbreak : ∀ {kind : TokenKind}, kind = .softBreak ∨ kind = .hardBreak → AreSeated deep [({ kind } : Token)] := by
    intro kind hkind
    exact .single (.lineEnd hkind rfl) (by rcases hkind with rfl | rfl <;> simp)
  unfold Draft.addLineEnd
  split
  · next rest hpending =>
    refine (isTame_dropPending h ?_).push (hbreak (.inr rfl))
    exact hpending ▸ (List.dropWhile_suffix _).trans ⟨[' ', ' '], rfl⟩
  · next rest _ hpending => exact (isTame_dropPending h (hpending ▸ List.suffix_cons ..)).push (hbreak (.inl rfl))
  · exact h.push (hbreak (.inl rfl))

theorem links_addLineEnd (d : Draft) : d.addLineEnd.links = d.links := by
  unfold addLineEnd
  split <;> exact links_push _ _

theorem IsTame.addDelimiter (h : d.IsTame deep) (marker : Char) (hu : '\n' ∉ u) (length : Nat) (flanks : Bool × Bool) :
    (d.addDelimiter marker u length flanks).IsTame deep := by
  obtain ⟨ls, hflush⟩ := h.flush
  have hpush : (d.push (.literal u)).IsSeated deep (ls ++ [.free 0]) := by
    rw [push_eq, ← Array.append_singleton]
    exact hflush.append (.free 0 .nil) (.cons (Delimiter.takes_literal fun hmem => absurd hmem hu) .nil) hflush.pending
  refine ⟨ls ++ [.free 0], hpush.row, hpush.seated, fun e he => ?_, hpush.pending⟩
  rcases Array.mem_push.1 he with he | rfl
  · exact hpush.plain e he
  · have hlast : (d.push (.literal u)).tokens.size - 1 = ls.length := by
      rw [← hpush.seated.length, List.length_append]
      rfl
    refine ⟨?_, rfl⟩
    show IsPlainAt _ ((d.push (.literal u)).tokens.size - 1)
    rw [hlast, IsPlainAt]
    simp

theorem links_addDelimiter (d : Draft) (marker : Char) (u : Text) (length : Nat) (flanks : Bool × Bool) :
    (d.addDelimiter marker u length flanks).links = d.links := links_push d (.literal u)

/-- Turning pairs of delimiters into elements leaves the tokens seated, and the links in them. -/
theorem IsTame.finish (h : d.IsTame deep) : AreSeated deep d.finish ∧ Token.linksIn d.finish = d.links := by
  obtain ⟨ls, hflush⟩ := h.flush
  have hfit : ∀ e ∈ d.flush.delimiters, Delimiter.IsFit ls d.flush.delimiters.size e := by
    intro e he
    obtain ⟨hplain, hnone⟩ := hflush.plain e he
    exact ⟨hplain, by simp [hnone]⟩
  obtain ⟨hseated, hlinks⟩ := Delimiter.areSeated_apply hflush.row hflush.seated hfit
  exact ⟨hseated, hlinks.trans (links_flush d)⟩

end Draft

-- ---------------------------------------------------------------------------
-- Runs of delimiters
-- ---------------------------------------------------------------------------

variable {deep : Prop} {s : Scope} {d : Draft}

theorem isTame_addRun? {i : Nat} {c : Char} {r : Draft × Nat} (hd : d.IsTame deep) (h : addRun? s d i c = some r) :
    r.1.IsTame deep := by
  refine addRun?_keeps (fun d hd => hd.push (.single (.text rfl rfl ?_) (by decide)))
    (fun d c u n flanks hu hd => hd.addDelimiter c hu n flanks) hd h
  exact fun hmem => absurd hmem (by decide)

theorem links_addRun? {i : Nat} {c : Char} {r : Draft × Nat} (h : addRun? s d i c = some r) : r.1.links = d.links :=
  addRun?_keeps (p := fun e => e.links = d.links) (fun e he => (e.links_push _).trans he)
    (fun e c u n flanks _ he => (e.links_addDelimiter c u n flanks).trans he) rfl h

-- ---------------------------------------------------------------------------
-- Running text
-- ---------------------------------------------------------------------------

theorem linksIn_linkTokens (target : LinkTarget) (inner : List Token) :
    Token.linksIn (linkTokens target inner) = Token.linksIn inner + 1 := by
  have hopen : ∀ attrs : Fields, Token.links { Token.opening .linkOpen [] with attrs } = 1 := fun _ => rfl
  rw [linkTokens, Token.linksIn_append, Token.linksIn, hopen, Nat.add_comm 1]
  rfl

theorem areSeated_linkTokens {target : LinkTarget} (htarget : '\n' ∉ target.href) {inner : List Token}
    (h : AreSeated deep inner) : AreSeated deep (linkTokens target inner) := by
  have hclose : AreSeated deep [.closing .linkClose []] := .single (.closes (.inr (.inr (.inr rfl))) rfl) (by decide)
  refine AreSeated.append (AreSeated.cons (k := 1) ⟨?_, rfl⟩ h) hclose
  exact .link rfl rfl rfl (Token.notMem_attrText rfl htarget)

/-- An image is tame if the tokens of its description are seated. -/
theorem areSeated_imageToken {target : LinkTarget} (htarget : '\n' ∉ target.href) (content : Text) {inner : List Token}
    (h : AreSeated deep inner) : AreSeated deep [imageToken target content inner] := by
  refine AreSeated.nil.cons (k := (imageToken target content inner).links) ⟨?_, rfl⟩
  exact .image rfl rfl (Token.notMem_attrText rfl htarget) fun _ hassemble => (preserves_isTame h).of_assemble hassemble

theorem links_imageToken (target : LinkTarget) (content : Text) (inner : List Token) :
    (imageToken target content inner).links = Token.linksIn inner := rfl

theorem at?_source {i : Nat} {c : Char} (h : s.at? i = some c) : s.source.at? i = some c := by
  unfold Scope.at? at h
  split at h
  · exact h
  · cases h

/-- Reading on takes no link away. -/
theorem links_run_le (fuel : Nat) (s : Scope) (memo : Memo) (d : Draft) (i : Nat) :
    d.links ≤ (run fuel s memo d i).2.links := by
  induction fuel generalizing s memo d i with
  | zero => exact Nat.le_refl _
  | succ fuel ih =>
    rw [run]
    split
    · exact Nat.le_refl _
    · split
      · exact ih s memo (d.addChars _) _
      · split
        · next hrun => exact (links_addRun? hrun).symm.trans_le (ih s memo _ _)
        · split
          · exact ih s _ (d.addChars _) _
          · split
            · exact ih s _ (d.addChars _) _
            · exact d.links_addLineEnd.symm.trans_le (ih s _ _ _)
            · exact (Nat.le_add_right ..).trans ((d.links_foldl_push _).symm.trans_le (ih s _ _ _))
            · exact (Nat.le_add_right ..).trans ((d.links_foldl_push _).symm.trans_le (ih s _ _ _))
            · exact (Nat.le_add_right ..).trans ((d.links_push _).symm.trans_le (ih s _ _ _))

/-- The tokens of a draft that is read at a depth are seated if the text around it ends with as many links as that depth
and the draft make. What is asked of line ends is left open in the hypothesis, as the links of the draft are counted by
what it is seated for without any such demand. -/
theorem areSeated_finish {depth n : Nat} (h : ∀ p : Prop, (maxDepth ≤ depth + d.links → p) → d.IsTame p)
    (hle : depth + Token.linksIn d.finish ≤ n) (hdeep : maxDepth ≤ n → deep) : AreSeated deep d.finish := by
  have hlinks := (h True fun _ => trivial).finish.2
  exact (h deep fun hmax => hdeep (by omega)).finish.1

/-- Reading keeps a draft tame. At the greatest depth line ends are literal; then the draft that is read there, or one
around it, has as many links as the text is deep. -/
theorem isTame_run (fuel : Nat) {s : Scope} {t : Text} (hsource : s.source = .ofText t)
    (hrefs : Reference.AreUnbroken s.refs) (memo : Memo) {d : Draft} (i : Nat) (hd : d.IsTame deep)
    (hdeep : maxDepth ≤ s.depth + (run fuel s memo d i).2.links → deep) : (run fuel s memo d i).2.IsTame deep := by
  induction fuel generalizing s t memo d i deep with
  | zero => exact hd
  | succ fuel ih =>
    rw [run] at hdeep ⊢
    split
    · exact hd
    next c hc =>
    rw [hc] at hdeep
    dsimp only at hdeep
    split
    · next hmax =>
      rw [if_pos hmax] at hdeep
      exact ih hsource hrefs memo _ (hd.addChars fun _ => hdeep (by omega)) hdeep
    next hmax =>
    rw [if_neg hmax] at hdeep
    split
    · next d' j hrun =>
      rw [hrun] at hdeep
      exact ih hsource hrefs memo _ (isTame_addRun? hd hrun) hdeep
    next hrun =>
    rw [hrun] at hdeep
    dsimp only at hdeep
    split
    · next memo' hpiece =>
      rw [hpiece] at hdeep
      have hne : '\n' ∉ [c] := by
        intro hmem
        rw [← List.mem_singleton.1 hmem] at hc
        exact pieceAt_ne_none (at?_source hc) (congrArg Prod.snd hpiece)
      exact ih hsource hrefs memo' _ (hd.addChars fun hmem => absurd hmem hne) hdeep
    next memo' piece j hpiece =>
    rw [hpiece] at hdeep
    have hseated : piece.IsSeated deep := isSeated_pieceAt hsource hrefs (congrArg Prod.snd hpiece)
    split <;> dsimp only at hdeep ⊢
    · exact ih hsource hrefs memo' _ (hd.addChars fun hmem => absurd hmem hseated) hdeep
    · exact ih hsource hrefs memo' _ hd.addLineEnd hdeep
    · exact ih hsource hrefs memo' _ (hd.foldl_push hseated) hdeep
    · next target start stop =>
      refine ih hsource hrefs _ _ (hd.foldl_push (areSeated_linkTokens hseated ?_)) hdeep
      refine areSeated_finish (fun p => ih (s := { s with stop, depth := s.depth + 1 }) hsource hrefs memo' start
        Draft.isTame_empty) ?_ hdeep
      refine Nat.le_trans ?_ (Nat.add_le_add_left (links_run_le ..) s.depth)
      rw [Draft.links_foldl_push, linksIn_linkTokens]
      dsimp only
      omega
    · next target start stop =>
      -- the description of an image is a text of its own, at no depth
      refine ih hsource hrefs _ _ (hd.push (areSeated_imageToken hseated _ ?_)) hdeep
      refine areSeated_finish (fun p => ih (s := { s with source := .ofText _, stop := _, depth := 0 }) rfl hrefs _ 0
        Draft.isTame_empty) ?_ hdeep
      refine Nat.le_trans ?_ (Nat.add_le_add_left (links_run_le ..) s.depth)
      rw [Draft.links_push, links_imageToken]
      dsimp only
      omega

/-- The tokens of running text file tame nodes; line ends are literal only if they open as many links as the greatest
depth. -/
theorem areSeated_parse {refs : List Reference} (hrefs : Reference.AreUnbroken refs) (t : Text) :
    AreSeated (maxDepth ≤ Token.linksIn (parse refs t)) (parse refs t) := by
  refine areSeated_finish (fun p => ?_) (Nat.zero_add _).le id
  exact isTame_run _ (s := { source := .ofText t, refs, stop := _, depth := 0 }) rfl hrefs _ 0 Draft.isTame_empty

end Inline
end MdxSafe
