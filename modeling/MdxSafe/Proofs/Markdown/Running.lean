-- SUMMARY: The tokens of running text always assemble to nodes.
import MdxSafe.Proofs.Tree.Assembly

/-!
# Tokens of running text

Assembling fails at a heading or at a numbered list only. Running text yields neither: no piece of it is one, and
pairing delimiters only turns tokens into those of emphasis and deletion.
-/

namespace MdxSafe

-- ---------------------------------------------------------------------------
-- Tokens that assemble
-- ---------------------------------------------------------------------------

mutual
/-- Whether neither the token nor one inside it opens a heading or a numbered list. -/
def Token.assembles : Token → Bool
  | ⟨kind, _, _, _, _, _, _, _, children⟩ =>
    kind != .headingOpen && kind != .orderedListOpen && Token.allAssemble children
termination_by structural t => t

/-- The same for all tokens of a stream. -/
def Token.allAssemble : List Token → Bool
  | [] => true
  | t :: ts => t.assembles && Token.allAssemble ts
termination_by structural ts => ts
end

theorem Token.allAssemble_iff {ts : List Token} : Token.allAssemble ts ↔ ∀ t ∈ ts, t.assembles := by
  induction ts with
  | nil => simp [allAssemble]
  | cons t ts ih => simp [allAssemble, ih]

theorem Token.openedNode_ok {t : Token} (h : t.kind ≠ .headingOpen) (h' : t.kind ≠ .orderedListOpen) (inHead : Bool) :
    ∃ n, t.openedNode inHead = .ok n := by
  obtain ⟨kind, nesting, tag, attrs, content, markup, info, hidden, children⟩ := t
  cases kind <;> first | exact ⟨_, rfl⟩ | contradiction

namespace Assembly

mutual
theorem step_ok : (t : Token) → t.assembles → ∀ s, ∃ s', step s t = .ok s'
  | ⟨kind, nesting, tag, attrs, content, markup, info, hidden, children⟩, h, s => by
    simp only [Token.assembles, Bool.and_eq_true, bne_iff_ne, ne_eq] at h
    obtain ⟨⟨hheading, hlist⟩, hchildren⟩ := h
    simp only [step]
    by_cases hsection : kind.isTableSection
    · exact ⟨_, by rw [if_pos hsection]⟩
    · rw [if_neg hsection]
      cases nesting with
      | opens =>
        obtain ⟨n, hn⟩ := Token.openedNode_ok
          (t := ⟨kind, .opens, tag, attrs, content, markup, info, hidden, []⟩) hheading hlist s.inHead
        simp only [hn]
        exact ⟨_, rfl⟩
      | closes => exact ⟨_, rfl⟩
      | stands =>
        cases kind
        case inline =>
          obtain ⟨inside, hinside⟩ := steps_ok children hchildren (.of s.top)
          simp only [hinside]
          exact ⟨_, rfl⟩
        case image =>
          have hinside := steps_ok children hchildren
            (.of { node := Token.leafNode { kind := .image, tag, attrs, content, markup, info, hidden } })
          obtain ⟨inside, hinside⟩ := hinside
          simp only [hinside]
          exact ⟨_, rfl⟩
        all_goals exact ⟨_, rfl⟩
termination_by structural t => t

theorem steps_ok : (ts : List Token) → Token.allAssemble ts → ∀ s, ∃ s', steps s ts = .ok s'
  | [], _, s => ⟨s, rfl⟩
  | t :: ts, h, s => by
    simp only [Token.allAssemble, Bool.and_eq_true] at h
    obtain ⟨s', hs'⟩ := step_ok t h.1 s
    obtain ⟨s'', hs''⟩ := steps_ok ts h.2 s'
    exact ⟨s'', by rw [steps, hs']; exact hs''⟩
termination_by structural ts => ts
end

end Assembly

/-- Tokens that assemble do so to a tree. -/
theorem Node.assemble_ok {ts : List Token} (h : Token.allAssemble ts) (container : Node) :
    ∃ n, container.assemble ts = .ok n := by
  obtain ⟨s, hs⟩ := Assembly.steps_ok ts h (.of { node := container })
  exact ⟨_, by rw [Node.assemble, hs]; rfl⟩

-- ---------------------------------------------------------------------------
-- Delimiters
-- ---------------------------------------------------------------------------

/-- All tokens of an array assemble. -/
def AllAssemble (tokens : Array Token) : Prop := ∀ t ∈ tokens, t.assembles

namespace Delimiter

variable {tokens : Array Token}

theorem allAssemble_mark (h : AllAssemble tokens) (i : Nat) {t : Token} (ht : t.assembles) :
    AllAssemble (mark tokens i t) := by
  intro u hu
  rcases Array.mem_or_eq_of_mem_setIfInBounds hu with hu | rfl
  · exact h u hu
  · exact ht

theorem allAssemble_strikePair (h : AllAssemble tokens) (ds : Array Delimiter) (d : Delimiter) :
    AllAssemble (strikePair ds tokens d) := by
  unfold strikePair
  split
  · split
    · exact allAssemble_mark (allAssemble_mark h _ rfl) _ rfl
    · exact h
  · exact h

theorem allAssemble_moveTilde (h : AllAssemble tokens) (i : Nat) : AllAssemble (moveTilde tokens i) := by
  unfold moveTilde
  rw [Array.swapIfInBounds_def]
  split
  · split
    · exact fun t ht => h t ((Array.swap_perm _ _).mem_iff.1 ht)
    · exact h
  · exact h

theorem allAssemble_strike (h : AllAssemble tokens) (ds : Array Delimiter) : AllAssemble (strike ds tokens) := by
  unfold strike
  refine List.foldlRecOn (motive := AllAssemble) _ _ ?_ fun _ ht i _ => allAssemble_moveTilde ht i
  rw [← Array.foldl_toList]
  exact List.foldlRecOn (motive := fun r : Array Token × List Nat => AllAssemble r.1) ds.toList _ h
    fun _ hr d _ => allAssemble_strikePair hr ds d

theorem allAssemble_emphasizeFrom (ds : Array Delimiter) (n : Nat) (h : AllAssemble tokens) :
    AllAssemble (emphasizeFrom ds n tokens) := by
  fun_induction emphasizeFrom ds n tokens with
  | case1 => exact h
  | case2 _ _ _ _ ih => exact ih h
  | case3 =>
    exact allAssemble_mark (allAssemble_mark (allAssemble_mark (allAssemble_mark h _ rfl) _ rfl) _ rfl) _ rfl
  | case4 _ _ _ _ _ _ _ _ _ _ ih =>
    exact ih (allAssemble_mark (allAssemble_mark (allAssemble_mark (allAssemble_mark h _ rfl) _ rfl) _ rfl) _ rfl)
  | case5 _ _ _ _ _ _ _ _ ih => exact ih (allAssemble_mark (allAssemble_mark h _ rfl) _ rfl)

theorem allAssemble_joinTexts {ts : List Token} (h : Token.allAssemble ts) : Token.allAssemble (joinTexts ts) := by
  induction ts with
  | nil => rfl
  | cons t ts ih =>
    simp only [Token.allAssemble, Bool.and_eq_true] at h
    have hrest := ih h.2
    rw [joinTexts]
    cases hjoin : joinTexts ts with
    | nil => simp [Token.allAssemble, h.1]
    | cons u us =>
      rw [hjoin] at hrest
      simp only [Token.allAssemble, Bool.and_eq_true] at hrest
      dsimp only
      split
      · obtain ⟨kind, nesting, tag, attrs, content, markup, info, hidden, children⟩ := u
        simpa [Token.allAssemble, Token.assembles] using hrest
      · simp [Token.allAssemble, h.1, hrest]

theorem allAssemble_apply (h : AllAssemble tokens) (ds : Array Delimiter) : Token.allAssemble (apply ds tokens) := by
  refine allAssemble_joinTexts (Token.allAssemble_iff.2 fun t ht => ?_)
  exact allAssemble_emphasizeFrom _ _ (allAssemble_strike h _) t (Array.mem_toList_iff.1 ht)

end Delimiter

-- ---------------------------------------------------------------------------
-- Pieces
-- ---------------------------------------------------------------------------

namespace Inline

/-- The tokens of a piece, if it is complete, assemble. -/
def Piece.Assembles (p : Piece) : Prop := ∀ ts, p = .tokens ts → Token.allAssemble ts

variable {s : Scope} {memo : Memo} {i : Nat}

theorem assembles_escapeAt? {r : Piece × Nat} (h : escapeAt? s i = some r) : r.1.Assembles := by
  unfold escapeAt? at h
  split at h <;> cases h <;> (intro ts hts; cases hts; rfl)

theorem assembles_entityAt? {r : Piece × Nat} (h : entityAt? s i = some r) : r.1.Assembles := by
  unfold entityAt? at h
  split at h
  · split at h <;> cases h
    intro ts hts
    cases hts
    rfl
  · cases h

theorem assembles_angleAt? {r : Piece × Nat} (h : angleAt? s i = some r) : r.1.Assembles := by
  unfold angleAt? at h
  dsimp only at h
  split at h
  · cases h
    intro ts hts
    cases hts
    rfl
  · split at h
    · split at h <;> cases h
      intro ts hts
      cases hts
      rfl
    · cases h

theorem assembles_codeAt (s : Scope) (i : Nat) : (codeAt s i).1.Assembles := by
  unfold codeAt
  dsimp only
  split <;> (intro ts hts; cases hts)
  rfl

/-- A piece that is made of a target is not made of tokens. -/
theorem assembles_of_map {o : Option (LinkTarget × Nat)} {f : LinkTarget × Nat → Piece × Nat} {r : Piece × Nat}
    (hf : ∀ q ts, (f q).1 ≠ .tokens ts) (h : o.map f = some r) : r.1.Assembles := by
  obtain ⟨q, -, rfl⟩ := Option.map_eq_some_iff.1 h
  exact fun ts hts => absurd hts (hf q ts)

theorem assembles_linkAt {fuel : Nat} {r : Piece × Nat} (h : (linkAt fuel s memo i).2 = some r) :
    r.1.Assembles := by
  cases fuel with
  | zero => simp [linkAt] at h
  | succ fuel =>
    rw [linkAt] at h
    split at h
    · cases h
    · dsimp only at h
      split at h
      · split at h
        · cases h
        · split at h
          · cases h
            intro ts hts
            cases hts
          · exact assembles_of_map (by simp) h
      · exact assembles_of_map (by simp) h

theorem assembles_imageAt {fuel : Nat} {r : Piece × Nat} (h : (imageAt fuel s memo i).2 = some r) :
    r.1.Assembles := by
  cases fuel with
  | zero => simp [imageAt] at h
  | succ fuel =>
    rw [imageAt] at h
    split at h
    · cases h
    · split at h
      · cases h
      · dsimp only at h
        split at h
        · split at h
          · cases h
          · split at h
            · cases h
              intro ts hts
              cases hts
            · cases h
        · exact assembles_of_map (by simp) h

theorem assembles_pieceAt {fuel : Nat} {r : Piece × Nat} (h : (pieceAt fuel s memo i).2 = some r) :
    r.1.Assembles := by
  cases fuel with
  | zero => simp [pieceAt] at h
  | succ fuel =>
    rw [pieceAt] at h
    split at h
    · cases h
    · split at h
      · cases h
        intro ts hts
        cases hts
      · split at h
        · cases h
          intro ts hts
          cases hts
        · exact assembles_escapeAt? h
        · cases h
          exact assembles_codeAt s i
        · exact assembles_linkAt h
        · exact assembles_imageAt h
        · exact assembles_angleAt? h
        · exact assembles_entityAt? h
        · cases h

-- ---------------------------------------------------------------------------
-- Drafts
-- ---------------------------------------------------------------------------

namespace Draft

variable {d : Draft}

theorem allAssemble_push (h : AllAssemble d.tokens) {t : Token} (ht : t.assembles) :
    AllAssemble (d.push t).tokens := by
  have hflush : AllAssemble d.flush.tokens := by
    unfold flush
    split
    · exact h
    · intro u hu
      rcases Array.mem_push.1 hu with hu | rfl
      · exact h u hu
      · rfl
  intro u hu
  rcases Array.mem_push.1 hu with hu | rfl
  · exact hflush u hu
  · exact ht

theorem allAssemble_addLineEnd (h : AllAssemble d.tokens) : AllAssemble d.addLineEnd.tokens := by
  have hpending : ∀ t : Text, AllAssemble ({ d with pending := t } : Draft).tokens := fun _ => h
  have hhard : ({ kind := .hardBreak } : Token).assembles := rfl
  have hsoft : ({ kind := .softBreak } : Token).assembles := rfl
  unfold addLineEnd
  split
  · exact allAssemble_push (hpending _) hhard
  · exact allAssemble_push (hpending _) hsoft
  · exact allAssemble_push h hsoft

theorem allAssemble_addDelimiter (h : AllAssemble d.tokens) (marker : Char) (chars : Text) (length : Nat)
    (flanks : Bool × Bool) : AllAssemble (d.addDelimiter marker chars length flanks).tokens :=
  allAssemble_push h rfl

theorem allAssemble_foldl_push (h : AllAssemble d.tokens) {ts : List Token} (hts : Token.allAssemble ts) :
    AllAssemble (ts.foldl push d).tokens := by
  induction ts generalizing d with
  | nil => exact h
  | cons t ts ih =>
    simp only [Token.allAssemble, Bool.and_eq_true] at hts
    exact ih (allAssemble_push h hts.1) hts.2

theorem allAssemble_finish (h : AllAssemble d.tokens) : Token.allAssemble d.finish := by
  refine Delimiter.allAssemble_apply ?_ _
  unfold flush
  split
  · exact h
  · intro u hu
    rcases Array.mem_push.1 hu with hu | rfl
    · exact h u hu
    · rfl

end Draft

theorem times_keeps {p : Draft → Prop} {step : Draft → Draft} (hstep : ∀ d, p d → p (step d)) (n : Nat) {d : Draft}
    (h : p d) : p (times step n d) := by
  induction n generalizing d with
  | zero => exact h
  | succ n ih => exact ih (hstep d h)

/-- What pushing literal tokens and delimiters keeps is kept by a run of delimiters. -/
theorem addRun?_keeps {p : Draft → Prop}
    (hpush : ∀ d, p d → p (d.push (.literal ['~'])))
    (hdelimiter : ∀ d c u n flanks, '\n' ∉ u → p d → p (d.addDelimiter c u n flanks))
    {d : Draft} {c : Char} {r : Draft × Nat} (hd : p d) (h : addRun? s d i c = some r) : p r.1 := by
  unfold addRun? at h
  split at h
  · next hc =>
    have hmarks : '\n' ∉ [c] ∧ '\n' ∉ [c, c] := by
      simp only [Bool.or_eq_true, decide_eq_true_eq] at hc
      rcases hc with (rfl | rfl) | rfl <;> decide
    dsimp only at h
    split at h
    · split at h
      · cases h
      · cases h
        refine times_keeps (fun d hd => hdelimiter d _ _ _ _ hmarks.2 hd) _ ?_
        split
        · exact hpush _ hd
        · exact hd
    · cases h
      exact times_keeps (fun d hd => hdelimiter d _ _ _ _ hmarks.1 hd) _ hd
  · cases h

theorem allAssemble_addRun? {d : Draft} {c : Char} {r : Draft × Nat} (hd : AllAssemble d.tokens)
    (h : addRun? s d i c = some r) : AllAssemble r.1.tokens :=
  addRun?_keeps (p := fun d => AllAssemble d.tokens) (fun _ hd => Draft.allAssemble_push hd rfl)
    (fun _ c u n flanks _ hd => Draft.allAssemble_addDelimiter hd c u n flanks) hd h

-- ---------------------------------------------------------------------------
-- Running text
-- ---------------------------------------------------------------------------

theorem allAssemble_linkTokens (target : LinkTarget) {inner : List Token} (h : Token.allAssemble inner) :
    Token.allAssemble (linkTokens target inner) := by
  rw [Token.allAssemble_iff] at h ⊢
  intro t ht
  rcases List.mem_append.1 ht with ht | ht
  · rcases List.mem_cons.1 ht with rfl | ht
    · rfl
    · exact h t ht
  · rw [List.mem_singleton.1 ht]
    rfl

/-- Reading keeps the tokens of a draft such that they assemble. -/
theorem allAssemble_run (fuel : Nat) (s : Scope) (memo : Memo) {d : Draft} (i : Nat) (h : AllAssemble d.tokens) :
    AllAssemble (run fuel s memo d i).2.tokens := by
  induction fuel generalizing s memo d i with
  | zero => exact h
  | succ fuel ih =>
    rw [run]
    split
    · exact h
    · split
      · exact ih s memo _ h
      · split
        · next hrun => exact ih s memo _ (allAssemble_addRun? h hrun)
        · split
          · exact ih s _ _ h
          · next piece j hpiece =>
            have hassembles := assembles_pieceAt (congrArg Prod.snd hpiece)
            split
            · exact ih s _ _ h
            · exact ih s _ _ (Draft.allAssemble_addLineEnd h)
            · exact ih s _ _ (Draft.allAssemble_foldl_push h (hassembles _ rfl))
            · refine ih s _ _ (Draft.allAssemble_foldl_push h (allAssemble_linkTokens _ ?_))
              exact Draft.allAssemble_finish (ih _ _ _ (by simp [AllAssemble]))
            · refine ih s _ _ (Draft.allAssemble_push h ?_)
              have hinner := fun s memo => Draft.allAssemble_finish (ih s memo (d := {}) 0 (by simp [AllAssemble]))
              simp [imageToken, Token.assembles, hinner]

/-- The tokens of running text assemble. -/
theorem allAssemble_parse (refs : List Reference) (t : Text) : Token.allAssemble (parse refs t) :=
  Draft.allAssemble_finish (allAssemble_run _ _ _ 0 (by simp [AllAssemble]))

end Inline

end MdxSafe
