-- SUMMARY: What may stand after a block, and where the search for the end of a block stops.
import MdxSafe.Proofs.Markdown.Zone
import MdxSafe.Proofs.Text.Lines

/-!
# What follows a block

The reader finds the end of a block by looking at the line after it. `Zone.Follows` lists what may stand
there: the end of the lines, an empty line, the marker of the next item of a list around, or the start of
another block. The last two of these the block must allow for, since not every block ends before every
other one.
-/

namespace MdxSafe.Block.Zone

-- ---------------------------------------------------------------------------
-- Runs of lines
-- ---------------------------------------------------------------------------

/-- The zone shows texts on the lines from one on. -/
def ShowsAll (z : Zone) (i : Nat) (ss : List Text) : Prop := ∀ k s, ss[k]? = some s → z.Shows (i + k) s

namespace ShowsAll

variable {z : Zone} {i : Nat} {s : Text} {ss ts : List Text}

theorem head (h : z.ShowsAll i (s :: ss)) : z.Shows i s := h 0 s rfl

theorem tail (h : z.ShowsAll i (s :: ss)) : z.ShowsAll (i + 1) ss := by
  intro k t hk
  have := h (k + 1) t (by simpa using hk)
  rwa [Nat.add_assoc, Nat.add_comm 1 k]

theorem cons (hs : z.Shows i s) (h : z.ShowsAll (i + 1) ss) : z.ShowsAll i (s :: ss) := by
  intro k t hk
  cases k with
  | zero =>
    rw [List.getElem?_cons_zero, Option.some.injEq] at hk
    exact hk ▸ hs
  | succ k =>
    have := h k t (by simpa using hk)
    rwa [Nat.add_assoc, Nat.add_comm 1 k] at this

theorem left (h : z.ShowsAll i (ss ++ ts)) : z.ShowsAll i ss := by
  intro k t hk
  have hlt : k < ss.length := (List.getElem?_eq_some_iff.1 hk).1
  exact h k t (by rwa [List.getElem?_append_left hlt])

theorem right (h : z.ShowsAll i (ss ++ ts)) : z.ShowsAll (i + ss.length) ts := by
  intro k t hk
  rw [Nat.add_assoc]
  exact h (ss.length + k) t (by rwa [List.getElem?_append_right (by omega), Nat.add_sub_cancel_left])

/-- Every line of a run shows one of the texts. -/
theorem exists_mem (h : z.ShowsAll i ss) {k : Nat} (hik : i ≤ k) (hk : k < i + ss.length) :
    ∃ s ∈ ss, z.Shows k s := by
  have hlt : k - i < ss.length := by omega
  refine ⟨ss[k - i], List.getElem_mem hlt, ?_⟩
  have := h (k - i) ss[k - i] (List.getElem?_eq_getElem hlt)
  rwa [Nat.add_sub_cancel' hik] at this

end ShowsAll

-- ---------------------------------------------------------------------------
-- After a block
-- ---------------------------------------------------------------------------

/-- What stands on the lines of a range from the line `n` after a block on: `touch` and `gap` say which
blocks may start there, on this line or after an empty one. -/
inductive Follows (z : Zone) (n stop : Nat) (touch gap : Text → Prop) : Prop where
  | atEnd (hn : z.bound ≤ n)
  | stopGap (hn : n = stop) (hs : z.Shows n [])
  | outside (hn : n + 1 < stop) (hs : z.Shows n []) (hne : z.isEmpty (n + 1) = false) (ho : z.isOutside (n + 1))
  | gap (hn : n + 1 < stop) (hs : z.Shows n []) (f : Text) (hf : z.Shows (n + 1) f) (hflush : flush f) (hg : gap f)
  | sibling (hn : n < stop) (hne : z.isEmpty n = false) (hpos : 0 ≤ z.indent n) (ho : z.indent n < z.edge)
    (hm : (z.marker? n).isSome)
  | touch (hn : n < stop) (f : Text) (hf : z.Shows n f) (hflush : flush f) (ht : touch f)

/-- The line from which a list, or a container around a block, goes on looking after the block. -/
def nextAfter (z : Zone) (n stop : Nat) : Nat := if n < stop && z.isEmpty n then n + 1 else n

namespace Follows

variable {z : Zone} {n stop : Nat} {touch gap : Text → Prop}

theorem mono {touch' gap' : Text → Prop} (h : z.Follows n stop touch gap) (ht : ∀ f, touch f → touch' f)
    (hg : ∀ f, gap f → gap' f) : z.Follows n stop touch' gap' := by
  cases h with
  | atEnd hn => exact .atEnd hn
  | stopGap hn hs => exact .stopGap hn hs
  | outside hn hs hne ho => exact .outside hn hs hne ho
  | gap hn hs f hf hflush hgf => exact .gap hn hs f hf hflush (hg f hgf)
  | sibling hn hne hpos ho hm => exact .sibling hn hne hpos ho hm
  | touch hn f hf hflush htf => exact .touch hn f hf hflush (ht f htf)

/-- A line after an empty one is not empty. -/
theorem isEmpty_succ (h : z.Follows n stop touch gap) (hn : n < stop) (hstop : stop ≤ z.bound)
    (he : z.isEmpty n) : z.isEmpty (n + 1) = false := by
  cases h with
  | atEnd hn' => omega
  | stopGap hn' => omega
  | outside _ _ hne _ => exact hne
  | gap _ _ f hf hflush _ => exact hf.isEmpty_eq_false hflush
  | sibling _ hne => exact absurd (he.symm.trans hne) (by simp)
  | touch _ f hf hflush =>
    have := hf.isEmpty_eq_false hflush
    exact absurd (he.symm.trans this) (by simp)

/-- No table starts on the last line of the block. -/
theorem tableHead?_eq_none {m stop' : Nat} {s : Text} (h : z.Follows (m + 1) stop touch gap) (hs : z.Shows m s)
    (hstop' : stop' ≤ z.bound) (ht : ∀ f, touch f → Table.aligns? f = none) : z.tableHead? m stop' = none := by
  have hempty : Table.head? (afterIndent s) (afterIndent []) = none := Table.head?_eq_none Table.aligns?_nil
  cases h with
  | atEnd hn => exact tableHead?_eq_none_of_stop (by omega)
  | stopGap _ hs' => exact Zone.tableHead?_eq_none hs hs' hempty
  | outside _ hs' => exact Zone.tableHead?_eq_none hs hs' hempty
  | gap _ hs' => exact Zone.tableHead?_eq_none hs hs' hempty
  | sibling _ _ _ ho => exact tableHead?_eq_none_of_outside (decide_eq_true ho)
  | touch _ f hf hflush htf =>
    refine Zone.tableHead?_eq_none hs hf (Table.head?_eq_none ?_)
    rw [afterIndent_of_flush hflush]
    exact ht f htf

/-- The marker of an item of a list around the block ends whatever it may interrupt. -/
theorem interrupts_sibling {i : Nat} (hout : z.indent i < z.edge) (hm : (z.marker? i).isSome) {what : Open}
    (hwhat : what ≠ .list) (stop : Nat) : z.interrupts what i stop = true := by
  have ho : z.isOutside i = true := decide_eq_true hout
  have hlist : (what != .list) = true := bne_iff_ne.2 hwhat
  simp [interrupts, ho, hm, hlist]

/-- What interrupts a paragraph interrupts a definition. -/
theorem interrupts_definition {i stop : Nat} (h : z.interrupts .paragraph i stop) :
    z.interrupts .definition i stop := by
  have hfirm : z.startsFirmList i → (z.marker? i).isSome := by
    intro hfirm
    rw [startsFirmList] at hfirm
    split at hfirm
    · next hm => simp [hm]
    · cases hfirm
  have hparagraph : (Open.paragraph != Open.list) = true := rfl
  have hdefinition : (Open.definition != Open.list) = true := rfl
  simp only [interrupts, hparagraph, hdefinition] at h ⊢
  cases hmarker : (z.marker? i).isSome with
  | true => simp
  | false =>
    rw [hmarker] at hfirm
    have hnot : z.startsFirmList i = false := by simpa using hfirm
    simpa [hnot, hmarker] using h

/-- A paragraph ends before what follows it, and no line after it underlines a heading. -/
theorem ends_paragraph (h : z.Follows n stop touch gap) (ht : ∀ f, touch f → Outline.breaksParagraph f) :
    z.bound ≤ n ∨ z.isEmpty n ∨ z.isLazy n = false ∧ (∀ stop', z.interrupts .paragraph n stop')
      ∧ (z.isOutside n ∨ Heading.underline? (z.content n) = none) := by
  cases h with
  | atEnd hn => exact .inl hn
  | stopGap _ hs => exact .inr (.inl hs.isEmpty_eq)
  | outside _ hs => exact .inr (.inl hs.isEmpty_eq)
  | gap _ hs => exact .inr (.inl hs.isEmpty_eq)
  | sibling _ _ hpos ho hm =>
    refine .inr (.inr ⟨?_, fun stop' => interrupts_sibling ho hm (by decide) stop', .inl (decide_eq_true ho)⟩)
    simp only [isLazy, Bool.or_eq_false_iff, decide_eq_false_iff_not]
    omega
  | touch _ f hf hflush htf =>
    have hbreaks := ht f htf
    simp only [Outline.breaksParagraph, Bool.and_eq_true, Option.isNone_iff_eq_none] at hbreaks
    refine .inr (.inr ⟨hf.isLazy_eq hflush, fun stop' => ?_, .inr ?_⟩)
    · rw [hf.interrupts_paragraph_eq hflush, hbreaks.1, Bool.or_true]
    · rw [hf.content_eq_self hflush, hbreaks.2]

end Follows

-- ---------------------------------------------------------------------------
-- Front matter
-- ---------------------------------------------------------------------------

/-- No front matter starts on the first line, nor inside a container that does. -/
def Plain (z : Zone) : Prop := (z.full.getD 0 []).head? ≠ some '-' ∨ ¬ ['-', '-'] <:+: z.content 0

theorem takeWhile_hyphen_length {t : Text} (h : ¬ ['-', '-'] <:+: t) :
    ((t.drop 1).takeWhile (· = '-')).length < 2 := by
  match t with
  | [] | [_] => simp
  | [_, b] => by_cases hb : b = '-' <;> simp [hb]
  | a :: b :: c :: t =>
    by_cases hb : b = '-'
    · by_cases hc : c = '-'
      · refine absurd ⟨[a], t, ?_⟩ h
        simp [hb, hc]
      · simp [hb, hc]
    · simp [hb]

theorem frontMatterAt?_eq_none {z : Zone} {i stop : Nat} (h : i = 0 → z.Plain) :
    frontMatterAt? z i stop = .ok none := by
  rw [frontMatterAt?, if_pos]
  by_cases hi : i = 0
  · subst hi
    rcases h rfl with hd | hc
    · simp at hd ⊢
      exact .inl hd
    · have := takeWhile_hyphen_length hc
      simp only [ne_eq, Bool.or_eq_true, decide_eq_true_eq]
      right
      omega
  · simp [hi]

-- ---------------------------------------------------------------------------
-- Lines in sight
-- ---------------------------------------------------------------------------

/-- The lines of a range start with these ones. -/
structure Sees (z : Zone) (i stop : Nat) (ss : List Text) : Prop where
  shows : z.ShowsAll i ss
  le_stop : i + ss.length ≤ stop
  stop_le : stop ≤ z.bound
  plain : i = 0 → z.Plain

namespace Sees

variable {z : Zone} {i stop : Nat} {ss ts : List Text}

theorem left (h : z.Sees i stop (ss ++ ts)) : z.Sees i stop ss := by
  refine ⟨h.shows.left, ?_, h.stop_le, h.plain⟩
  have := h.le_stop
  rw [List.length_append] at this
  omega

theorem tail {s : Text} (h : z.Sees i stop (s :: ss)) : z.Sees (i + 1) stop ss := by
  refine ⟨h.shows.tail, ?_, h.stop_le, by omega⟩
  have := h.le_stop
  rw [List.length_cons] at this
  omega

theorem right (h : z.Sees i stop (ss ++ ts)) (hne : ss ≠ []) : z.Sees (i + ss.length) stop ts := by
  have hpos : 0 < ss.length := List.length_pos_iff.2 hne
  refine ⟨h.shows.right, ?_, h.stop_le, by omega⟩
  have := h.le_stop
  rw [List.length_append] at this
  omega

end Sees

-- ---------------------------------------------------------------------------
-- Neighbouring groups of lines
-- ---------------------------------------------------------------------------

/-- Behind a group of lines that ends before the line `n` another one stands, at once or after an empty line; its first
line is `f`. -/
structure NextGroup (z : Zone) (n stop : Nat) (tight : Bool) (f : Text) (ts : List Text) : Prop where
  gap : z.ShowsAll n (Outline.gapLines tight)
  sees : z.Sees (n + (Outline.gapLines tight).length) stop ts
  first : ts.head? = some f
  flush : flush f

theorem Sees.nextGroup {z : Zone} {n stop : Nat} {tight : Bool} {ts us : List Text} {f : Text}
    (h : z.Sees n stop (Outline.gapLines tight ++ ts)) (hts : ts = f :: us) (hf : MdxSafe.flush f) :
    z.NextGroup n stop tight f ts := by
  refine ⟨h.shows.left, ⟨h.shows.right, ?_, h.stop_le, fun hn => h.plain (by omega)⟩, hts ▸ rfl, hf⟩
  have hle := h.le_stop
  rw [List.length_append] at hle
  omega

/-- Where lines end that are a group, a gap and what stands behind them. -/
theorem end_eq (i : Nat) (ss gap ts : List Text) :
    i + (ss ++ (gap ++ ts)).length = i + ss.length + gap.length + ts.length := by
  simp only [List.length_append]
  omega

namespace NextGroup

variable {z : Zone} {n stop : Nat} {tight : Bool} {f : Text} {ts : List Text}

theorem shows (h : z.NextGroup n stop tight f ts) : z.Shows (n + (Outline.gapLines tight).length) f :=
  h.sees.shows 0 f (by rw [← List.head?_eq_getElem?, h.first])

theorem lt_stop (h : z.NextGroup n stop tight f ts) : n + (Outline.gapLines tight).length < stop := by
  have hne : ts ≠ [] := by
    rintro rfl
    cases h.first
  have hpos : 0 < ts.length := List.length_pos_iff.2 hne
  have hle := h.sees.le_stop
  omega

/-- The line after a group is empty just if a gap is between it and the next. -/
theorem isEmpty_eq (h : z.NextGroup n stop tight f ts) : z.isEmpty n = !tight := by
  cases tight with
  | true => exact h.shows.isEmpty_eq_false h.flush
  | false => exact h.gap.head.isEmpty_eq

theorem nextAfter_eq (h : z.NextGroup n stop tight f ts) :
    z.nextAfter n stop = n + (Outline.gapLines tight).length := by
  have hlt : n < stop := Nat.lt_of_le_of_lt (Nat.le_add_right n _) h.lt_stop
  rw [nextAfter, h.isEmpty_eq]
  cases tight with
  | true => simp [Outline.gapLines]
  | false => simp [Outline.gapLines, hlt]

theorem follows (h : z.NextGroup n stop tight f ts) {touch gap : Text → Prop}
    (hf : if tight then touch f else gap f) : z.Follows n stop touch gap := by
  cases tight with
  | true => exact .touch h.lt_stop f h.shows h.flush hf
  | false => exact .gap h.lt_stop h.gap.head f h.shows h.flush hf

end NextGroup

-- ---------------------------------------------------------------------------
-- The text of a run of lines
-- ---------------------------------------------------------------------------

theorem text_nil (z : Zone) (width : Int) (keepEnd : Bool) (i : Nat) : z.text width keepEnd i i = [] := by
  simp [text]

theorem text_step {z : Zone} {i stop : Nat} {keepEnd : Bool} {s : Text} (hs : z.Shows i s) (h : i < stop) :
    z.text z.edge keepEnd i stop
      = s ++ (if i + 1 < stop || keepEnd then ['\n'] else []) ++ z.text z.edge keepEnd (i + 1) stop := by
  have hrange : stop - i = (stop - (i + 1)) + 1 := by omega
  simp only [text]
  rw [hrange, List.range'_succ, List.flatMap_cons, hs.unindent_eq, hs.ending_eq]

/-- The text of lines with the line end of the last one. -/
theorem text_keepEnd {z : Zone} {i : Nat} {ss : List Text} (h : z.ShowsAll i ss) :
    z.text z.edge true i (i + ss.length) = ss.flatMap (· ++ ['\n']) := by
  induction ss generalizing i with
  | nil => exact text_nil z z.edge true i
  | cons s ss ih =>
    have hlen : i + (s :: ss).length = i + 1 + ss.length := by
      rw [List.length_cons]
      omega
    rw [hlen, text_step h.head (by omega), ih h.tail, List.flatMap_cons]
    simp

/-- The text of lines without the line end of the last one. -/
theorem text_dropEnd {z : Zone} {i : Nat} {ss : List Text} (h : z.ShowsAll i ss) :
    z.text z.edge false i (i + ss.length) = Text.join ['\n'] ss := by
  induction ss generalizing i with
  | nil => exact text_nil z z.edge false i
  | cons s ss ih =>
    have hlen : i + (s :: ss).length = i + 1 + ss.length := by
      rw [List.length_cons]
      omega
    rw [hlen, text_step h.head (by omega), ih h.tail]
    cases ss with
    | nil => simp
    | cons t ts =>
      rw [Text.join_cons_cons, if_pos]
      simp

end MdxSafe.Block.Zone
