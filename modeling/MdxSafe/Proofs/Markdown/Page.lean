-- SUMMARY: Whole documents are read back from their text: front matter, blocks, definitions.
import MdxSafe.Proofs.Markdown.Definition
import MdxSafe.Proofs.Text.Search
import MdxSafe.Tree.Reader

/-!
# Reading documents

The text of a page is its lines, each with its line end. The reader passes over them part by part: the front
matter is read if there is any, then the blocks, then the definitions. Between two parts stands an empty line,
which `Zone.nextAfter` skips, so that the next part is seen from its first line on.
-/

namespace MdxSafe

-- ---------------------------------------------------------------------------
-- The lines of a text
-- ---------------------------------------------------------------------------

namespace Block

open Outline

variable {opts : Layout.Options}

/-- Lines as they stand in a text. -/
def plainLines (ss : List Text) : List Line := ss.map fun s => Line.ofText s true

theorem linesFrom_append (ss : List Text) : linesFrom (ss ++ [[]]) = plainLines ss := by
  induction ss with
  | nil => rfl
  | cons s ss ih =>
    cases ss with
    | nil => rfl
    | cons t ss => exact congrArg (Line.ofText s true :: ·) ih

/-- Lines that end the text with a line end are the lines of that text. -/
theorem linesOf_join {ss : List Text} (hne : ss ≠ []) (h : Unbroken ss) :
    linesOf (Text.join ['\n'] ss ++ ['\n']) = (plainLines ss).toArray := by
  have hsplit := Text.splitOn_flatMap_append (u := []) h (by simp)
  rw [List.append_nil, Text.flatMap_lines hne] at hsplit
  rw [linesOf, hsplit, linesFrom_append]

/-- The zone of a whole text with these lines. -/
def pageZone (ss : List Text) : Zone where
  full := ((plainLines ss).map Line.raw).toArray
  lines := (plainLines ss).toArray
  bound := ss.length

theorem line_pageZone {ss : List Text} {k : Nat} {s : Text} (h : ss[k]? = some s) :
    (pageZone ss).line k = Line.ofText s true := by
  simp [pageZone, Zone.line, plainLines, h]

theorem depth_pageZone (ss : List Text) : (pageZone ss).depth < maxDepth := Nat.zero_lt_succ _

theorem shows_ofText (s : Text) : (Line.ofText s true).Shows 0 s := by
  refine ⟨rfl, ?_⟩
  split
  · next hs => simp [Line.ofText, hs]
  · exact ⟨[], 0, rfl, rfl, by simp, by simp [Line.ofText], rfl⟩

/-- A whole text shows its lines. -/
theorem shows_pageZone (ss : List Text) : (pageZone ss).ShowsAll 0 ss := by
  intro k s h
  rw [Nat.zero_add]
  refine ⟨Int.le_refl 0, ?_⟩
  rw [line_pageZone h]
  exact shows_ofText s

theorem plain_pageZone {s : Text} {ss : List Text} (h : maybeFront s = false) : (pageZone (s :: ss)).Plain := by
  simp only [maybeFront, Bool.and_eq_false_iff, decide_eq_false_iff_not] at h
  rcases h with h | h
  · exact .inl (by simpa [pageZone, plainLines, Line.ofText] using h)
  · refine .inr fun hinside => ?_
    rw [(shows_pageZone (s :: ss)).head.content_eq] at hinside
    have hsub : afterIndent s <:+: s := (List.dropWhile_suffix isIndent).isInfix
    have := Text.contains_of_infix (hinside.trans hsub)
    rw [show "--".toList = ['-', '-'] from rfl] at h
    exact absurd (this.symm.trans h) (by simp)

-- ---------------------------------------------------------------------------
-- Front matter
-- ---------------------------------------------------------------------------

variable {z : Zone} {content : Text} {i n stop fuel : Nat}

theorem shows_of_line {k : Nat} {s : Text} (hedge : z.edge = 0) (h : z.line k = Line.ofText s true) : z.Shows k s := by
  refine ⟨by omega, ?_⟩
  rw [h, hedge]
  exact shows_ofText s

/-- Front matter goes on after a line that does not close it. -/
theorem frontMatterEnd?_passed {s : Text} (hedge : z.edge = 0) (hline : z.line i = Line.ofText s true)
    (hcloses : closesFront s = false) (hstop : i < stop) (fuel : Nat) :
    z.frontMatterEnd? 3 stop (fuel + 1) i = z.frontMatterEnd? 3 stop fuel (i + 1) := by
  have hs := shows_of_line hedge hline
  simp only [closesFront, Bool.or_eq_false_iff] at hcloses
  have hdots : z.isDots i = false := by
    rw [Zone.isDots, hline]
    exact hcloses.1
  have hclosed : Fence.isClosedBy ⟨'-', 3, []⟩ (z.line i).content = false := by
    have : (z.line i).content = afterIndent s := hs.content_eq
    rw [this]
    exact hcloses.2
  have hout : (!(z.line i).isEmpty && z.isOutside i) = false := by
    by_cases hnil : s = []
    · have : (z.line i).isEmpty = true := hs.isEmpty_eq.trans (by rw [hnil]; rfl)
      simp [this]
    · simp [hs.isOutside_eq hnil]
  rw [Zone.frontMatterEnd?]
  simp [Nat.not_le.2 hstop, hdots, hout, hs.isCutOff_eq, hclosed]

/-- Front matter ends with a line of three hyphens. -/
theorem frontMatterEnd?_closed (hedge : z.edge = 0) (hline : z.line i = Line.ofText "---".toList true) (hstop : i < stop)
    (fuel : Nat) : z.frontMatterEnd? 3 stop (fuel + 1) i = .ok (some (i, true)) := by
  have hs := shows_of_line hedge hline
  have hflush : flush "---".toList := rfl
  have hdots : z.isDots i = false := by
    rw [Zone.isDots, hline]
    rfl
  have hclosed : Fence.isClosedBy ⟨'-', 3, []⟩ (z.line i).content = true := by
    have : (z.line i).content = "---".toList := hs.content_eq_self hflush
    rw [this]
    rfl
  rw [Zone.frontMatterEnd?]
  simp [Nat.not_le.2 hstop, hdots, hs.isOutside_eq (ne_nil_of_flush hflush), hs.isCutOff_eq, hs.isCode_eq hflush,
    hclosed]

/-- The search for the end of front matter passes over lines that do not close it. -/
theorem frontMatterEnd?_eq (hedge : z.edge = 0)
    (hgo : ∀ k, i ≤ k → k < n → ∃ s, closesFront s = false ∧ z.line k = Line.ofText s true)
    (hend : z.line n = Line.ofText "---".toList true) (hin : i ≤ n) (hstop : n < stop) (hfuel : n < i + fuel) :
    z.frontMatterEnd? 3 stop fuel i = .ok (some (n, true)) := by
  induction fuel generalizing i with
  | zero => omega
  | succ fuel ih =>
    by_cases h : i = n
    · subst h
      exact frontMatterEnd?_closed hedge hend hstop fuel
    · obtain ⟨s, hcloses, hline⟩ := hgo i (Nat.le_refl i) (by omega)
      rw [frontMatterEnd?_passed hedge hline hcloses (by omega)]
      exact ih (fun k hik hk => hgo k (by omega) hk) (by omega) (by omega)

theorem length_frontLines (content : Text) : (frontLines content).length = 1 + (frontContent content).length + 1 := by
  simp only [frontLines, List.length_cons, List.length_append, List.length_nil]
  omega

/-- The marker at the end of front matter is found. -/
theorem frontMatterEnd?_pageZone (h : isFront content) (ss : List Text) :
    (pageZone (frontLines content ++ ss)).frontMatterEnd? 3 (frontLines content ++ ss).length
      (frontLines content ++ ss).length 1 = .ok (some (1 + (frontContent content).length, true)) := by
  simp only [isFront, Bool.and_eq_true, List.all_eq_true] at h
  have hlen := length_frontLines content
  have hget : ∀ k, (frontLines content ++ ss)[k + 1]? = (frontContent content ++ ("---".toList :: ss))[k]? := by
    intro k
    rw [frontLines, List.cons_append, List.getElem?_cons_succ, List.append_assoc, List.singleton_append]
  refine frontMatterEnd?_eq rfl ?_ ?_ (by omega) ?_ ?_
  · intro k hk hlt
    obtain ⟨k, rfl⟩ : ∃ j, k = j + 1 := ⟨k - 1, by omega⟩
    have hin : k < (frontContent content).length := by omega
    refine ⟨(frontContent content)[k], by simpa using h.2 _ (List.getElem_mem hin), line_pageZone ?_⟩
    rw [hget, List.getElem?_append_left hin, List.getElem?_eq_getElem hin]
  · refine line_pageZone ?_
    rw [Nat.add_comm, hget, List.getElem?_append_right (Nat.le_refl _), Nat.sub_self, List.getElem?_cons_zero]
  · rw [List.length_append]
    omega
  · rw [List.length_append]
    omega

theorem join_frontContent (content : Text) : Text.join ['\n'] (frontContent content) = content := by
  unfold frontContent
  split
  · next h => rw [h, Text.join_nil]
  · exact Text.join_splitOn '\n' content

/-- Front matter is read back from its lines. -/
theorem frontMatterAt?_pageZone (h : isFront content) (ss : List Text) :
    frontMatterAt? (pageZone (frontLines content ++ ss)) 0 (frontLines content ++ ss).length
      = .ok (some ([Page.frontToken content], (frontLines content).length)) := by
  have hend := frontMatterEnd?_pageZone h ss
  have hshows := shows_pageZone (frontLines content ++ ss)
  have hjoin := join_frontContent content
  have hcontent : (pageZone (frontLines content ++ ss)).content 0 = "---".toList :=
    hshows.left.head.content_eq_self rfl
  have hfull : (pageZone (frontLines content ++ ss)).full.toList = frontLines content ++ ss := by
    simp [pageZone, plainLines, Line.ofText, Function.comp_def]
  have hinside : ((frontLines content ++ ss).take (1 + (frontContent content).length)).drop 1 = frontContent content := by
    rw [frontLines, Nat.add_comm, List.cons_append, List.take_succ_cons]
    simp
  have hfirst : ((pageZone (frontLines content ++ ss)).full.getD 0 []).head? = some '-' := rfl
  have hcount : ((("---".toList).drop 1).takeWhile (· = '-')).length + 1 = 3 := rfl
  rw [frontMatterAt?, hcontent, hfirst, if_neg (by simp), hcount, hend, length_frontLines]
  simp only [bind, Except.bind, hfull, hinside, Page.frontToken]
  cases hc : frontContent content with
  | nil =>
    rw [hc] at hjoin
    rw [← hjoin]
    rfl
  | cons s rest =>
    have hline : (pageZone (frontLines content ++ ss)).line 1 = Line.ofText s true :=
      line_pageZone (by rw [frontLines, hc]; rfl)
    rw [hc] at hjoin
    simp only [hline]
    exact congrArg (fun u => Except.ok (some ([Page.frontToken u], _))) hjoin

-- ---------------------------------------------------------------------------
-- The parts of a document
-- ---------------------------------------------------------------------------

/-- The lines after a part, given the parts to come: an empty one before them. -/
def restLines (gs : List (List Text)) : List Text := if gs = [] then [] else [] :: spread (gapLines false) gs

theorem spread_cons (g : List Text) (gs : List (List Text)) :
    spread (gapLines false) (g :: gs) = g ++ restLines gs := by
  cases gs with
  | nil => simp [restLines]
  | cons h gs => simp [spread_cons_cons, restLines, gapLines]

theorem spread_append (g : List Text) (gs hs : List (List Text)) :
    spread (gapLines false) (g :: (gs ++ hs)) = spread (gapLines false) (g :: gs) ++ restLines hs := by
  induction gs generalizing g with
  | nil => simp [spread_cons]
  | cons h gs ih => rw [List.cons_append, spread_cons_cons, ih, spread_cons_cons, List.append_assoc (g ++ gapLines false)]

/-- After a part the reader stands on the first line of the next one. -/
theorem sees_rest (gap : Text → Prop) {gs : List (List Text)} (hframed : ∀ g ∈ gs, Framed g)
    (hsees : z.Sees n z.bound (restLines gs)) (hend : n + (restLines gs).length = z.bound)
    (hgap : ∀ g ∈ gs.head?, ∀ f ∈ g.head?, gap f) :
    z.Follows n z.bound (fun _ => False) gap ∧ z.Sees (z.nextAfter n z.bound) z.bound (spread (gapLines false) gs)
      ∧ z.nextAfter n z.bound + (spread (gapLines false) gs).length = z.bound := by
  cases gs with
  | nil =>
    have hn : n = z.bound := by simpa [restLines] using hend
    have hnext : z.nextAfter n z.bound = n := by
      rw [Zone.nextAfter, if_neg]
      simp [hn]
    rw [hnext]
    exact ⟨.atEnd (Nat.le_of_eq hn.symm), hsees, by simpa using hn⟩
  | cons g gs =>
    obtain ⟨s, rest, hg, hflush⟩ := (hframed g List.mem_cons_self).exists_cons
    have hcons : spread (gapLines false) (g :: gs) = s :: (rest ++ restLines gs) := by
      rw [spread_cons, hg, List.cons_append]
    have hrest : restLines (g :: gs) = gapLines false ++ spread (gapLines false) (g :: gs) := if_neg (by simp)
    rw [hrest] at hsees hend
    have hgroup := hsees.nextGroup hcons hflush
    rw [hgroup.nextAfter_eq, Nat.add_assoc, ← List.length_append]
    exact ⟨hgroup.follows (hgap g rfl s (by rw [hg]; rfl)), hgroup.sees, hend⟩

variable {p : Page} {refs : List Reference}

/-- The definitions of a page as a part, if there are any. -/
def defParts (p : Page) : List (List Text) := if p.defs = [] then [] else [p.defs]

/-- The blocks and the definitions of a page, each as one part. -/
def bodyParts (opts : Layout.Options) (p : Page) : List (List Text) :=
  (if p.body = [] then [] else [blockLines opts false p.body]) ++ defParts p

theorem spread_defParts (p : Page) : spread (gapLines false) (defParts p) = p.defs := by
  unfold defParts
  split
  · next h => rw [h]; rfl
  · simp

theorem lines_page (p : Page) :
    p.lines opts = spread (gapLines false) ((p.front.map frontLines).toList ++ bodyParts opts p) := by
  have hbody : ∀ ds : List (List Text), spread (gapLines false) (groups opts p.body ++ ds)
      = spread (gapLines false) ((if p.body = [] then [] else [blockLines opts false p.body]) ++ ds) := by
    intro ds
    cases hb : p.body with
    | nil => rfl
    | cons b bs =>
      rw [if_neg (by simp), groups, List.cons_append, spread_append, List.singleton_append, blockLines, groups,
        spread_cons (spread _ _)]
  have hnil : groups opts p.body = [] ↔ p.body = [] := by
    cases p.body <;> simp [groups]
  unfold Page.lines Page.groups bodyParts defParts
  cases p.front with
  | none => simpa using hbody _
  | some content => simp [spread_cons, restLines, hbody, hnil]

/-- What the reader needs to know of the definitions as the next part. -/
theorem framed_defParts (hdefs : ∀ s ∈ p.defs, (readDefinition? s).isSome) :
    (∀ g ∈ defParts p, Framed g) ∧ ∀ g ∈ (defParts p).head?, ∀ f ∈ g.head?, ListMarker.read? f = none := by
  unfold defParts
  split
  · simp
  · next hne =>
    simp only [List.mem_singleton, forall_eq, List.head?_cons, Option.mem_some]
    refine ⟨.of_flush hne fun s hs => ?_, fun g hg f hf => ?_⟩
    · obtain ⟨r, hr⟩ := Option.isSome_iff_exists.1 (hdefs s hs)
      obtain ⟨t, rfl⟩ := exists_cons_of_definition hr
      rfl
    · obtain ⟨r, hr⟩ := Option.isSome_iff_exists.1 (hdefs f (List.mem_of_mem_head? (hg ▸ hf)))
      obtain ⟨t, rfl⟩ := exists_cons_of_definition hr
      exact ListMarker.read?_eq_none t (by decide) (by decide)

/-- The blocks and the definitions of a page are read back from their lines. -/
theorem reads_body (hopts : opts.Readable) (hsep : areSeparate opts false p.body)
    (hlaid : areLaid opts z.depth p.body) (hdefs : ∀ s ∈ p.defs, (readDefinition? s).isSome)
    (hdepth : z.depth < maxDepth) (hsees : z.Sees i z.bound (spread (gapLines false) (bodyParts opts p)))
    (hend : i + (spread (gapLines false) (bodyParts opts p)).length = z.bound)
    (k : Nat)
    (hfuel : 2 * (spread (gapLines false) (bodyParts opts p)).length + 4 * maxDepth + 2 ≤ k)
    (spaced tight : Bool) (done : Array Token) :
    ∃ t, blocks k z [] i z.bound spaced tight done
      = .ok ⟨done ++ (blockTokens opts false p.body).toArray, z.bound, p.refs, t⟩ := by
  by_cases hb : p.body = []
  · have hparts : spread (gapLines false) (bodyParts opts p) = p.defs := by
      rw [bodyParts, if_pos hb, List.nil_append, spread_defParts]
    rw [hparts] at hsees hend hfuel
    obtain ⟨f, rfl⟩ : ∃ f, k = f + p.defs.length + 1 := ⟨k - p.defs.length - 1, by omega⟩
    obtain ⟨t, ht⟩ := reads_definitions hdefs hsees hend hdepth [] spaced tight done
    refine ⟨t, ?_⟩
    rw [ht, hb, blockTokens, Page.refs]
    simp
  · have hparts : spread (gapLines false) (bodyParts opts p)
        = blockLines opts false p.body ++ restLines (defParts p) := by
      rw [bodyParts, if_neg hb, List.singleton_append, spread_cons]
    rw [hparts] at hsees hend hfuel
    rw [List.length_append] at hend hfuel
    have hcount := length_le_blockLines hopts false hlaid
    have hframed : Framed (blockLines opts false p.body) := framed_blockLines hopts hb hlaid
    obtain ⟨hparts, hgap⟩ := framed_defParts hdefs
    obtain ⟨hfollow, hsees', hend'⟩ :=
      sees_rest (fun f => ListMarker.read? f = none) hparts (hsees.right hframed.ne_nil) (by omega) hgap
    rw [spread_defParts] at hsees' hend'
    have hafter : i + (blockLines opts false p.body).length
        ≤ z.nextAfter (i + (blockLines opts false p.body).length) z.bound := by
      unfold Zone.nextAfter
      split <;> omega
    obtain ⟨f, rfl⟩ : ∃ f, k = f + p.defs.length + 1 + p.body.length :=
      ⟨k - p.defs.length - 1 - p.body.length, by omega⟩
    rw [reads_blocks hopts (reads_all hopts p.body) false hb hsep hlaid hsees.left hfollow (by omega)]
    exact reads_definitions hdefs hsees' hend' hdepth [] _ _ _

-- ---------------------------------------------------------------------------
-- Documents
-- ---------------------------------------------------------------------------

/-- The parts after the front matter, as the reader meets them. -/
theorem framed_bodyParts (hopts : opts.Readable) {depth : Nat} (hlaid : areLaid opts depth p.body)
    (hdefs : ∀ s ∈ p.defs, (readDefinition? s).isSome) : ∀ g ∈ bodyParts opts p, Framed g := by
  intro g hg
  rcases List.mem_append.1 hg with hg | hg
  · split at hg
    · cases hg
    · next hne =>
      rw [List.mem_singleton.1 hg]
      exact framed_blockLines hopts hne hlaid
  · exact (framed_defParts hdefs).1 g hg

/-- Front matter is read back, and the reader goes on after it. -/
theorem blocks_front {content : Text} (hfront : isFront content) {gs : List (List Text)}
    (hframed : ∀ g ∈ gs, Framed g) (fuel : Nat) (refs : List Reference) (spaced tight : Bool) (done : Array Token) :
    let ss := spread (gapLines false) (frontLines content :: gs)
    let z := pageZone ss
    ∃ i spaced', 0 < i ∧ z.Sees i z.bound (spread (gapLines false) gs)
      ∧ i + (spread (gapLines false) gs).length = z.bound
      ∧ blocks (fuel + 2) z refs 0 z.bound spaced tight done
        = blocks (fuel + 1) z refs i z.bound spaced' (!spaced) (done ++ #[Page.frontToken content]) := by
  intro ss z
  have hss : ss = frontLines content ++ restLines gs := spread_cons _ _
  have hbound : z.bound = ss.length := rfl
  have hshows : z.ShowsAll 0 (frontLines content ++ restLines gs) := hss ▸ shows_pageZone ss
  have hlen : (frontLines content ++ restLines gs).length = (frontLines content).length + (restLines gs).length :=
    List.length_append
  have hpos : 0 < (frontLines content).length := Nat.succ_pos _
  have hrest : z.Sees (frontLines content).length z.bound (restLines gs) := by
    refine ⟨?_, ?_, Nat.le_refl _, by omega⟩
    · simpa using hshows.right
    · rw [hbound, hss, hlen]
  obtain ⟨hfollow, hsees, hend⟩ := sees_rest (fun _ => True) hframed hrest
    (by rw [hbound, hss, hlen]) (fun _ _ _ _ => trivial)
  have hread : block (fuel + 1) z refs 0 z.bound
      = .ok ⟨#[Page.frontToken content], (frontLines content).length, refs, true⟩ := by
    have hat : frontMatterAt? z 0 z.bound = .ok (some ([Page.frontToken content], (frontLines content).length)) := by
      have := frontMatterAt?_pageZone hfront (restLines gs)
      rwa [← hss] at this
    refine block_of_leafBefore (r := ([Page.frontToken content], (frontLines content).length)) ?_
    simp only [leafBefore?, hat]
    rfl
  have hlast : z.isEmpty ((frontLines content).length - 1) = false := by
    have hlines : frontLines content
        = ("---".toList :: frontContent content) ++ ["---".toList] := rfl
    have hmarker := hshows.left
    rw [hlines] at hmarker ⊢
    have := hmarker.right.head.isEmpty_eq_false rfl
    simpa using this
  have hfirst : z.Shows 0 "---".toList := hshows.head
  have hstep := blocks_step (n := (frontLines content).length) hfirst rfl (by rw [hbound, hss, hlen]; omega)
    (depth_pageZone ss) hread (.inl rfl) hlast (fun hn he => hfollow.isEmpty_succ hn (Nat.le_refl _) he) spaced tight done
  refine ⟨_, _, ?_, hsees, hend, hstep⟩
  unfold Zone.nextAfter
  split <;> omega

/-- A laid document is read back from its lines. -/
theorem reads_page (hopts : opts.Readable) (h : p.isLaid opts) :
    let z := pageZone (p.lines opts)
    ∃ t, blocks (4 * (z.bound + 32)) z [] 0 z.bound false true #[]
      = .ok ⟨(p.tokens opts).toArray, z.bound, p.refs, t⟩ := by
  intro z
  obtain ⟨hfront, hsep, hlaid, hdefs, -, hstart, -, -⟩ := Page.isLaid_iff.1 h
  have hbound : z.bound = (p.lines opts).length := rfl
  have hlines : p.lines opts = _ := lines_page p
  cases hp : p.front with
  | none =>
    rw [hp, Option.map_none, Option.toList_none, List.nil_append] at hlines
    replace hstart := hstart.resolve_left (by simp [hp])
    have hplain : z.Plain := by
      cases hs : p.lines opts with
      | nil =>
        refine .inl ?_
        rw [show z = pageZone [] from congrArg pageZone hs]
        decide
      | cons s ss =>
        rw [hs] at hstart
        rw [show z = pageZone (s :: ss) from congrArg pageZone hs]
        exact plain_pageZone hstart
    have hsees : z.Sees 0 z.bound (spread (gapLines false) (bodyParts opts p)) := by
      refine ⟨?_, by rw [← hlines, hbound, Nat.zero_add], Nat.le_refl _, fun _ => hplain⟩
      rw [← hlines]
      exact shows_pageZone _
    obtain ⟨t, ht⟩ := reads_body hopts hsep hlaid hdefs (depth_pageZone _) hsees
      (by rw [← hlines, hbound, Nat.zero_add]) (4 * (z.bound + 32))
      (by rw [← hlines, ← hbound, maxDepth]; omega) false true #[]
    refine ⟨t, ht.trans ?_⟩
    rw [Page.tokens, hp]
    simp [z]
  | some content =>
    rw [hp, Option.map_some, Option.toList_some, List.singleton_append] at hlines
    rw [hp, Option.all_some] at hfront
    obtain ⟨i, spaced, hi, hsees, hend, hstep⟩ := blocks_front hfront
      (framed_bodyParts hopts hlaid hdefs) (4 * (z.bound + 31) + 2) [] false true #[]
    rw [← hlines] at hsees hend hstep
    have hle : (spread (gapLines false) (bodyParts opts p)).length ≤ z.bound := Nat.le.intro (Nat.add_comm _ _ ▸ hend)
    obtain ⟨t, ht⟩ := reads_body hopts hsep hlaid hdefs (depth_pageZone _) hsees hend
      (4 * (z.bound + 31) + 2 + 1) (by rw [maxDepth]; omega) spaced true
      (#[] ++ #[Page.frontToken content])
    refine ⟨t, ?_⟩
    have hfuel : 4 * (z.bound + 32) = 4 * (z.bound + 31) + 2 + 2 := by omega
    rw [hfuel, hstep, Page.tokens, hp]
    simpa using ht

theorem unbroken_page (hopts : opts.Readable) (hlaid : areLaid opts 0 p.body) (hdefs : ∀ s ∈ p.defs, '\n' ∉ s) :
    Unbroken (p.lines opts) := by
  refine unbroken_spread false fun g hg => ?_
  rcases List.mem_append.1 hg with hg | hg
  · rcases List.mem_append.1 hg with hg | hg
    · simp only [Option.mem_toList, Option.map_eq_some_iff] at hg
      obtain ⟨content, -, rfl⟩ := hg
      intro s hs
      simp only [frontLines, List.mem_cons, List.mem_append, List.not_mem_nil, or_false] at hs
      rcases hs with rfl | hs | rfl
      · decide
      · unfold frontContent at hs
        split at hs
        · cases hs
        · exact Text.notMem_of_mem_splitOn hs
      · decide
    · exact (text_blocks hopts p.body hlaid).2 g hg
  · split at hg
    · cases hg
    · rw [List.mem_singleton.1 hg]
      exact hdefs

/-- Every part of a document with laid blocks starts flush. -/
theorem framed_page (hopts : opts.Readable) (hlaid : areLaid opts 0 p.body)
    (hdefs : ∀ s ∈ p.defs, (readDefinition? s).isSome) : ∀ g ∈ p.groups opts, Framed g := by
  intro g hg
  rcases List.mem_append.1 hg with hg | hg
  · rcases List.mem_append.1 hg with hg | hg
    · simp only [Option.mem_toList, Option.map_eq_some_iff] at hg
      obtain ⟨content, -, rfl⟩ := hg
      exact ⟨⟨_, rfl, rfl⟩, ⟨"---".toList, List.getLast?_concat (l := "---".toList :: frontContent content), rfl⟩⟩
    · exact framed_groups hopts p.body hlaid g hg
  · exact (framed_defParts hdefs).1 g hg

theorem frontText_eq (content : Text) : frontText content = Text.join ['\n'] (frontLines content) := by
  rw [frontLines, Text.join_cons_of_ne_nil _ _ (by simp), frontText, frontContent]
  split
  · simp
  · rw [Text.join_append _ (Text.splitOn_ne_nil '\n' content) (by simp), Text.join_splitOn]
    simp

/-- The text of a document with laid blocks is its lines, each with its line end. -/
theorem text_page (hopts : opts.Readable) (hlaid : areLaid opts 0 p.body)
    (hdefs : ∀ s ∈ p.defs, (readDefinition? s).isSome) :
    p.text opts = if p.groups opts = [] then [] else Text.join ['\n'] (p.lines opts) ++ ['\n'] := by
  have hframed := framed_page hopts hlaid hdefs
  generalize hfront : (p.front.map frontLines).toList ++ groups opts p.body = front
  have htexts : p.texts opts = front.map (Text.join ['\n']) := by
    rw [Page.texts, (text_blocks hopts p.body hlaid).1, ← hfront, List.map_append]
    congr 1
    cases p.front with
    | none => rfl
    | some content => simp [frontText_eq]
  have hgroups : p.groups opts = front ++ if p.defs = [] then [] else [p.defs] := by
    rw [Page.groups, hfront]
  rw [hgroups] at hframed
  have hfrontFramed : ∀ g ∈ front, Framed g := fun g hg => hframed g (List.mem_append_left _ hg)
  have hout : Layout.joinNonempty (Layout.separator false)
      [Layout.joinNonempty (Layout.separator false) (p.texts opts), Text.join ['\n'] p.defs]
      = Text.join ['\n'] (p.lines opts) := by
    rw [htexts, joinNonempty_groups false hfrontFramed, Page.lines, hgroups]
    by_cases hd : p.defs = []
    · rw [if_pos hd, List.append_nil, hd]
      by_cases hf : front = []
      · rw [hf]
        rfl
      · have hne : Text.join ['\n'] (spread (gapLines false) front) ≠ [] :=
          join_ne_nil (framed_spread hf hfrontFramed)
        simp [Layout.joinNonempty, hne]
    · rw [if_neg hd] at hframed ⊢
      have hframedDefs : Framed p.defs := hframed p.defs (by simp)
      cases front with
      | nil => simp [Layout.joinNonempty, join_ne_nil hframedDefs]
      | cons g gs =>
        have hspread : Framed (spread (gapLines false) (g :: gs)) := framed_spread (by simp) hfrontFramed
        have hjoin : Layout.joinNonempty (Layout.separator false)
            ([spread (gapLines false) (g :: gs), p.defs].map (Text.join ['\n'])) = _ :=
          joinNonempty_groups false (by simp [hspread, hframedDefs])
        rw [List.map_cons, List.map_singleton] at hjoin
        rw [hjoin, List.cons_append, spread_append, spread_cons (spread _ _)]
  rw [Page.text, hout]
  by_cases hg : p.groups opts = []
  · rw [if_pos hg, Page.lines, hg]
    rfl
  · rw [if_neg hg, if_neg]
    rw [← hgroups] at hframed
    exact join_ne_nil (framed_spread hg hframed)

/-- A laid document is read back from its text. -/
theorem parse_page (hopts : opts.Readable) (h : p.isLaid opts) :
    parse (p.text opts) = .ok (p.tokens opts, p.refs) := by
  have hlines : linesOf (p.text opts) = (plainLines (p.lines opts)).toArray := by
    obtain ⟨-, -, hlaid, hread, hline, -, -, -⟩ := Page.isLaid_iff.1 h
    rw [text_page hopts hlaid hread]
    split
    · next hnil => rw [Page.lines, hnil]; rfl
    · next hne =>
      exact linesOf_join (framed_spread hne (framed_page hopts hlaid hread)).ne_nil
        (unbroken_page hopts hlaid hline)
  have hsize : (plainLines (p.lines opts)).length = (p.lines opts).length := List.length_map _
  obtain ⟨t, ht⟩ := reads_page hopts h
  have hparse : parse (p.text opts)
      = (blocks (4 * ((pageZone (p.lines opts)).bound + 32)) (pageZone (p.lines opts)) [] 0
          (pageZone (p.lines opts)).bound false true #[]).map fun r => (r.tokens.toList, r.refs) := by
    rw [parse, hlines]
    simp only [List.size_toArray, hsize, List.map_toArray]
    rfl
  rw [hparse, ht]
  rfl

end Block

-- ---------------------------------------------------------------------------
-- Characters
-- ---------------------------------------------------------------------------

open Outline

theorem Markdown.normalize_eq {t : Text} (h : t.all isPlainChar) : normalize t = t := by
  induction t with
  | nil => rfl
  | cons c t ih =>
    simp only [List.all_cons, Bool.and_eq_true, isPlainChar, bne_iff_ne, ne_eq] at h
    obtain ⟨⟨hreturn, hnull⟩, ht⟩ := h
    rw [normalize, ih (by simpa [isPlainChar] using ht), if_neg hreturn, if_neg hnull]
    exact fun _ hc => absurd hc hreturn

theorem dropMark_eq {t : Text} (h : t.head?.all fun c => c.toNat != 0xFEFF) : dropMark t = t := by
  cases t with
  | nil => rfl
  | cons c t =>
    rw [dropMark, if_neg]
    simpa using h

/-- The tokens of a laid document, with all running text read. -/
theorem Markdown.read_page {opts : Layout.Options} (hopts : opts.Readable) {p : Page} (h : p.isLaid opts) :
    read (dropMark (p.text opts)) = .ok ((p.tokens opts).map (readRunning p.refs), p.refs) := by
  have hlaid := Page.isLaid_iff.1 h
  rw [dropMark_eq hlaid.noMark, read, normalize_eq hlaid.plain, Block.parse_page hopts h]
  rfl

end MdxSafe
