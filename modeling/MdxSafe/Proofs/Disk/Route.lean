-- SUMMARY: Where paths lead on a disk without links, and what decides it.
import MdxSafe.Proofs.Disk.Access

/-!
# Routes

On a disk without links a path leads through spots that are known beforehand (`Path.route`) to its goal. What it leads
to is decided by the shape of the disk on the route and by what stands at the goal (`Disk.lookup_congr`).
-/

namespace MdxSafe

-- ---------------------------------------------------------------------------
-- Disks without links
-- ---------------------------------------------------------------------------

mutual
/-- Whether an entry is no link and there is none below it. -/
def Entry.isLinkless : Entry → Bool
  | .file _ | .special => true
  | .directory _ es => Entry.areLinkless es
  | .link _ => false
termination_by structural e => e

/-- Whether the entries of a directory are no links and there are none below them. -/
def Entry.areLinkless : List (Text × Entry) → Bool
  | [] => true
  | (_, e) :: es => e.isLinkless && Entry.areLinkless es
termination_by structural es => es
end

/-- A disk that shows no link. -/
def Disk.Linkless (d : Disk) : Prop := ∀ s target, d.view s ≠ some (.link target)

theorem Entry.isLinkless_of_find? {es : List (Text × Entry)} (h : Entry.areLinkless es = true) {name : Text} {e : Entry}
    (hfind : Entry.find? es name = some e) : e.isLinkless = true := by
  induction es with
  | nil => cases hfind
  | cons x es ih =>
    obtain ⟨hx, hes⟩ := Bool.and_eq_true_iff.1 h
    by_cases hname : x.1 = name
    · have hsome : some x.2 = some e := by simpa [Entry.find?, hname] using hfind
      cases hsome
      exact hx
    · have hskip : Entry.find? es name = some e := by simpa [Entry.find?, hname] using hfind
      exact ih hes hskip

theorem Entry.isLinkless_of_at? {root e : Entry} (h : root.isLinkless = true) {s : Spot} (hat : root.at? s = some e) :
    e.isLinkless = true := by
  induction s generalizing root with
  | nil =>
    rw [Entry.at?_nil] at hat
    cases hat
    exact h
  | cons name s ih =>
    cases root with
    | directory readable es =>
      rw [Entry.at?_cons] at hat
      obtain ⟨x, hfind, hat⟩ := Option.bind_eq_some_iff.1 hat
      exact ih (Entry.isLinkless_of_find? h hfind) hat
    | file bytes => cases hat
    | link target => cases hat
    | special => cases hat

/-- A tree without links shows none. -/
theorem Disk.linkless_of_isLinkless {d : Disk} (h : d.root.isLinkless = true) : d.Linkless := by
  intro s target hview
  obtain ⟨e, hat, hoccupant⟩ := Option.map_eq_some_iff.1 hview
  have he := Entry.isLinkless_of_at? h hat
  cases e with
  | link target => exact Bool.false_ne_true he
  | file bytes => cases hoccupant
  | directory readable es => cases hoccupant
  | special => cases hoccupant

theorem Disk.Linkless.putFile {d : Disk} (h : d.Linkless) {s : Spot} (hs : d.Takes s) (bytes : Bytes) :
    (d.putFile s bytes).Linkless := by
  intro t target
  by_cases hts : t = s
  · rw [hts, Disk.view_putFile_self hs]
    exact nofun
  · rw [Disk.view_putFile_of_ne hs bytes hts]
    exact h t target

-- ---------------------------------------------------------------------------
-- The shape of a disk
-- ---------------------------------------------------------------------------

/-- An occupant without the bytes of a file. -/
def Occupant.blank : Occupant → Occupant
  | file _ => .file []
  | x => x

/-- The map from spots to what stands there, without the bytes of files. -/
def Entry.shape (root : Entry) (s : Spot) : Option Occupant := (root.view s).map Occupant.blank

/-- The map from spots to what stands there, without the bytes of files. -/
def Disk.shape (d : Disk) (s : Spot) : Option Occupant := d.root.shape s

/-- Where the shape is the same, the same stands there, or a file here and there. -/
theorem Entry.view_of_shape {root root' : Entry} {s : Spot} (h : root'.shape s = root.shape s) :
    root'.view s = root.view s
      ∨ (∃ b, root.view s = some (.file b)) ∧ ∃ b, root'.view s = some (.file b) := by
  unfold shape at h
  cases hroot : root.view s with
  | none =>
    rw [hroot] at h
    exact .inl (Option.map_eq_none_iff.1 h)
  | some x =>
    rw [hroot] at h
    obtain ⟨y, hy, hblank⟩ := Option.map_eq_some_iff.1 h
    rw [hy]
    cases x <;> cases y <;> cases hblank
    case file.file.refl b b' => exact .inr ⟨⟨b, rfl⟩, b', rfl⟩
    all_goals exact .inl rfl

/-- A file that is put where there was one keeps the shape. -/
theorem Disk.shape_putFile_of_file {d : Disk} {s : Spot} {b : Bytes} (h : d.view s = some (.file b)) (bytes : Bytes) :
    (d.putFile s bytes).shape = d.shape := by
  funext t
  show ((d.putFile s bytes).view t).map Occupant.blank = (d.view t).map Occupant.blank
  by_cases hts : t = s
  · rw [hts, Disk.view_putFile_self (.inl ⟨b, h⟩), h]
    rfl
  · rw [Disk.view_putFile_of_ne (.inl ⟨b, h⟩) bytes hts]

theorem Disk.shape_putFile_of_ne {d : Disk} {s t : Spot} (h : d.Takes s) (bytes : Bytes) (hne : t ≠ s) :
    (d.putFile s bytes).shape t = d.shape t := by
  show ((d.putFile s bytes).view t).map Occupant.blank = (d.view t).map Occupant.blank
  rw [Disk.view_putFile_of_ne h bytes hne]

-- ---------------------------------------------------------------------------
-- Routes and goals
-- ---------------------------------------------------------------------------

/-- Where a name leads from a spot, if it is not the name of a link. -/
def Spot.follow (s : Spot) (name : Text) : Spot :=
  if name = [] ∨ name = ['.'] then s else if name = ['.', '.'] then s.dropLast else s ++ [name]

theorem Spot.follow_stay (s : Spot) {name : Text} (h : name = [] ∨ name = ['.']) : Spot.follow s name = s := if_pos h

theorem Spot.follow_up (s : Spot) : Spot.follow s ['.', '.'] = s.dropLast := rfl

theorem Spot.follow_down (s : Spot) {name : Text} (hstay : ¬ (name = [] ∨ name = ['.'])) (hup : name ≠ ['.', '.']) :
    Spot.follow s name = s ++ [name] := by
  unfold follow
  rw [if_neg hstay, if_neg hup]

/-- The spots that a path leads through on a disk without links, from the first to the last. -/
def Path.route (here : Spot) (p : Path) : List Spot := p.names.scanl Spot.follow (p.origin here)

/-- The spot that a path leads to on a disk without links. -/
def Path.goal (here : Spot) (p : Path) : Spot := p.names.foldl Spot.follow (p.origin here)

namespace Disk

variable {d d' : Disk} {root root' : Entry} {last : LastName} {p : Path} {s spot : Spot} {names : List Text}
  {o : Option Occupant} {links : Nat} {bytes : Bytes}

theorem Leads.eq_foldl (h : Leads root last links spot names s o)
    (hlinkless : ∀ s target, root.view s ≠ some (.link target)) : s = names.foldl Spot.follow spot := by
  induction h with
  | stop _ => rfl
  | @stay _ spot _ name rest _ _ _ hname _ ih => rw [ih, List.foldl_cons, Spot.follow_stay spot hname]
  | @up _ spot _ rest _ _ _ _ ih => rw [ih, List.foldl_cons, Spot.follow_up]
  | @free _ spot name _ _ hstep _ =>
    rw [List.foldl_cons, Spot.follow_down spot hstep.not_stay hstep.not_up, List.foldl_nil]
  | @down _ spot _ name rest _ _ _ _ hstep _ _ _ ih =>
    rw [ih, List.foldl_cons, Spot.follow_down spot hstep.not_stay hstep.not_up]
  | follow _ _ hview _ _ => exact absurd hview (hlinkless _ _)

/-- The file of a path is at its goal. -/
theorem Linkless.spot_eq (h : d.Linkless) (hspot : d.spot p = .ok s) : s = p.goal d.current := by
  obtain ⟨o, hlookup, -⟩ := spot_eq_ok_iff.1 hspot
  exact (lookup_create_eq_ok_iff.1 hlookup).2.eq_foldl h

theorem Linkless.view_of_read (h : d.Linkless) (hread : d.read p = .ok bytes) :
    d.view (p.goal d.current) = some (.file bytes) := by
  obtain ⟨s, hspot, hview⟩ := read_eq_ok_iff.1 hread
  rw [← h.spot_eq hspot, hview]

-- ---------------------------------------------------------------------------
-- What decides where a path leads
-- ---------------------------------------------------------------------------

/-- Where names lead is decided by the shape on their route. What is seen of the occupant there, by way of `f`, is
decided by what is seen of the one at the end of the route. -/
theorem map_shown_walkFrom_congr {β : Type} (f : Option Occupant → β)
    {expand expand' : Spot → List Text → Except DiskFault Target}
    (hlinkless : ∀ s target, root.view s ≠ some (.link target))
    (hroute : ∀ t ∈ names.scanl Spot.follow spot, root'.shape t = root.shape t)
    (hgoal : f (root'.view (names.foldl Spot.follow spot)) = f (root.view (names.foldl Spot.follow spot))) :
    ((walkFrom root' last expand' spot names).map Target.shown).map (Prod.map id f)
      = ((walkFrom root last expand spot names).map Target.shown).map (Prod.map id f) := by
  induction names generalizing spot with
  | nil =>
    rw [shown_walkFrom_nil, shown_walkFrom_nil]
    rw [List.foldl_nil] at hgoal
    rcases Entry.view_of_shape (hroute spot (by simp)) with hsame | ⟨⟨b, hfile⟩, b', hfile'⟩
    · rw [hsame]
    · rw [hfile, hfile'] at hgoal ⊢
      exact congrArg (fun x => Except.ok (spot, x)) hgoal
  | cons name rest ih =>
    rw [List.scanl_cons, List.forall_mem_cons] at hroute
    obtain ⟨hspot, hroute⟩ := hroute
    rw [List.foldl_cons] at hgoal
    have hrest := ih hroute hgoal
    rw [shown_walkFrom_cons, shown_walkFrom_cons]
    rcases Entry.view_of_shape hspot with hsame | ⟨⟨b, hfile⟩, b', hfile'⟩
    · rw [hsame]
      split
      · by_cases hstay : name = [] ∨ name = ['.']
        · rw [if_pos hstay, if_pos hstay]
          rwa [Spot.follow_stay spot hstay] at hrest
        rw [if_neg hstay, if_neg hstay]
        by_cases hup : name = ['.', '.']
        · rw [if_pos hup, if_pos hup]
          rwa [hup, Spot.follow_up] at hrest
        rw [if_neg hup, if_neg hup]
        rw [Spot.follow_down spot hstay hup] at hrest hroute
        -- The name is looked up, and nothing but the bytes of a file can differ there.
        have hthere : root'.shape (spot ++ [name]) = root.shape (spot ++ [name]) :=
          hroute _ (List.mem_of_getElem? List.getElem?_scanl_zero)
        simp only [apply_ite (Except.map (Prod.map id f))]
        congr 2
        rcases Entry.view_of_shape hthere with hsame | ⟨⟨b, hfile⟩, b', hfile'⟩
        · rw [hsame]
          split
          · rfl
          · next hlink => exact absurd hlink (hlinkless _ _)
          · exact hrest
        · rw [hfile, hfile']
          exact hrest
      · rfl
      · rfl
    · rw [hfile, hfile']

/-- Where names lead is decided by the shape on their route and by what stands at the end of it. -/
theorem shown_walkFrom_congr {expand expand' : Spot → List Text → Except DiskFault Target}
    (hlinkless : ∀ s target, root.view s ≠ some (.link target))
    (hroute : ∀ t ∈ names.scanl Spot.follow spot, root'.shape t = root.shape t)
    (hgoal : root'.view (names.foldl Spot.follow spot) = root.view (names.foldl Spot.follow spot)) :
    (walkFrom root' last expand' spot names).map Target.shown = (walkFrom root last expand spot names).map Target.shown := by
  have h : ((walkFrom root' last expand' spot names).map Target.shown).map (Prod.map id id)
      = ((walkFrom root last expand spot names).map Target.shown).map (Prod.map id id) :=
    map_shown_walkFrom_congr id hlinkless hroute hgoal
  simpa using h

/-- Where a path leads is decided by the shape on its route and by what stands at its goal. -/
theorem lookup_congr (hlinkless : d.Linkless) (hcurrent : d'.current = d.current)
    (hroute : ∀ t ∈ p.route d.current, d'.shape t = d.shape t)
    (hgoal : d'.view (p.goal d.current) = d.view (p.goal d.current)) (last : LastName) :
    d'.lookup last p = d.lookup last p := by
  rw [lookup_eq, lookup_eq, hcurrent]
  cases unfit? p with
  | some fault => rfl
  | none => exact shown_walkFrom_congr hlinkless hroute hgoal

theorem spot_congr (hlinkless : d.Linkless) (hcurrent : d'.current = d.current)
    (hroute : ∀ t ∈ p.route d.current, d'.shape t = d.shape t)
    (hgoal : d'.view (p.goal d.current) = d.view (p.goal d.current)) : d'.spot p = d.spot p := by
  unfold spot
  rw [lookup_congr hlinkless hcurrent hroute hgoal]

theorem read_congr (hlinkless : d.Linkless) (hcurrent : d'.current = d.current)
    (hroute : ∀ t ∈ p.route d.current, d'.shape t = d.shape t)
    (hgoal : d'.view (p.goal d.current) = d.view (p.goal d.current)) : d'.read p = d.read p := by
  rw [read_eq, read_eq, lookup_congr hlinkless hcurrent hroute hgoal]

end Disk

end MdxSafe
