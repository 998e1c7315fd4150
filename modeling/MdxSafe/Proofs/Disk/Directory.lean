-- SUMMARY: Making directories on a disk without links: what is made, and that a second attempt makes nothing.
import Mathlib.Data.List.Infix
import MdxSafe.Proofs.Disk.Beside

/-!
# Directories

To make a directory, what is missing above it is made first. Whatever comes of it, directories are made where nothing
stood on the route of the path, and all else stays (`Disk.made_ensureDirectories`). If the directory cannot be made, the
disk is stuck: a second attempt makes nothing and fails as well (`Disk.Stuck`). That depends on the shape of the disk alone.
-/

namespace MdxSafe

namespace Disk

variable {d d' : Disk} {root root' : Entry} {last : LastName} {p : Path} {s t spot : Spot} {names lead tail : List Text}
  {o : Option Occupant} {x : Occupant} {links : Nat} {on on' : Spot → Prop}

-- ---------------------------------------------------------------------------
-- Where a path leads, up to bytes
-- ---------------------------------------------------------------------------

/-- Where a path leads and what kind of thing stands there. -/
def standing (d : Disk) (p : Path) : Except DiskFault (Spot × Option Occupant) :=
  (d.lookup .follow p).map (Prod.map id (Option.map Occupant.blank))

/-- Without links it makes no difference whether a last link is followed. -/
theorem Linkless.lookup_keep (h : d.Linkless) (p : Path) : d.lookup .keep p = d.lookup .follow p := by
  have hwalk : ∀ (expand expand' : Spot → List Text → Except DiskFault Target) (names : List Text) (spot : Spot),
      (walkFrom d.root .keep expand spot names).map Target.shown
        = (walkFrom d.root .follow expand' spot names).map Target.shown := by
    intro expand expand' names
    induction names with
    | nil =>
      intro spot
      rw [shown_walkFrom_nil, shown_walkFrom_nil]
    | cons name rest ih =>
      intro spot
      rw [shown_walkFrom_cons, shown_walkFrom_cons, ih, ih, ih]
      split
      · simp only [reduceCtorEq, false_and, if_false]
        congr 3
        split
        · rfl
        · next hlink => exact absurd hlink (h _ _)
        · rfl
      · rfl
      · rfl
  rw [lookup_eq, lookup_eq]
  cases unfit? p with
  | some fault => rfl
  | none => exact hwalk _ _ _ _

/-- Which kind of thing a path leads to is decided by the shape of the disk. -/
theorem standing_congr (h : d.Linkless) (hcurrent : d'.current = d.current) (hshape : d'.shape = d.shape) (p : Path) :
    d'.standing p = d.standing p := by
  unfold standing
  rw [lookup_eq, lookup_eq, hcurrent]
  cases unfit? p with
  | some fault => rfl
  | none =>
    exact map_shown_walkFrom_congr (Option.map Occupant.blank) h (fun t _ => congrFun hshape t) (congrFun hshape _)

/-- Whether a path leads to a directory, from what stands there. -/
theorem isDirectory_eq (d : Disk) (p : Path) :
    d.isDirectory p = match d.standing p with
      | .ok (_, some (.directory _)) => .ok true
      | .ok _ | .error .missing | .error .notDirectory | .error .linkLoop | .error .nullCharacter => .ok false
      | .error cause => .error ⟨cause, p⟩ := by
  unfold isDirectory status standing lookup
  cases d.resolve .follow p with
  | error cause => cases cause <;> rfl
  | ok target =>
    cases target with
    | found s e => cases e <;> rfl
    | free s name => rfl

theorem isDirectory_iff :
    d.isDirectory p = .ok true ↔ ∃ s readable, d.lookup .follow p = .ok (s, some (.directory readable)) := by
  unfold isDirectory status lookup
  cases d.resolve .follow p with
  | error cause => cases cause <;> simp [Except.map]
  | ok target =>
    cases target with
    | found s e => cases e <;> simp [Except.map, Target.shown, Entry.occupant]
    | free s name => simp [Except.map, Target.shown]

theorem isDirectory_congr (h : d.Linkless) (hcurrent : d'.current = d.current) (hshape : d'.shape = d.shape)
    (p : Path) : d'.isDirectory p = d.isDirectory p := by
  rw [isDirectory_eq, isDirectory_eq, standing_congr h hcurrent hshape]

/-- The disk with a directory put at a spot. -/
def putDirectory (d : Disk) (s : Spot) : Disk := { d with root := d.root.put (.directory true []) s }

theorem makeDirectory_eq (d : Disk) (p : Path) :
    d.makeDirectory p = match d.lookup .keep p with
      | .ok (s, none) => .ok (d.putDirectory s)
      | .ok (_, some _) => .error ⟨.occupied, p⟩
      | .error cause => .error ⟨cause, p⟩ := by
  unfold makeDirectory lookup
  cases d.resolve .keep p with
  | error cause => rfl
  | ok target => cases target <;> rfl

/-- A directory is made where nothing stands; one that is there already stays as it is. -/
theorem Linkless.ensureDirectory_eq (h : d.Linkless) (p : Path) :
    d.ensureDirectory p = match d.standing p with
      | .ok (s, none) => .ok (d.putDirectory s)
      | .ok (_, some (.directory _)) => .ok d
      | .ok (_, some _) => .error ⟨.occupied, p⟩
      | .error cause => .error ⟨cause, p⟩ := by
  unfold ensureDirectory
  rw [isDirectory_eq, makeDirectory_eq, h.lookup_keep]
  unfold standing
  cases d.lookup .follow p with
  | error cause => cases cause <;> rfl
  | ok found =>
    obtain ⟨s, - | x⟩ := found
    · rfl
    · cases x <;> rfl

-- ---------------------------------------------------------------------------
-- Directories that are made
-- ---------------------------------------------------------------------------

/-- A directory that is put where nothing stood shows there, and nothing else changes. -/
theorem view_putDirectory (h : d.Takes s) :
    (d.putDirectory s).view = Function.update d.view s (some (.directory true)) :=
  Entry.view_put_leaf h fun _ _ heq => (Entry.directory.inj heq).2.symm

/-- Directories were made at some spots where nothing stood, and all else stayed. -/
structure Made (on : Spot → Prop) (d d' : Disk) : Prop where
  current : d'.current = d.current
  view : ∀ t, d'.view t = d.view t ∨ on t ∧ d.view t = none ∧ d'.view t = some (.directory true)

namespace Made

theorem refl (on : Spot → Prop) (d : Disk) : Made on d d := ⟨rfl, fun _ => .inl rfl⟩

theorem trans {d'' : Disk} (h : Made on d d') (h' : Made on d' d'') : Made on d d'' where
  current := h'.current.trans h.current
  view t := by
    rcases h'.view t with hsame | ⟨hon, hnone, hmade⟩
    · rw [hsame]
      exact h.view t
    · rcases h.view t with hsame | ⟨-, -, hthere⟩
      · exact .inr ⟨hon, hsame ▸ hnone, hmade⟩
      · rw [hthere] at hnone
        cases hnone

theorem mono (h : Made on d d') (hon : ∀ t, on t → on' t) : Made on' d d' :=
  ⟨h.current, fun t => (h.view t).imp_right fun hmade => ⟨hon t hmade.1, hmade.2⟩⟩

theorem linkless (h : Made on d d') (hlinkless : d.Linkless) : d'.Linkless := by
  intro t target
  rcases h.view t with hsame | ⟨-, -, hmade⟩
  · rw [hsame]
    exact hlinkless t target
  · rw [hmade]
    exact nofun

/-- What stood somewhere stays. -/
theorem view_of_some (h : Made on d d') (ht : d.view t = some x) : d'.view t = some x := by
  rcases h.view t with hsame | ⟨-, hnone, -⟩
  · rw [hsame, ht]
  · rw [ht] at hnone
    cases hnone

end Made

/-- Names lead on to where they led to something when that something, and all else that was there, stays. -/
theorem Leads.grow (h : Leads root last links spot names s (some x))
    (hkept : ∀ t y, root.view t = some y → root'.view t = some y) : Leads root' last links spot names s (some x) := by
  generalize ho : some x = o at h
  induction h with
  | stop hview => exact .stop (hkept _ _ hview)
  | stay hdir hname _ ih => exact .stay (hkept _ _ hdir) hname (ih ho)
  | up hdir _ ih => exact .up (hkept _ _ hdir) (ih ho)
  | free _ _ _ => cases ho
  | down hdir hstep hview hx _ ih => exact .down (hkept _ _ hdir) hstep (hkept _ _ hview) hx (ih ho)
  | follow hdir hstep hview _ ih => exact .follow (hkept _ _ hdir) hstep (hkept _ _ hview) (ih ho)

theorem Made.lookup_of_some (h : Made on d d') (hlast : last ≠ .keep) (hl : d.lookup last p = .ok (s, some x)) :
    d'.lookup last p = .ok (s, some x) := by
  rw [lookup_eq_ok_iff hlast] at hl ⊢
  rw [h.current]
  exact hl.imp_right fun hleads => hleads.grow fun _ _ => h.view_of_some

/-- What could be read can be read still. -/
theorem Made.read_of_ok {b : Bytes} (h : Made on d d') (hread : d.read p = .ok b) : d'.read p = .ok b := by
  obtain ⟨s, hspot, hview⟩ := read_eq_ok_iff.1 hread
  obtain ⟨o, hlookup, -⟩ := spot_eq_ok_iff.1 hspot
  obtain rfl : some (.file b) = o := hview.symm.trans (lookup_create_eq_ok_iff.1 hlookup).2.view_eq
  have hcreate : d'.lookup .create p = .ok (s, some (.file b)) := h.lookup_of_some nofun hlookup
  exact read_eq_ok_iff.2 ⟨s, spot_eq_ok_iff.2 ⟨_, hcreate, .inr ⟨b, rfl⟩⟩, h.view_of_some hview⟩

theorem Made.readText_of_ok {t : Text} (h : Made on d d') (hread : d.readText p = .ok t) : d'.readText p = .ok t := by
  unfold readText at hread ⊢
  cases hbytes : d.read p with
  | error e =>
    rw [hbytes] at hread
    cases hread
  | ok bytes =>
    rw [hbytes] at hread
    rwa [h.read_of_ok hbytes]

-- ---------------------------------------------------------------------------
-- One directory
-- ---------------------------------------------------------------------------

theorem standing_eq_ok_iff : d.standing p = .ok (s, o) ↔ ∃ o', d.lookup .follow p = .ok (s, o') ∧ o'.map Occupant.blank = o := by
  unfold standing
  cases d.lookup .follow p with
  | error cause => simp [Except.map]
  | ok found => obtain ⟨s', o'⟩ := found; simp [Except.map, and_assoc]

/-- What is done to make one directory: one that is there is left, and a missing one is put at the goal of the path. -/
theorem Linkless.ensureDirectory_cases (h : d.Linkless) (hok : d.ensureDirectory p = .ok d') :
    (∃ s readable, d.lookup .follow p = .ok (s, some (.directory readable)) ∧ d' = d)
      ∨ (d.lookup .follow p = .ok (p.goal d.current, none) ∧ d' = d.putDirectory (p.goal d.current)) := by
  rw [h.ensureDirectory_eq] at hok
  split at hok
  · next s hstanding =>
    cases hok
    obtain ⟨o, hlookup, ho⟩ := standing_eq_ok_iff.1 hstanding
    obtain rfl := Option.map_eq_none_iff.1 ho
    obtain rfl := (lookup_follow_eq_ok_iff.1 hlookup).2.eq_foldl h
    exact .inr ⟨hlookup, rfl⟩
  · next s readable hstanding =>
    cases hok
    obtain ⟨o, hlookup, ho⟩ := standing_eq_ok_iff.1 hstanding
    obtain ⟨x, rfl, hx⟩ := Option.map_eq_some_iff.1 ho
    cases x <;> cases hx
    exact .inl ⟨s, _, hlookup, rfl⟩
  · cases hok
  · cases hok

theorem Linkless.ensureDirectory_of_isDirectory (h : d.Linkless) (hdir : d.isDirectory p = .ok true) :
    d.ensureDirectory p = .ok d := by
  obtain ⟨s, readable, hl⟩ := isDirectory_iff.1 hdir
  rw [h.ensureDirectory_eq, standing_eq_ok_iff.2 ⟨_, hl, rfl⟩]
  rfl

theorem made_putDirectory (hl : d.lookup .follow p = .ok (s, none)) : Made (· = s) d (d.putDirectory s) where
  current := rfl
  view t := by
    have hleads := (lookup_follow_eq_ok_iff.1 hl).2
    rw [view_putDirectory hleads.takes]
    by_cases hts : t = s
    · subst hts
      exact .inr ⟨rfl, hleads.view_eq, Function.update_self _ _ _⟩
    · exact .inl (Function.update_of_ne hts _ _)

/-- A directory that was made is there. -/
theorem lookup_putDirectory (hl : d.lookup .follow p = .ok (s, none)) :
    (d.putDirectory s).lookup .follow p = .ok (s, some (.directory true)) := by
  obtain ⟨hfit, hleads⟩ := lookup_follow_eq_ok_iff.1 hl
  have hview := view_putDirectory (d := d) hleads.takes
  have hthere : (d.putDirectory s).view s = some (.directory true) := by rw [hview, Function.update_self]
  have hput := hleads.update hview nofun (.inl hleads.view_eq)
  rw [show (d.putDirectory s).root.view s = some (.directory true) from hthere] at hput
  exact lookup_follow_eq_ok_iff.2 ⟨hfit, hput⟩

theorem Linkless.made_ensureDirectory (h : d.Linkless) (hok : d.ensureDirectory p = .ok d') :
    Made (· = p.goal d.current) d d' ∧ d'.isDirectory p = .ok true := by
  rcases h.ensureDirectory_cases hok with ⟨s, readable, hl, rfl⟩ | ⟨hl, rfl⟩
  · exact ⟨.refl _ _, isDirectory_iff.2 ⟨s, readable, hl⟩⟩
  · exact ⟨made_putDirectory hl, isDirectory_iff.2 ⟨_, true, lookup_putDirectory hl⟩⟩

end Disk

-- ---------------------------------------------------------------------------
-- The directory above
-- ---------------------------------------------------------------------------

namespace Path

/-- Whether a name leads nowhere. -/
def Stays (name : Text) : Prop := name = [] ∨ name = ['.']

/-- The text of a path, as far as it is not empty. -/
theorem toText_of_ne_nil {p : Path} (h : p.anchor.toText ++ Text.join ['/'] p.parts ≠ []) :
    p.toText = p.anchor.toText ++ Text.join ['/'] p.parts := by
  unfold toText
  split
  · next hnil => exact absurd hnil h
  · rfl

theorem toText_of_eq_nil {p : Path} (h : p.anchor.toText ++ Text.join ['/'] p.parts = []) : p.toText = ['.'] := by
  unfold toText
  rw [h]

/-- The names of a path go on where those of the directory above it end, up to names that lead nowhere. -/
theorem exists_names_parent {p : Path} (h : p.parts ≠ []) :
    ∃ lead tail, p.names = lead ++ tail ∧ tail ≠ [] ∧ (p.name ≠ [] → tail = Text.splitOn '/' p.name)
      ∧ (p.parent.names = lead ∨ (∀ name ∈ lead, Stays name) ∧ ∀ name ∈ p.parent.names, Stays name) := by
  obtain ⟨anchor, parts⟩ := p
  obtain ⟨dir, name, rfl⟩ : ∃ dir name, parts = dir ++ [name] :=
    ⟨parts.dropLast, parts.getLast h, (List.dropLast_concat_getLast h).symm⟩
  have hparent : parent ⟨anchor, dir ++ [name]⟩ = ⟨anchor, dir⟩ := by simp [parent]
  have hname : Path.name ⟨anchor, dir ++ [name]⟩ = name := by simp [Path.name]
  rw [hparent, hname]
  cases dir with
  | nil =>
    have hanchor : (∀ n ∈ anchor.names, Stays n) ∧ ∀ n ∈ names ⟨anchor, []⟩, Stays n := by
      cases anchor <;> simp [Anchor.names, names, toText, Anchor.toText, Text.splitOn, Stays]
    by_cases hfull : anchor.toText ++ name = []
    · refine ⟨[], [['.']], ?_, List.cons_ne_nil _ _, fun hne => absurd (List.append_eq_nil_iff.1 hfull).2 hne,
        .inr ⟨List.forall_mem_nil _, hanchor.2⟩⟩
      unfold names
      rw [toText_of_eq_nil (by simpa using hfull)]
      rfl
    · refine ⟨anchor.names, Text.splitOn '/' name, ?_, Text.splitOn_ne_nil '/' name, fun _ => rfl, .inr hanchor⟩
      unfold names
      rw [toText_of_ne_nil (by simpa using hfull)]
      simpa using splitOn_anchor_append anchor name
  | cons first dir =>
    have hjoin : anchor.toText ++ Text.join ['/'] (first :: dir ++ [name])
        = anchor.toText ++ Text.join ['/'] (first :: dir) ++ '/' :: name := by
      rw [Text.join_append _ (List.cons_ne_nil _ _) (List.cons_ne_nil _ _)]
      simp
    refine ⟨Text.splitOn '/' (anchor.toText ++ Text.join ['/'] (first :: dir)), Text.splitOn '/' name, ?_,
      Text.splitOn_ne_nil '/' name, fun _ => rfl, ?_⟩
    · have hfull : anchor.toText ++ Text.join ['/'] (first :: dir ++ [name]) ≠ [] := by
        rw [hjoin]
        simp
      unfold names
      rw [toText_of_ne_nil hfull, hjoin, Text.splitOn_append_sep]
    · by_cases hempty : anchor.toText ++ Text.join ['/'] (first :: dir) = []
      · right
        unfold names
        rw [toText_of_eq_nil hempty, hempty]
        simp [Text.splitOn, Stays]
      · left
        unfold names
        rw [toText_of_ne_nil hempty]

/-- The text of the directory above a path is where the text of the path starts, or a period. -/
theorem toText_parent (p : Path) : p.parent.toText = ['.'] ∨ p.parent.toText <+: p.toText := by
  by_cases hempty : p.parent.anchor.toText ++ Text.join ['/'] p.parent.parts = []
  · exact .inl (toText_of_eq_nil hempty)
  · right
    obtain ⟨anchor, parts⟩ := p
    have hprefix : anchor.toText ++ Text.join ['/'] parts.dropLast <+: anchor.toText ++ Text.join ['/'] parts := by
      rw [List.prefix_append_right_inj]
      by_cases hparts : parts.dropLast = []
      · rw [hparts]
        exact List.nil_prefix
      · have hsplit : parts = parts.dropLast ++ [parts.getLast fun hnil => hparts (by rw [hnil]; rfl)] :=
          (List.dropLast_concat_getLast _).symm
        rw [hsplit, List.dropLast_concat, Text.join_append _ hparts (List.cons_ne_nil _ _), List.append_assoc]
        exact List.prefix_append _ _
    have hfull : anchor.toText ++ Text.join ['/'] parts ≠ [] := by
      intro hnil
      rw [hnil] at hprefix
      exact hempty (List.prefix_nil.1 hprefix)
    rw [toText_of_ne_nil hempty, toText_of_ne_nil (p := ⟨anchor, parts⟩) hfull]
    exact hprefix
end Path

namespace Disk

variable {d d' : Disk} {root : Entry} {p : Path} {s spot : Spot} {lead tail names : List Text} {o : Option Occupant}
  {links levels : Nat} {readable : Bool} {anchor : Anchor} {parts : List Text} {e : DiskError}

theorem unfit?_parent (h : unfit? p = none) : unfit? p.parent = none := by
  have hlength : ∀ t u : Text, (Utf8.encode t).length ≤ (Utf8.encode (t ++ u)).length := by
    intro t u
    rw [Utf8.encode, Utf8.encode, List.flatMap_append, List.length_append]
    exact Nat.le_add_right _ _
  unfold unfit? at h ⊢
  by_cases hnull : p.toText.any fun c => c.toNat = 0
  · rw [if_pos hnull] at h
    cases h
  rw [if_neg hnull] at h
  by_cases hlong : maxPathLength < (Utf8.encode p.toText).length
  · rw [if_pos hlong] at h
    cases h
  rcases p.toText_parent with hdot | ⟨rest, hrest⟩
  · rw [hdot]
    rfl
  · rw [← hrest, List.any_append, Bool.or_eq_true, not_or] at hnull
    rw [← hrest] at hlong
    rw [if_neg hnull.1, if_neg fun hlt => hlong (Nat.lt_of_lt_of_le hlt (hlength _ _))]

/-- Names are followed from a directory. -/
theorem Leads.exists_directory (h : Leads root .follow links spot names s o) (hnames : names ≠ []) :
    ∃ readable, root.view spot = some (.directory readable) := by
  cases h with
  | stop _ => exact absurd rfl hnames
  | stay hdir _ _ => exact ⟨_, hdir⟩
  | up hdir _ => exact ⟨_, hdir⟩
  | free hdir _ _ => exact ⟨_, hdir⟩
  | down hdir _ _ _ _ => exact ⟨_, hdir⟩
  | follow hdir _ _ _ => exact ⟨_, hdir⟩

/-- On the way to anything are directories. -/
theorem Leads.exists_split (hlinkless : ∀ s target, root.view s ≠ some (.link target)) (htail : tail ≠ [])
    (h : Leads root .follow links spot (lead ++ tail) s o) :
    ∃ mid readable, Leads root .follow links spot lead mid (some (.directory readable))
      ∧ Leads root .follow links mid tail s o := by
  induction lead generalizing spot with
  | nil =>
    rw [List.nil_append] at h
    obtain ⟨readable, hdir⟩ := h.exists_directory htail
    exact ⟨spot, readable, .stop hdir, h⟩
  | cons name lead ih =>
    rw [List.cons_append] at h
    generalize hnames : lead ++ tail = names at h
    cases h with
    | stay hdir hname h =>
      subst hnames
      obtain ⟨mid, readable, hlead, htail⟩ := ih h
      exact ⟨mid, readable, .stay hdir hname hlead, htail⟩
    | up hdir h =>
      subst hnames
      obtain ⟨mid, readable, hlead, htail⟩ := ih h
      exact ⟨mid, readable, .up hdir hlead, htail⟩
    | free _ _ _ => exact absurd (List.append_eq_nil_iff.1 hnames).2 htail
    | down hdir hstep hview hx h =>
      subst hnames
      obtain ⟨mid, readable, hlead, htail⟩ := ih h
      exact ⟨mid, readable, .down hdir ⟨hstep.not_stay, hstep.not_up, nofun, hstep.short⟩ hview hx hlead, htail⟩
    | follow _ _ hview _ => exact absurd hview (hlinkless _ _)

/-- Names that lead nowhere lead to the spot itself, if it is a directory. -/
theorem leads_of_stays (hnames : ∀ name ∈ names, Path.Stays name) (hdir : root.view spot = some (.directory readable)) :
    Leads root .follow links spot names spot (some (.directory readable)) := by
  induction names with
  | nil => exact .stop hdir
  | cons name names ih =>
    obtain ⟨hname, hnames⟩ := List.forall_mem_cons.1 hnames
    exact .stay hdir hname (ih hnames)

/-- What a path leads to is in a directory, or could be put there. -/
theorem Linkless.isDirectory_parent (h : d.Linkless) (hparts : p.parts ≠ []) (hl : d.lookup .follow p = .ok (s, o)) :
    d.isDirectory p.parent = .ok true := by
  rw [isDirectory_iff]
  obtain ⟨hfit, hleads⟩ := lookup_follow_eq_ok_iff.1 hl
  obtain ⟨lead, tail, hnames, htail, -, hlead⟩ := Path.exists_names_parent hparts
  rw [hnames] at hleads
  rcases hlead with rfl | ⟨-, hstay⟩
  · obtain ⟨mid, readable, hmid, -⟩ := hleads.exists_split h htail
    exact ⟨mid, readable, lookup_follow_eq_ok_iff.2 ⟨unfit?_parent hfit, hmid⟩⟩
  · obtain ⟨readable, hdir⟩ := hleads.exists_directory (by simp [htail])
    exact ⟨_, readable, lookup_follow_eq_ok_iff.2 ⟨unfit?_parent hfit, leads_of_stays hstay hdir⟩⟩

-- ---------------------------------------------------------------------------
-- Refusals
-- ---------------------------------------------------------------------------

theorem isRefusal_iff : e.isRefusal = true ↔ e.cause ≠ .nullCharacter := by
  unfold DiskError.isRefusal
  cases e.cause <;> simp [DiskFault.isRefusal, DiskFault.number?]

theorem hasNull_parent (h : p.hasNull = false) : p.parent.hasNull = false := by
  unfold Path.hasNull at h ⊢
  rcases p.toText_parent with hdot | ⟨rest, hrest⟩
  · rw [hdot]
    rfl
  · rw [← hrest, List.any_append, Bool.or_eq_false_iff] at h
    exact h.1

theorem standing_eq_error_iff {cause : DiskFault} : d.standing p = .error cause ↔ d.lookup .follow p = .error cause := by
  unfold standing
  cases d.lookup .follow p with
  | error c => exact Iff.rfl
  | ok found => exact iff_of_false nofun nofun

/-- Whether a path leads to a directory is asked in vain only if the disk refuses to be asked. -/
theorem isRefusal_of_isDirectory (h : d.isDirectory p = .error e) : e.isRefusal = true := by
  rw [isDirectory_eq] at h
  split at h
  · cases h
  · cases h
  · cases h
  · cases h
  · cases h
  · cases h
  · next cause _ _ _ hnull _ =>
    cases h
    exact isRefusal_iff.2 fun heq => hnull heq

theorem Linkless.isRefusal_of_ensureDirectory (h : d.Linkless) (he : d.ensureDirectory p = .error e) :
    e.isRefusal = !p.hasNull := by
  rw [h.ensureDirectory_eq] at he
  cases hnull : p.hasNull with
  | true =>
    rw [standing_eq_error_iff.2 (lookup_eq_nullCharacter_iff.2 hnull)] at he
    cases he
    rfl
  | false =>
    refine isRefusal_iff.2 fun hcause => ?_
    split at he
    · cases he
    · cases he
    · cases he
      cases hcause
    · next cause hstanding =>
      cases he
      obtain rfl : cause = .nullCharacter := hcause
      rw [lookup_eq_nullCharacter_iff.1 (standing_eq_error_iff.1 hstanding)] at hnull
      cases hnull

-- ---------------------------------------------------------------------------
-- A directory and what is missing above it
-- ---------------------------------------------------------------------------


/-- The way to the directory above a path is part of the way to the path. -/
theorem route_parent (p : Path) (here : Spot) (ht : t ∈ p.parent.route here) : t ∈ p.route here := by
  by_cases hparts : p.parts = []
  · have hparent : p.parent = p := by
      obtain ⟨anchor, parts⟩ := p
      cases hparts
      rfl
    rwa [hparent] at ht
  obtain ⟨lead, tail, hnames, -, -, rfl | ⟨-, hstay⟩⟩ := Path.exists_names_parent hparts
  · unfold Path.route
    rw [hnames, List.scanl_append]
    exact List.mem_append_left _ ht
  · obtain rfl := (Path.follow_stays hstay (p.origin here)).2 t ht
    exact List.mem_of_getElem? List.getElem?_scanl_zero

/-- The disk is stuck below an anchor: the directory cannot be made, and neither can be what is missing above it. -/
inductive Stuck (d : Disk) (anchor : Anchor) : List Text → Prop where
  | refused {parts : List Text} {e : DiskError} (h : d.ensureDirectory ⟨anchor, parts⟩ = .error e)
      (he : ¬ (e.cause = .missing ∧ parts ≠ [])) : Stuck d anchor parts
  | under {parts : List Text} {e : DiskError} (h : d.ensureDirectory ⟨anchor, parts⟩ = .error e)
      (habove : Stuck d anchor parts.dropLast) : Stuck d anchor parts
  | inside {parts : List Text} {e : DiskError} (h : d.ensureDirectory ⟨anchor, parts⟩ = .error e)
      (habove : d.isDirectory ⟨anchor, parts.dropLast⟩ = .ok true) : Stuck d anchor parts

theorem Stuck.exists_error (h : Stuck d anchor parts) : ∃ e, d.ensureDirectory ⟨anchor, parts⟩ = .error e := by
  cases h with
  | refused h _ => exact ⟨_, h⟩
  | under h _ => exact ⟨_, h⟩
  | inside h _ => exact ⟨_, h⟩

/-- An attempt on a stuck disk makes nothing and fails. -/
theorem Stuck.ensureDirectoriesUpTo_eq (h : Stuck d anchor parts) (hlinkless : d.Linkless) (levels : Nat) :
    ∃ e, d.ensureDirectoriesUpTo anchor levels parts = (d, some e) := by
  induction levels generalizing parts with
  | zero =>
    obtain ⟨e, he⟩ := h.exists_error
    exact ⟨e, by rw [ensureDirectoriesUpTo, he]; rfl⟩
  | succ levels ih =>
    cases h with
    | @refused _ e h he =>
      refine ⟨e, ?_⟩
      rw [ensureDirectoriesUpTo, h]
      exact if_neg he
    | @under _ e h habove =>
      obtain ⟨e', he'⟩ := ih habove
      rw [ensureDirectoriesUpTo, h]
      dsimp only
      split
      · exact ⟨e', by rw [he']⟩
      · exact ⟨e, rfl⟩
    | @inside _ e h habove =>
      have hdir := hlinkless.ensureDirectory_of_isDirectory habove
      have hnone : d.ensureDirectoriesUpTo anchor levels parts.dropLast = (d, none) := by
        cases levels with
        | zero =>
          rw [ensureDirectoriesUpTo, hdir]
          rfl
        | succ levels => rw [ensureDirectoriesUpTo, hdir]
      refine ⟨e, ?_⟩
      rw [ensureDirectoriesUpTo, h]
      dsimp only
      split
      · rw [hnone]
        dsimp only
        rw [h]
        rfl
      · rfl

/-- Whether a disk is stuck is decided by its shape. -/
theorem Stuck.congr (h : Stuck d anchor parts) (hlinkless : d.Linkless) (hlinkless' : d'.Linkless)
    (hcurrent : d'.current = d.current) (hshape : d'.shape = d.shape) : Stuck d' anchor parts := by
  have herror : ∀ {p : Path} {e}, d.ensureDirectory p = .error e → d'.ensureDirectory p = .error e := by
    intro p e he
    rw [hlinkless.ensureDirectory_eq] at he
    rw [hlinkless'.ensureDirectory_eq, standing_congr hlinkless hcurrent hshape]
    split at he
    · cases he
    · cases he
    · exact he
    · exact he
  induction h with
  | refused h he => exact .refused (herror h) he
  | under h _ ih => exact .under (herror h) ih
  | inside h habove => exact .inside (herror h) ((isDirectory_congr hlinkless hcurrent hshape _).trans habove)

/-- What is left by an attempt to make a directory and what is missing above it. -/
structure Attempted (d : Disk) (anchor : Anchor) (parts : List Text) (left : Disk × Option DiskError) : Prop where
  made : Made (· ∈ Path.route d.current ⟨anchor, parts⟩) d left.1
  done : left.2 = none → left.1.isDirectory ⟨anchor, parts⟩ = .ok true
  failed : ∀ e, left.2 = some e → Stuck left.1 anchor parts ∧ e.isRefusal = !Path.hasNull ⟨anchor, parts⟩

/-- A last attempt at the directory itself, with the directories above it made. -/
theorem attempted_orElse (hmade : Made (· ∈ Path.route d.current ⟨anchor, parts⟩) d d') (hlinkless : d'.Linkless)
    (hstuck : ∀ e, d'.ensureDirectory ⟨anchor, parts⟩ = .error e → Stuck d' anchor parts) :
    Attempted d anchor parts (d'.orElse (d'.ensureDirectory ⟨anchor, parts⟩)) := by
  cases hown : d'.ensureDirectory ⟨anchor, parts⟩ with
  | error e =>
    refine ⟨hmade, nofun, ?_⟩
    rintro _ ⟨⟩
    exact ⟨hstuck e hown, hlinkless.isRefusal_of_ensureDirectory hown⟩
  | ok d'' =>
    obtain ⟨hput, hdir⟩ := hlinkless.made_ensureDirectory hown
    refine ⟨hmade.trans (hput.mono ?_), fun _ => hdir, nofun⟩
    rintro t rfl
    rw [hmade.current]
    exact List.mem_of_getLast? List.getLast?_scanl

/-- Where the directory above cannot be made, neither can the one below, since it could only be made in a directory. -/
theorem Linkless.ensureDirectory_of_stuck (h : d.Linkless) (hne : parts ≠ []) (hstuck : Stuck d anchor parts.dropLast) :
    ∃ e, d.ensureDirectory ⟨anchor, parts⟩ = .error e := by
  cases hown : d.ensureDirectory ⟨anchor, parts⟩ with
  | error e => exact ⟨e, rfl⟩
  | ok d' =>
    obtain ⟨s, o, hl⟩ : ∃ s o, d.lookup .follow ⟨anchor, parts⟩ = .ok (s, o) := by
      rcases h.ensureDirectory_cases hown with ⟨s, _, hl, -⟩ | ⟨hl, -⟩
      · exact ⟨s, _, hl⟩
      · exact ⟨_, _, hl⟩
    obtain ⟨e, he⟩ := hstuck.exists_error
    have hdir := h.isDirectory_parent hne hl
    exact nomatch he.symm.trans (h.ensureDirectory_of_isDirectory hdir)

theorem Linkless.attempted_ensureDirectoriesUpTo (h : d.Linkless) (hlevels : levels = parts.length) :
    Attempted d anchor parts (d.ensureDirectoriesUpTo anchor levels parts) := by
  induction levels generalizing parts with
  | zero =>
    rw [ensureDirectoriesUpTo]
    refine attempted_orElse (.refl _ d) h fun e he => .refused he fun hcause => ?_
    exact hcause.2 (List.length_eq_zero_iff.1 hlevels.symm)
  | succ levels ih =>
    have habove : Attempted d anchor parts.dropLast (d.ensureDirectoriesUpTo anchor levels parts.dropLast) :=
      ih (by rw [List.length_dropLast, ← hlevels, Nat.add_sub_cancel])
    rw [ensureDirectoriesUpTo]
    cases hown : d.ensureDirectory ⟨anchor, parts⟩ with
    | ok d' =>
      have hdone : Attempted d anchor parts (d.orElse (d.ensureDirectory ⟨anchor, parts⟩)) :=
        attempted_orElse (.refl _ d) h fun e he => nomatch hown.symm.trans he
      rwa [hown] at hdone
    | error e =>
      have hrefusal := h.isRefusal_of_ensureDirectory hown
      dsimp only
      split
      · next hcause =>
        have hnull : Path.hasNull ⟨anchor, parts⟩ = false := by
          rw [← Bool.not_eq_true', ← hrefusal]
          exact isRefusal_iff.2 (by rw [hcause.1]; exact nofun)
        have hroute : Made (· ∈ Path.route d.current ⟨anchor, parts⟩) d (d.ensureDirectoriesUpTo anchor levels parts.dropLast).1 :=
          habove.made.mono fun t ht => route_parent ⟨anchor, parts⟩ d.current ht
        generalize d.ensureDirectoriesUpTo anchor levels parts.dropLast = left at habove hroute
        obtain ⟨d', - | e'⟩ := left
        · exact attempted_orElse hroute (hroute.linkless h) fun e he => .inside he (habove.done rfl)
        · obtain ⟨hstuck, hrefusal⟩ := habove.failed e' rfl
          have hparent : Path.hasNull ⟨anchor, parts.dropLast⟩ = false := hasNull_parent (p := ⟨anchor, parts⟩) hnull
          rw [hparent] at hrefusal
          refine ⟨hroute, nofun, ?_⟩
          rintro _ ⟨⟩
          refine ⟨?_, hrefusal.trans (by rw [hnull])⟩
          obtain ⟨e, hagain⟩ := (hroute.linkless h).ensureDirectory_of_stuck hcause.2 hstuck
          exact .under hagain hstuck
      · next hcause =>
        refine ⟨.refl _ d, nofun, ?_⟩
        rintro _ ⟨⟩
        exact ⟨.refused hown hcause, hrefusal⟩

/-- To make a directory and what is missing above it, directories are made on its route. If that fails, the disk is
stuck afterwards, and refused to make it unless its path is none. -/
theorem Linkless.attempted_ensureDirectories (h : d.Linkless) (p : Path) :
    Attempted d p.anchor p.parts (d.ensureDirectories p) :=
  h.attempted_ensureDirectoriesUpTo rfl

end Disk
end MdxSafe
