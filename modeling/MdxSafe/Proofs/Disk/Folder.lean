-- SUMMARY: Folders that are free: they can be made, and stay free when files change or other folders are made beside them.
import MdxSafe.Proofs.Disk.Directory

/-!
# Free folders

A folder is free if nothing stands at the goal of its path and it can be made, with what is missing above it
(`Disk.Vacant`). It is free still on a disk that differs in the bytes of files (`Disk.Vacant.congr`), and when another
folder was made in the same directory (`Disk.Vacant.beside`).
-/

namespace MdxSafe

-- ---------------------------------------------------------------------------
-- Names in a directory
-- ---------------------------------------------------------------------------

namespace Path

variable {p : Path} {name : Text} {here t : Spot}

/-- A text is the name of something in a directory: it holds no slash, and leads neither nowhere nor up. -/
structure IsPlain (name : Text) : Prop where
  not_stay : ¬ (name = [] ∨ name = ['.'])
  not_up : name ≠ ['.', '.']
  noSlash : '/' ∉ name

theorem IsPlain.ofText_eq (h : IsPlain name) : ofText name = ⟨.here, [name]⟩ := by
  have hempty : name ≠ [] := fun hnil => h.not_stay (.inl hnil)
  have hdot : name ≠ ['.'] := fun heq => h.not_stay (.inr heq)
  have hanchor : anchorOf name = .here := by
    obtain ⟨c, name, rfl⟩ := List.exists_cons_of_ne_nil hempty
    have hc : c ≠ '/' := fun heq => h.noSlash (heq ▸ List.mem_cons_self)
    unfold anchorOf
    rw [List.takeWhile_cons_of_neg (by simpa using hc)]
    rfl
  unfold ofText partsOf
  rw [hanchor, Text.splitOn_of_notMem h.noSlash]
  simp [hempty, hdot]

theorem IsPlain.join_eq (h : IsPlain name) (p : Path) : p.join (ofText name) = p.child name := by
  rw [h.ofText_eq]
  rfl

/-- The names of an entry of a directory are those of the directory, up to names that lead nowhere, and its own. -/
theorem exists_names_child (hname : IsPlain name) (p : Path) :
    ∃ lead, (p.child name).names = lead ++ [name]
      ∧ (p.names = lead ∨ (∀ n ∈ lead, Stays n) ∧ ∀ n ∈ p.names, Stays n) := by
  have hparts : (p.child name).parts ≠ [] := by simp [child]
  have hparent : (p.child name).parent = p := by simp [child, parent]
  have hlast : (p.child name).name = name := by simp [child, Path.name]
  obtain ⟨lead, tail, hnames, -, htail, hlead⟩ := exists_names_parent hparts
  rw [hparent] at hlead
  rw [htail (by rw [hlast]; exact fun hnil => hname.not_stay (.inl hnil)), hlast, Text.splitOn_of_notMem hname.noSlash]
    at hnames
  exact ⟨lead, hnames, hlead⟩

theorem origin_child (here : Spot) (p : Path) (name : Text) : (p.child name).origin here = p.origin here := rfl

theorem goal_child (hname : IsPlain name) (here : Spot) (p : Path) :
    (p.child name).goal here = p.goal here ++ [name] := by
  obtain ⟨lead, hnames, rfl | ⟨hlead, hstay⟩⟩ := exists_names_child hname p
  · unfold goal
    rw [hnames, List.foldl_append]
    exact Spot.follow_down _ hname.not_stay hname.not_up
  · unfold goal
    rw [hnames, List.foldl_append, (follow_stays hlead _).1, (follow_stays hstay _).1]
    exact Spot.follow_down _ hname.not_stay hname.not_up

/-- An entry of a directory is reached on the route of the directory, and in one step. -/
theorem mem_route_child (hname : IsPlain name) (ht : t ∈ (p.child name).route here) :
    t ∈ p.route here ∨ t = p.goal here ++ [name] := by
  obtain ⟨lead, hnames, rfl | ⟨hlead, hstay⟩⟩ := exists_names_child hname p
  · unfold route at ht
    rw [hnames, List.scanl_append, origin_child] at ht
    refine (List.mem_append.1 ht).imp_right fun hlast => ?_
    have hgoal : p.names.foldl Spot.follow (p.origin here) = p.goal here := rfl
    rw [hgoal] at hlast
    rw [← Spot.follow_down (p.goal here) hname.not_stay hname.not_up]
    simpa using hlast
  · unfold route at ht
    rw [hnames, List.scanl_append, List.mem_append, origin_child] at ht
    rcases ht with ht | ht
    · obtain rfl := (follow_stays hlead _).2 t ht
      exact .inl (List.mem_of_getElem? List.getElem?_scanl_zero)
    · right
      have hgoal : p.goal here = p.origin here := (follow_stays hstay _).1
      rw [← Spot.follow_down (p.goal here) hname.not_stay hname.not_up, hgoal]
      rw [(follow_stays hlead _).1] at ht
      simpa using ht

end Path

namespace Disk

variable {d d' : Disk} {root : Entry} {p : Path} {s spot mid : Spot} {lead tail : List Text} {o : Option Occupant}
  {links : Nat} {readable : Bool} {name other : Text}

/-- Names lead on from the directory that others lead to. -/
theorem Leads.append (hlinkless : ∀ s target, root.view s ≠ some (.link target))
    (h : Leads root .follow links spot lead mid (some (.directory readable)))
    (htail : Leads root .follow links mid tail s o) : Leads root .follow links spot (lead ++ tail) s o := by
  generalize ho : some (Occupant.directory readable) = x at h
  induction h with
  | stop _ => exact htail
  | stay hdir hname _ ih => exact .stay hdir hname (ih htail ho)
  | up hdir _ ih => exact .up hdir (ih htail ho)
  | free _ _ _ => cases ho
  | down hdir hstep hview hx _ ih =>
    exact .down hdir ⟨hstep.not_stay, hstep.not_up, fun h => (nomatch h.1), hstep.short⟩ hview hx (ih htail ho)
  | follow _ _ hview _ => exact absurd hview (hlinkless _ _)

/-- Whether the name of an entry of a directory can be looked up there: name and path are not too long. -/
def IsFit (p : Path) (name : Text) : Prop :=
  unfit? (p.child name) = none ∧ ¬ maxNameLength < (Utf8.encode name).length

theorem Linkless.isFit_of_lookup (h : d.Linkless) (hname : Path.IsPlain name)
    (hl : d.lookup .follow (p.child name) = .ok (s, o)) : IsFit p name := by
  obtain ⟨hfit, hleads⟩ := lookup_follow_eq_ok_iff.1 hl
  refine ⟨hfit, ?_⟩
  obtain ⟨lead, hnames, -⟩ := Path.exists_names_child hname p
  rw [hnames] at hleads
  obtain ⟨mid, readable, -, hlast⟩ := hleads.exists_split h (List.cons_ne_nil _ _)
  cases hlast with
  | stay _ hstay _ => exact absurd hstay hname.not_stay
  | up _ _ => exact absurd rfl hname.not_up
  | free _ hstep _ => exact hstep.short
  | down _ hstep _ _ _ => exact hstep.short
  | follow _ hstep _ _ => exact hstep.short

/-- A name that is free in a directory is found to be free. -/
theorem Linkless.lookup_child (h : d.Linkless) (hdir : d.isDirectory p = .ok true) (hname : Path.IsPlain name)
    (hfit : IsFit p name) (habsent : d.view ((p.child name).goal d.current) = none) :
    d.lookup .follow (p.child name) = .ok ((p.child name).goal d.current, none) := by
  obtain ⟨spot, readable, hl⟩ := isDirectory_iff.1 hdir
  obtain ⟨-, hleads⟩ := lookup_follow_eq_ok_iff.1 hl
  obtain rfl : spot = p.goal d.current := hleads.eq_foldl h
  have hfree : Leads d.root .follow maxLinks (p.goal d.current) [name] (p.goal d.current ++ [name]) none := by
    rw [Path.goal_child hname] at habsent
    exact .free hleads.view_eq ⟨hname.not_stay, hname.not_up, fun h => (nomatch h.1), hfit.2⟩ habsent
  refine lookup_follow_eq_ok_iff.2 ⟨hfit.1, ?_⟩
  obtain ⟨lead, hnames, hlead⟩ := Path.exists_names_child hname p
  rw [hnames, Path.origin_child, Path.goal_child hname]
  rcases hlead with rfl | ⟨hlead, hstay⟩
  · exact hleads.append h hfree
  · have hgoal : p.goal d.current = p.origin d.current := (Path.follow_stays hstay _).1
    rw [← hgoal]
    exact (leads_of_stays hlead hleads.view_eq).append h hfree

-- ---------------------------------------------------------------------------
-- Disks that differ in the bytes of files
-- ---------------------------------------------------------------------------

/-- Disks without links that differ in the bytes of files only. -/
structure Alike (d d' : Disk) : Prop where
  linkless : d.Linkless
  linkless' : d'.Linkless
  current : d'.current = d.current
  shape : d'.shape = d.shape

theorem Linkless.alike_refl (h : d.Linkless) : Alike d d := ⟨h, h, rfl, rfl⟩

theorem lookup_of_standing_eq_none (h : d.standing p = .ok (s, none)) : d.lookup .follow p = .ok (s, none) := by
  obtain ⟨o, hl, ho⟩ := standing_eq_ok_iff.1 h
  rwa [Option.map_eq_none_iff.1 ho] at hl

namespace Alike

theorem putDirectory (h : Alike d d') (hstanding : d.standing p = .ok (s, none)) :
    Alike (d.putDirectory s) (d'.putDirectory s) := by
  have hl := lookup_of_standing_eq_none hstanding
  have hl' := lookup_of_standing_eq_none ((standing_congr h.linkless h.current h.shape p).trans hstanding)
  have hput := made_putDirectory hl
  have hput' := made_putDirectory hl'
  refine ⟨hput.linkless h.linkless, hput'.linkless h.linkless', h.current, ?_⟩
  funext t
  have hview := view_putDirectory (lookup_follow_eq_ok_iff.1 hl).2.takes
  have hview' := view_putDirectory (lookup_follow_eq_ok_iff.1 hl').2.takes
  show ((d'.putDirectory s).view t).map Occupant.blank = ((d.putDirectory s).view t).map Occupant.blank
  rw [hview, hview']
  by_cases hts : t = s
  · subst hts
    rw [Function.update_self, Function.update_self]
  · rw [Function.update_of_ne hts, Function.update_of_ne hts]
    exact congrFun h.shape t

/-- A directory is made on both disks, or on neither. -/
theorem ensureDirectory (h : Alike d d') (p : Path) :
    (∃ e, d.ensureDirectory p = .error e ∧ d'.ensureDirectory p = .error e)
      ∨ ∃ x x', d.ensureDirectory p = .ok x ∧ d'.ensureDirectory p = .ok x' ∧ Alike x x' := by
  rw [h.linkless.ensureDirectory_eq, h.linkless'.ensureDirectory_eq, standing_congr h.linkless h.current h.shape]
  split
  · next hstanding => exact .inr ⟨_, _, rfl, rfl, h.putDirectory hstanding⟩
  · exact .inr ⟨_, _, rfl, rfl, h⟩
  · exact .inl ⟨_, rfl, rfl⟩
  · exact .inl ⟨_, rfl, rfl⟩

theorem orElse (h : Alike d d') (p : Path) :
    Alike (d.orElse (d.ensureDirectory p)).1 (d'.orElse (d'.ensureDirectory p)).1
      ∧ (d'.orElse (d'.ensureDirectory p)).2 = (d.orElse (d.ensureDirectory p)).2 := by
  rcases h.ensureDirectory p with ⟨e, he, he'⟩ | ⟨x, x', hx, hx', halike⟩
  · rw [he, he']
    exact ⟨h, rfl⟩
  · rw [hx, hx']
    exact ⟨halike, rfl⟩

theorem ensureDirectoriesUpTo (h : Alike d d') (anchor : Anchor) (levels : Nat) (parts : List Text) :
    Alike (d.ensureDirectoriesUpTo anchor levels parts).1 (d'.ensureDirectoriesUpTo anchor levels parts).1
      ∧ (d'.ensureDirectoriesUpTo anchor levels parts).2 = (d.ensureDirectoriesUpTo anchor levels parts).2 := by
  induction levels generalizing parts with
  | zero => exact h.orElse ⟨anchor, parts⟩
  | succ levels ih =>
    unfold Disk.ensureDirectoriesUpTo
    rcases h.ensureDirectory ⟨anchor, parts⟩ with ⟨e, he, he'⟩ | ⟨x, x', hx, hx', halike⟩
    · rw [he, he']
      dsimp only
      split
      · have habove := ih parts.dropLast
        generalize d.ensureDirectoriesUpTo anchor levels parts.dropLast = left at habove ⊢
        generalize d'.ensureDirectoriesUpTo anchor levels parts.dropLast = left' at habove ⊢
        obtain ⟨x, failed⟩ := left
        obtain ⟨x', failed'⟩ := left'
        obtain ⟨halike, hfailed⟩ := habove
        cases hfailed
        cases failed with
        | none => exact halike.orElse ⟨anchor, parts⟩
        | some e => exact ⟨halike, rfl⟩
      · exact ⟨h, rfl⟩
    · rw [hx, hx']
      exact ⟨halike, rfl⟩

end Alike

-- ---------------------------------------------------------------------------
-- Free folders
-- ---------------------------------------------------------------------------

/-- A folder is free: nothing stands at the goal of its path, and it can be made. -/
structure Vacant (d : Disk) (p : Path) : Prop where
  absent : d.view (p.goal d.current) = none
  possible : (d.ensureDirectories p).2 = none

theorem ensureDirectories_of_ok (h : d.ensureDirectory p = .ok d') : d.ensureDirectories p = (d', none) := by
  unfold ensureDirectories
  cases p.parts.length with
  | zero =>
    unfold ensureDirectoriesUpTo
    rw [h]
    rfl
  | succ levels =>
    unfold ensureDirectoriesUpTo
    rw [h]

theorem ensureDirectories_of_error {e : DiskError} (h : d.ensureDirectory p = .error e) (he : e.cause ≠ .missing) :
    d.ensureDirectories p = (d, some e) := by
  unfold ensureDirectories
  cases p.parts.length with
  | zero =>
    unfold ensureDirectoriesUpTo
    rw [h]
    rfl
  | succ levels =>
    unfold ensureDirectoriesUpTo
    rw [h]
    exact if_neg fun hcause => he hcause.1

namespace Vacant

/-- A folder that is free is found not to be there. -/
theorem isDirectory (h : Vacant d p) (hlinkless : d.Linkless) : d.isDirectory p = .ok false := by
  have hrefused : ∀ cause, d.lookup .follow p = .error cause → cause = .missing := by
    intro cause hl
    by_contra hne
    have he : d.ensureDirectory p = .error ⟨cause, p⟩ := by
      rw [hlinkless.ensureDirectory_eq, standing_eq_error_iff.2 hl]
    exact nomatch (congrArg Prod.snd (ensureDirectories_of_error he hne)).symm.trans h.possible
  cases hl : d.lookup .follow p with
  | error cause =>
    obtain rfl := hrefused cause hl
    rw [isDirectory_eq, standing_eq_error_iff.2 hl]
  | ok found =>
    obtain ⟨spot, o⟩ := found
    have hleads := (lookup_follow_eq_ok_iff.1 hl).2
    obtain rfl : spot = p.goal d.current := hleads.eq_foldl hlinkless
    obtain rfl : none = o := h.absent.symm.trans hleads.view_eq
    rw [isDirectory_eq, standing_eq_ok_iff.2 ⟨_, hl, rfl⟩]
    rfl

/-- Whether a folder is free is decided by the shape of the disk. -/
theorem congr (h : Vacant d p) (halike : Alike d d') : Vacant d' p where
  absent := by
    have hshape : (d'.view (p.goal d.current)).map Occupant.blank = (d.view (p.goal d.current)).map Occupant.blank :=
      congrFun halike.shape _
    rw [h.absent] at hshape
    rw [halike.current]
    exact Option.map_eq_none_iff.1 hshape
  possible := (halike.ensureDirectoriesUpTo p.anchor p.parts.length p.parts).2.trans h.possible

/-- A folder is free still when another one was made in the same directory, unless it is on the way there. -/
theorem beside (h : Vacant d (p.child name)) (hlinkless : d.Linkless) (hname : Path.IsPlain name)
    (hother : Path.IsPlain other) (hne : name ≠ other) (hapart : (p.child name).goal d.current ∉ p.route d.current)
    (hmade : d.ensureDirectories (p.child other) = (d', none)) : Vacant d' (p.child name) := by
  have hattempt := hlinkless.attempted_ensureDirectories (p.child name)
  have hattempt' := hlinkless.attempted_ensureDirectories (p.child other)
  rw [hmade] at hattempt'
  have hlinkless' : d'.Linkless := hattempt'.made.linkless hlinkless
  have hcurrent : d'.current = d.current := hattempt'.made.current
  have hfit : IsFit p name := by
    obtain ⟨s, readable, hl⟩ := isDirectory_iff.1 (hattempt.done h.possible)
    exact (hattempt.made.linkless hlinkless).isFit_of_lookup hname hl
  have hdir : d'.isDirectory p = .ok true := by
    obtain ⟨s, readable, hl⟩ := isDirectory_iff.1 (hattempt'.done rfl)
    have hparent : (p.child other).parent = p := by simp [Path.child, Path.parent]
    have hparts : (p.child other).parts ≠ [] := by simp [Path.child]
    have := hlinkless'.isDirectory_parent hparts hl
    rwa [hparent] at this
  have habsent : d'.view ((p.child name).goal d'.current) = none := by
    rw [hcurrent]
    rcases hattempt'.made.view ((p.child name).goal d.current) with hsame | ⟨hon, -, -⟩
    · rw [hsame]
      exact h.absent
    · rcases Path.mem_route_child (p := p) hother hon with hroute | hgoal
      · exact absurd hroute hapart
      · rw [Path.goal_child hname] at hgoal
        exact absurd (List.cons.inj (List.append_cancel_left hgoal)).1 hne
  have hl := hlinkless'.lookup_child hdir hname hfit habsent
  have hok : d'.ensureDirectory (p.child name) = .ok (d'.putDirectory ((p.child name).goal d'.current)) := by
    rw [hlinkless'.ensureDirectory_eq, standing_eq_ok_iff.2 ⟨_, hl, rfl⟩]
    rfl
  exact ⟨habsent, congrArg Prod.snd (ensureDirectories_of_ok hok)⟩

end Vacant
end Disk
end MdxSafe
