-- SUMMARY: Where a path leads, in terms of the view of a disk, and that it leads there still when a file is put.
import MdxSafe.Disk.Basic
import MdxSafe.Proofs.Disk.View

/-!
# Where a path leads

Where a path leads depends on the view of the disk alone (`Disk.lookup`). `Leads` says how names lead to a spot, over
at most some number of links; it holds just if following the names succeeds (`shown_walk_eq_ok_iff`). Names that
lead to a spot lead there still when a file is put anywhere (`Leads.put`).
-/

namespace MdxSafe.Disk

/-- A spot that a path leads to, and what stands there, if anything does. -/
def Target.shown : Target → Spot × Option Occupant
  | found spot e => (spot, some e.occupant)
  | free spot name => (spot ++ [name], none)

/-- Where a path leads, as far as the view shows it. -/
def lookup (d : Disk) (last : LastName) (p : Path) : Except DiskFault (Spot × Option Occupant) :=
  (d.resolve last p).map Target.shown

variable {root root' : Entry} {last : LastName} {expand : Spot → List Text → Except DiskFault Target} {spot s t : Spot}
  {name target : Text} {names rest : List Text} {o : Option Occupant} {x : Occupant} {bytes : Bytes} {readable : Bool}
  {links : Nat}

-- ---------------------------------------------------------------------------
-- Following names
-- ---------------------------------------------------------------------------

theorem shown_walkFrom_nil (root : Entry) (last : LastName) (expand : Spot → List Text → Except DiskFault Target)
    (spot : Spot) :
    (walkFrom root last expand spot []).map Target.shown =
      match root.view spot with
      | some o => .ok (spot, some o)
      | none => .error .missing := by
  unfold walkFrom Entry.view
  cases root.at? spot <;> rfl

/-- How a name is followed depends on what stands at the spot and under the name. -/
theorem shown_walkFrom_cons (root : Entry) (last : LastName) (expand : Spot → List Text → Except DiskFault Target)
    (spot : Spot) (name : Text) (rest : List Text) :
    (walkFrom root last expand spot (name :: rest)).map Target.shown =
      match root.view spot with
      | some (.directory _) =>
        if name = [] ∨ name = ['.'] then (walkFrom root last expand spot rest).map Target.shown
        else if name = ['.', '.'] then (walkFrom root last expand spot.dropLast rest).map Target.shown
        else if last = .create ∧ rest ≠ [] ∧ rest.all (· = []) then .error .isDirectory
        else if maxNameLength < (Utf8.encode name).length then .error .nameTooLong
        else
          match root.view (spot ++ [name]) with
          | none => if rest = [] then .ok (spot ++ [name], none) else .error .missing
          | some (.link target) =>
            if rest = [] ∧ last = .keep then .ok (spot ++ [name], some (.link target))
            else
              (expand (if target.head? = some '/' then [] else spot) (Text.splitOn '/' target ++ rest)).map
                Target.shown
          | some _ => (walkFrom root last expand (spot ++ [name]) rest).map Target.shown
      | some _ => .error .notDirectory
      | none => .error .missing := by
  rw [walkFrom]
  cases hat : root.at? spot with
  | none => simp [Entry.view, hat, Except.map]
  | some e =>
    cases e with
    | directory readable es =>
      have hview : root.view spot = some (.directory readable) := by
        rw [Entry.view, hat]
        rfl
      rw [hview, Entry.view_child hat]
      dsimp only
      cases Entry.find? es name with
      | none => simp only [apply_ite (Except.map Target.shown)]; rfl
      | some x => cases x <;> simp only [apply_ite (Except.map Target.shown)] <;> rfl
    | file bytes => simp [Entry.view, hat, Except.map, Entry.occupant]
    | link target => simp [Entry.view, hat, Except.map, Entry.occupant]
    | special => simp [Entry.view, hat, Except.map, Entry.occupant]

/-- A name that is looked up in a directory: it leads neither nowhere nor up, is not too long, and no slash after it
forbids to make a file. -/
structure IsStep (last : LastName) (name : Text) (rest : List Text) : Prop where
  not_stay : ¬ (name = [] ∨ name = ['.'])
  not_up : name ≠ ['.', '.']
  not_slashed : ¬ (last = .create ∧ rest ≠ [] ∧ rest.all (· = []))
  short : ¬ maxNameLength < (Utf8.encode name).length

theorem shown_walkFrom_stay (hdir : root.view spot = some (.directory readable)) (hname : name = [] ∨ name = ['.']) :
    (walkFrom root last expand spot (name :: rest)).map Target.shown
      = (walkFrom root last expand spot rest).map Target.shown := by
  rw [shown_walkFrom_cons, hdir]
  exact if_pos hname

theorem shown_walkFrom_up (hdir : root.view spot = some (.directory readable)) :
    (walkFrom root last expand spot (['.', '.'] :: rest)).map Target.shown
      = (walkFrom root last expand spot.dropLast rest).map Target.shown := by
  rw [shown_walkFrom_cons, hdir]
  rfl

theorem shown_walkFrom_step (hdir : root.view spot = some (.directory readable)) (hstep : IsStep last name rest)
    (hlast : last ≠ .keep) :
    (walkFrom root last expand spot (name :: rest)).map Target.shown =
      match root.view (spot ++ [name]) with
      | none => if rest = [] then .ok (spot ++ [name], none) else .error .missing
      | some (.link target) =>
        (expand (if target.head? = some '/' then [] else spot) (Text.splitOn '/' target ++ rest)).map Target.shown
      | some _ => (walkFrom root last expand (spot ++ [name]) rest).map Target.shown := by
  rw [shown_walkFrom_cons, hdir]
  dsimp only
  rw [if_neg hstep.not_stay, if_neg hstep.not_up, if_neg hstep.not_slashed, if_neg hstep.short]
  simp [hlast]

/-- A name that is followed with success stays, leads up, or is looked up in a directory. -/
theorem step_of_shown_walkFrom
    (h : (walkFrom root last expand spot (name :: rest)).map Target.shown = .ok (s, o)) :
    ∃ readable, root.view spot = some (.directory readable)
      ∧ ((name = [] ∨ name = ['.']) ∨ name = ['.', '.'] ∨ IsStep last name rest) := by
  rw [shown_walkFrom_cons] at h
  split at h
  · next readable hdir =>
    refine ⟨readable, hdir, ?_⟩
    by_cases hstay : name = [] ∨ name = ['.']
    · exact .inl hstay
    rw [if_neg hstay] at h
    by_cases hup : name = ['.', '.']
    · exact .inr (.inl hup)
    rw [if_neg hup] at h
    by_cases hslash : last = .create ∧ rest ≠ [] ∧ rest.all (· = [])
    · rw [if_pos hslash] at h
      cases h
    rw [if_neg hslash] at h
    by_cases hlong : maxNameLength < (Utf8.encode name).length
    · rw [if_pos hlong] at h
      cases h
    exact .inr (.inr ⟨hstay, hup, hslash, hlong⟩)
  · cases h
  · cases h

-- ---------------------------------------------------------------------------
-- Where names lead
-- ---------------------------------------------------------------------------

/-- How names lead from a spot to a spot and what stands there, over at most a number of links. -/
inductive Leads (root : Entry) (last : LastName) : Nat → Spot → List Text → Spot → Option Occupant → Prop where
  | stop {links : Nat} {spot : Spot} {x : Occupant} (hview : root.view spot = some x) :
      Leads root last links spot [] spot (some x)
  | stay {links : Nat} {spot s : Spot} {name : Text} {rest : List Text} {o : Option Occupant} {readable : Bool}
      (hdir : root.view spot = some (.directory readable)) (hname : name = [] ∨ name = ['.'])
      (h : Leads root last links spot rest s o) : Leads root last links spot (name :: rest) s o
  | up {links : Nat} {spot s : Spot} {rest : List Text} {o : Option Occupant} {readable : Bool}
      (hdir : root.view spot = some (.directory readable)) (h : Leads root last links spot.dropLast rest s o) :
      Leads root last links spot (['.', '.'] :: rest) s o
  | free {links : Nat} {spot : Spot} {name : Text} {readable : Bool}
      (hdir : root.view spot = some (.directory readable)) (hstep : IsStep last name [])
      (hview : root.view (spot ++ [name]) = none) : Leads root last links spot [name] (spot ++ [name]) none
  | down {links : Nat} {spot s : Spot} {name : Text} {rest : List Text} {o : Option Occupant} {x : Occupant}
      {readable : Bool} (hdir : root.view spot = some (.directory readable)) (hstep : IsStep last name rest)
      (hview : root.view (spot ++ [name]) = some x) (hx : ∀ target, x ≠ .link target)
      (h : Leads root last links (spot ++ [name]) rest s o) : Leads root last links spot (name :: rest) s o
  | follow {links : Nat} {spot s : Spot} {name target : Text} {rest : List Text} {o : Option Occupant}
      {readable : Bool} (hdir : root.view spot = some (.directory readable)) (hstep : IsStep last name rest)
      (hview : root.view (spot ++ [name]) = some (.link target))
      (h : Leads root last links (if target.head? = some '/' then [] else spot) (Text.splitOn '/' target ++ rest) s o) :
      Leads root last (links + 1) spot (name :: rest) s o

theorem leads_of_shown_walkFrom (hlast : last ≠ .keep)
    (hexpand : ∀ start names s o, (expand start names).map Target.shown = .ok (s, o) →
      ∃ fewer, links = fewer + 1 ∧ Leads root last fewer start names s o)
    (h : (walkFrom root last expand spot names).map Target.shown = .ok (s, o)) :
    Leads root last links spot names s o := by
  induction names generalizing spot with
  | nil =>
    rw [shown_walkFrom_nil] at h
    split at h
    · next x hview =>
      cases h
      exact .stop hview
    · cases h
  | cons name rest ih =>
    obtain ⟨readable, hdir, hstay | rfl | hstep⟩ := step_of_shown_walkFrom h
    · rw [shown_walkFrom_stay hdir hstay] at h
      exact .stay hdir hstay (ih h)
    · rw [shown_walkFrom_up hdir] at h
      exact .up hdir (ih h)
    · rw [shown_walkFrom_step hdir hstep hlast] at h
      split at h
      · next hview =>
        by_cases hrest : rest = []
        · subst hrest
          cases h
          exact .free hdir hstep hview
        · rw [if_neg hrest] at h
          cases h
      · next target hview =>
        obtain ⟨fewer, rfl, hleads⟩ := hexpand _ _ _ _ h
        exact .follow hdir hstep hview hleads
      · next x hx hview => exact .down hdir hstep hview (fun target heq => hx target heq) (ih h)

/-- Names are followed with success just if they lead somewhere. -/
theorem shown_walk_eq_ok_iff (hlast : last ≠ .keep) :
    (walk root last links spot names).map Target.shown = .ok (s, o) ↔ Leads root last links spot names s o := by
  constructor
  · intro h
    induction links generalizing spot names s o with
    | zero => exact leads_of_shown_walkFrom hlast (fun _ _ _ _ h => by cases h) h
    | succ links ih => exact leads_of_shown_walkFrom hlast (fun _ _ _ _ h => ⟨links, rfl, ih h⟩) h
  · intro h
    induction h with
    | @stop links spot x hview =>
      cases links <;> (unfold walk; rw [shown_walkFrom_nil, hview])
    | @stay links _ _ _ _ _ _ hdir hname _ ih =>
      cases links <;> (unfold walk at ih ⊢; rw [shown_walkFrom_stay hdir hname, ih])
    | @up links _ _ _ _ _ hdir _ ih =>
      cases links <;> (unfold walk at ih ⊢; rw [shown_walkFrom_up hdir, ih])
    | @free links _ _ _ hdir hstep hview =>
      cases links <;> (unfold walk; rw [shown_walkFrom_step hdir hstep hlast, hview]; rfl)
    | @down links spot s name rest o x readable hdir hstep hview hx h ih =>
      cases links <;> (unfold walk at ih ⊢; rw [shown_walkFrom_step hdir hstep hlast, hview, ← ih])
      all_goals cases x with
        | link target => exact absurd rfl (hx target)
        | _ => rfl
    | follow hdir hstep hview _ ih =>
      unfold walk
      rw [shown_walkFrom_step hdir hstep hlast, hview, ← ih]

-- ---------------------------------------------------------------------------
-- What is found, and what is not
-- ---------------------------------------------------------------------------

namespace Leads

/-- What names lead to is what stands there. -/
theorem view_eq (h : Leads root last links spot names s o) : root.view s = o := by
  induction h with
  | stop hview => exact hview
  | free _ _ hview => exact hview
  | stay _ _ _ ih => exact ih
  | up _ _ ih => exact ih
  | down _ _ _ _ _ ih => exact ih
  | follow _ _ _ _ ih => exact ih

/-- Where names lead to nothing, a file can be put. -/
theorem takes (h : Leads root last links spot names s none) : root.Takes s := by
  generalize hnone : (none : Option Occupant) = o at h
  induction h with
  | stop hview => cases hnone
  | @free _ spot name readable hdir _ hview => exact .inr ⟨spot, name, readable, rfl, hdir, hview⟩
  | stay _ _ _ ih => exact ih hnone
  | up _ _ ih => exact ih hnone
  | down _ _ _ _ _ ih => exact ih hnone
  | follow _ _ _ _ ih => exact ih hnone

/-- Names that end in a slash lead to no file. -/
theorem not_slashed (h : Leads root last links spot names s (some (.file bytes))) : ¬ [[]] <:+ names := by
  generalize hfile : some (Occupant.file bytes) = o at h
  intro hslash
  induction h with
  | stop hview => cases List.suffix_nil.1 hslash
  | free _ hstep _ =>
    rcases List.suffix_cons_iff.1 hslash with hname | hslash
    · exact hstep.not_stay (.inl (List.cons_eq_cons.1 hname).1.symm)
    · cases List.suffix_nil.1 hslash
  | stay hdir _ h ih =>
    rcases List.suffix_cons_iff.1 hslash with hname | hslash
    · -- Only the name that stays is left, and the spot is a directory.
      obtain ⟨-, rfl⟩ := List.cons_eq_cons.1 hname
      cases h with
      | stop hview =>
        cases hfile
        rw [hdir] at hview
        cases hview
    · exact ih hfile hslash
  | up _ _ ih =>
    rcases List.suffix_cons_iff.1 hslash with hname | hslash
    · cases hname
    · exact ih hfile hslash
  | down _ hstep _ _ _ ih =>
    rcases List.suffix_cons_iff.1 hslash with hname | hslash
    · exact hstep.not_stay (.inl (List.cons_eq_cons.1 hname).1.symm)
    · exact ih hfile hslash
  | follow _ hstep _ _ ih =>
    rcases List.suffix_cons_iff.1 hslash with hname | hslash
    · exact hstep.not_stay (.inl (List.cons_eq_cons.1 hname).1.symm)
    · exact ih hfile (hslash.trans (List.suffix_append _ _))

/-- What is found when a file may be made is found as well when none may. -/
theorem of_create (h : Leads root .create links spot names s o) : Leads root .follow links spot names s o := by
  have hfollow : ∀ {name rest}, IsStep .create name rest → IsStep .follow name rest := fun hstep =>
    ⟨hstep.not_stay, hstep.not_up, fun hslash => (nomatch hslash.1), hstep.short⟩
  induction h with
  | stop hview => exact .stop hview
  | free hdir hstep hview => exact .free hdir (hfollow hstep) hview
  | stay hdir hname _ ih => exact .stay hdir hname ih
  | up hdir _ ih => exact .up hdir ih
  | down hdir hstep hview hx _ ih => exact .down hdir (hfollow hstep) hview hx ih
  | follow hdir hstep hview _ ih => exact .follow hdir (hfollow hstep) hview ih

/-- A file that is found is found as well when one may be made. -/
theorem create_of_file (h : Leads root .follow links spot names s (some (.file bytes))) :
    Leads root .create links spot names s (some (.file bytes)) := by
  have hcreate : ∀ {name : Text} {rest : List Text}, ¬ [[]] <:+ name :: rest → IsStep .follow name rest →
      IsStep .create name rest := by
    intro name rest hslash hstep
    refine ⟨hstep.not_stay, hstep.not_up, ?_, hstep.short⟩
    rintro ⟨-, hne, hall⟩
    have hlast : rest.getLast hne = [] := of_decide_eq_true (List.all_eq_true.1 hall _ (List.getLast_mem hne))
    have hsuffix : [[]] <:+ rest := ⟨rest.dropLast, by rw [← hlast, List.dropLast_concat_getLast hne]⟩
    exact hslash (hsuffix.trans (List.suffix_cons name rest))
  generalize hfile : some (Occupant.file bytes) = o at h
  induction h with
  | stop hview => exact .stop hview
  | free _ _ _ => cases hfile
  | stay hdir hname _ ih => exact .stay hdir hname (ih hfile)
  | up hdir _ ih => exact .up hdir (ih hfile)
  | down hdir hstep hview hx h ih =>
    subst hfile
    exact .down hdir (hcreate (not_slashed (.down hdir hstep hview hx h)) hstep) hview hx (ih rfl)
  | follow hdir hstep hview h ih =>
    subst hfile
    exact .follow hdir (hcreate (not_slashed (.follow hdir hstep hview h)) hstep) hview (ih rfl)

/-- Names lead on to where they led when something else stands at one spot: a file in place of another one, or anything
but a link where nothing stood. -/
theorem update (h : Leads root last links spot names s o)
    (hupdate : root'.view = Function.update root.view t (some x)) (hx : ∀ target, x ≠ .link target)
    (ht : root.view t = none ∨ (∃ b, root.view t = some (.file b)) ∧ ∃ b, x = .file b) :
    Leads root' last links spot names s (root'.view s) := by
  have hself : root'.view t = some x := by rw [hupdate, Function.update_self]
  have hkept : ∀ {u y}, root.view u = some y → root'.view u = some y ∨ u = t := by
    intro u y hu
    by_cases hut : u = t
    · exact .inr hut
    · exact .inl (by rw [hupdate, Function.update_of_ne hut, hu])
  have hother : ∀ {u y}, root.view u = some y → (∀ b, y ≠ .file b) → root'.view u = some y := by
    intro u y hu hy
    rcases hkept hu with hsame | rfl
    · exact hsame
    · rcases ht with hnone | ⟨⟨b, hb⟩, -⟩
      · rw [hu] at hnone
        cases hnone
      · rw [hu] at hb
        exact absurd (Option.some.inj hb) (hy b)
  induction h with
  | stop hview =>
    rcases hkept hview with hsame | rfl
    · rw [hsame]
      exact .stop hsame
    · rw [hself]
      exact .stop hself
  | stay hdir hname _ ih => exact .stay (hother hdir nofun) hname ih
  | up hdir _ ih => exact .up (hother hdir nofun) ih
  | @free _ spot name _ hdir hstep hview =>
    by_cases hut : spot ++ [name] = t
    · subst hut
      rw [hself]
      exact .down (hother hdir nofun) hstep hself hx (.stop hself)
    · have hnone : root'.view (spot ++ [name]) = none := by rw [hupdate, Function.update_of_ne hut, hview]
      rw [hnone]
      exact .free (hother hdir nofun) hstep hnone
  | down hdir hstep hview hy _ ih =>
    rcases hkept hview with hsame | rfl
    · exact .down (hother hdir nofun) hstep hsame hy ih
    · exact .down (hother hdir nofun) hstep hself hx ih
  | follow hdir hstep hview _ ih => exact .follow (hother hdir nofun) hstep (hother hview nofun) ih

/-- Names lead on to where they led when a file is put anywhere. -/
theorem put (h : Leads root last links spot names s o) (ht : root.Takes t) (bytes : Bytes) :
    Leads (root.put (.file bytes) t) last links spot names s ((root.put (.file bytes) t).view s) := by
  refine h.update (Entry.view_put ht bytes) nofun ?_
  rcases ht with hfile | ⟨_, _, _, _, _, hnone⟩
  · exact .inr ⟨hfile, bytes, rfl⟩
  · exact .inl hnone

end Leads
end MdxSafe.Disk
