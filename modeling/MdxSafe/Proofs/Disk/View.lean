-- SUMMARY: A disk seen as a map from spots to what stands there, and what putting a file does to that map.
import Mathlib.Logic.Function.Basic
import MdxSafe.Disk.Basic

/-!
# The view of a disk

A disk is seen as a map from spots to what stands there: a file with its bytes, a directory, a link, something
else, or nothing. The order of the entries of a directory does not show. Putting a file at a spot that takes one
changes the map at that spot and nowhere else (`Entry.view_put`).
-/

namespace MdxSafe

/-- What stands at a spot, without what is below it. -/
inductive Occupant where
  | file (bytes : Bytes)
  | directory (readable : Bool)
  | link (target : Text)
  | special
  deriving DecidableEq, Repr

/-- What an entry is, without what is below it. -/
def Entry.occupant : Entry → Occupant
  | file bytes => .file bytes
  | directory readable _ => .directory readable
  | link target => .link target
  | special => .special

namespace Entry

variable {root e x : Entry} {es : List (Text × Entry)} {name : Text} {s t : Spot} {bytes : Bytes} {readable : Bool}

-- ---------------------------------------------------------------------------
-- Entries of a directory
-- ---------------------------------------------------------------------------

theorem find?_set (es : List (Text × Entry)) (name : Text) (x : Entry) (other : Text) :
    find? (set es name x) other = if other = name then some x else find? es other := by
  induction es with
  | nil =>
    by_cases h : other = name
    · simp [set, find?, h]
    · simp [set, find?, h, Ne.symm h]
  | cons e es ih =>
    unfold set
    by_cases he : e.1 = name
    · rw [if_pos he]
      by_cases h : other = name
      · simp [find?, h]
      · have hne : e.1 ≠ other := fun heq => h (heq.symm.trans he)
        simp [find?, h, Ne.symm h, hne]
    · rw [if_neg he]
      by_cases heo : e.1 = other
      · have h : other ≠ name := fun heq => he (heo.trans heq)
        simp [find?, heo, h]
      · have hskip : ∀ fs : List (Text × Entry), find? (e :: fs) other = find? fs other := by
          intro fs
          simp [find?, heo]
        rw [hskip, hskip, ih]

-- ---------------------------------------------------------------------------
-- What stands at a spot
-- ---------------------------------------------------------------------------

@[simp] theorem at?_nil (e : Entry) : e.at? [] = some e := by
  cases e <;> rfl

theorem at?_cons (readable : Bool) (es : List (Text × Entry)) (name : Text) (s : Spot) :
    (directory readable es).at? (name :: s) = (find? es name).bind fun e => e.at? s := by
  rw [at?]
  cases find? es name <;> rfl

theorem at?_cons_eq_none (h : ∀ readable es, e ≠ directory readable es) (name : Text) (s : Spot) :
    e.at? (name :: s) = none := by
  cases e with
  | directory readable es => exact absurd rfl (h readable es)
  | file bytes => rfl
  | link target => rfl
  | special => rfl

theorem at?_append (e : Entry) (s t : Spot) : e.at? (s ++ t) = (e.at? s).bind fun x => x.at? t := by
  induction s generalizing e with
  | nil => simp
  | cons name s ih =>
    cases e with
    | directory readable es =>
      rw [List.cons_append, at?_cons, at?_cons]
      cases find? es name with
      | none => rfl
      | some x => exact ih x
    | file bytes => rfl
    | link target => rfl
    | special => rfl

/-- The names of a directory lead to what stands at the spots below it. -/
theorem at?_child (h : root.at? s = some (directory readable es)) (name : Text) :
    root.at? (s ++ [name]) = find? es name := by
  rw [at?_append, h, Option.bind_some, at?_cons]
  cases find? es name <;> simp

/-- The map from the spots below an entry to what stands there. -/
def view (root : Entry) (s : Spot) : Option Occupant := (root.at? s).map occupant

theorem view_child (h : root.at? s = some (directory readable es)) (name : Text) :
    root.view (s ++ [name]) = (find? es name).map occupant := by
  unfold view
  rw [at?_child h]

theorem view_cons (readable : Bool) (es : List (Text × Entry)) (name : Text) (s : Spot) :
    (directory readable es).view (name :: s) = (find? es name).bind fun e => e.view s := by
  unfold view
  rw [at?_cons, Option.map_bind]
  rfl

theorem exists_of_view_directory (h : root.view s = some (.directory readable)) :
    ∃ es, root.at? s = some (directory readable es) := by
  obtain ⟨e, he, hoccupant⟩ := Option.map_eq_some_iff.1 h
  cases e with
  | directory r es =>
    cases hoccupant
    exact ⟨es, he⟩
  | file bytes => cases hoccupant
  | link target => cases hoccupant
  | special => cases hoccupant

theorem at?_of_view_file (h : root.view s = some (.file bytes)) : root.at? s = some (file bytes) := by
  obtain ⟨e, he, hoccupant⟩ := Option.map_eq_some_iff.1 h
  cases e with
  | file b =>
    cases hoccupant
    exact he
  | directory r es => cases hoccupant
  | link target => cases hoccupant
  | special => cases hoccupant

-- ---------------------------------------------------------------------------
-- Putting a file
-- ---------------------------------------------------------------------------

/-- A file can be put at a spot where there is one, and at a free name of a directory. -/
def Takes (root : Entry) (s : Spot) : Prop :=
  (∃ bytes, root.view s = some (.file bytes))
    ∨ ∃ dir name readable, s = dir ++ [name] ∧ root.view dir = some (.directory readable) ∧ root.view s = none

/-- What takes a file below it is a directory, and the entry on the way takes it, if there is one. -/
theorem Takes.cons (h : root.Takes (name :: s)) :
    ∃ readable es, root = directory readable es
      ∧ ((∃ e, find? es name = some e ∧ e.Takes s) ∨ (find? es name = none ∧ s = [])) := by
  by_cases hdir : ∃ readable es, root = directory readable es
  · obtain ⟨readable, es, rfl⟩ := hdir
    refine ⟨readable, es, rfl, ?_⟩
    rcases h with ⟨bytes, hfile⟩ | ⟨dir, last, r, hspot, habove, hfree⟩
    · rw [view_cons] at hfile
      obtain ⟨e, he, hview⟩ := Option.bind_eq_some_iff.1 hfile
      exact .inl ⟨e, he, .inl ⟨bytes, hview⟩⟩
    · rw [view_cons] at hfree
      cases hfind : find? es name with
      | none =>
        -- Nothing is found under the name, so that nothing above the spot can lie below it.
        cases dir with
        | nil => exact .inr ⟨rfl, (List.cons_eq_cons.1 hspot).2⟩
        | cons first dir =>
          obtain ⟨rfl, -⟩ := List.cons_eq_cons.1 hspot
          rw [view_cons, hfind] at habove
          cases habove
      | some e =>
        rw [hfind, Option.bind_some] at hfree
        refine .inl ⟨e, rfl, .inr ?_⟩
        cases dir with
        | nil =>
          rw [(List.cons_eq_cons.1 hspot).2] at hfree
          simp [view] at hfree
        | cons first dir =>
          obtain ⟨rfl, hrest⟩ := List.cons_eq_cons.1 hspot
          rw [view_cons, hfind, Option.bind_some] at habove
          exact ⟨dir, last, r, hrest, habove, hfree⟩
  · have hnone : ∀ name s, root.view (name :: s) = none := fun name s => by
      rw [view, at?_cons_eq_none (fun r es heq => hdir ⟨r, es, heq⟩)]
      rfl
    rcases h with ⟨bytes, hfile⟩ | ⟨dir, last, r, hspot, habove, -⟩
    · rw [hnone] at hfile
      cases hfile
    · cases dir with
      | nil =>
        obtain ⟨es, hes⟩ := exists_of_view_directory habove
        rw [at?_nil] at hes
        exact absurd ⟨r, es, Option.some.inj hes⟩ hdir
      | cons first dir =>
        rw [hnone] at habove
        cases habove

theorem put_cons_of_some (h : find? es name = some e) (x : Entry) (s : Spot) :
    (directory readable es).put x (name :: s) = directory readable (set es name (e.put x s)) := by
  simp [put, h]

theorem put_singleton_of_none (h : find? es name = none) (x : Entry) :
    (directory readable es).put x [name] = directory readable (set es name x) := by
  simp [put, h]

/-- Nothing is below an entry. -/
def IsLeaf (e : Entry) : Prop := ∀ readable es, e = directory readable es → es = []

theorem IsLeaf.view_cons (h : x.IsLeaf) (name : Text) (s : Spot) : x.view (name :: s) = none := by
  cases x with
  | directory readable es =>
    cases h readable es rfl
    rfl
  | file bytes => rfl
  | link target => rfl
  | special => rfl

/-- An entry that is put, and has nothing below it, shows at its spot, and nothing else changes. -/
theorem view_put_leaf (h : root.Takes s) (hx : x.IsLeaf) :
    (root.put x s).view = Function.update root.view s (some x.occupant) := by
  funext t
  induction s generalizing root t with
  | nil =>
    rcases h with ⟨b, hfile⟩ | ⟨dir, name, r, hspot, -⟩
    · have hroot := at?_of_view_file hfile
      rw [at?_nil] at hroot
      cases Option.some.inj hroot
      cases t with
      | nil => simp [put, view]
      | cons m t =>
        rw [put, hx.view_cons]
        simp [view, at?]
    · cases dir <;> cases hspot
  | cons name s ih =>
    obtain ⟨readable, es, rfl, hentry⟩ := h.cons
    cases t with
    | nil => rcases hentry with ⟨e, he, -⟩ | ⟨he, rfl⟩ <;> simp [put, he, view, occupant]
    | cons m t =>
      by_cases hm : m = name
      · subst hm
        rcases hentry with ⟨e, he, htakes⟩ | ⟨he, rfl⟩
        · rw [put_cons_of_some he, view_cons, find?_set, if_pos rfl, Option.bind_some, ih htakes]
          by_cases ht : t = s
          · simp [ht]
          · have hne : m :: t ≠ m :: s := fun heq => ht (List.cons_eq_cons.1 heq).2
            rw [Function.update_of_ne ht, Function.update_of_ne hne, view_cons, he, Option.bind_some]
        · rw [put_singleton_of_none he, view_cons, find?_set, if_pos rfl, Option.bind_some]
          cases t with
          | nil => simp [view]
          | cons k t =>
            rw [hx.view_cons]
            simp [view, at?, he]
      · have hne : m :: t ≠ name :: s := fun heq => hm (List.cons_eq_cons.1 heq).1
        rw [Function.update_of_ne hne]
        rcases hentry with ⟨e, he, -⟩ | ⟨he, rfl⟩
        · rw [put_cons_of_some he, view_cons, find?_set, if_neg hm, view_cons]
        · rw [put_singleton_of_none he, view_cons, find?_set, if_neg hm, view_cons]

/-- A file that is put shows at its spot, and nothing else changes. -/
theorem view_put (h : root.Takes s) (bytes : Bytes) :
    (root.put (file bytes) s).view = Function.update root.view s (some (.file bytes)) :=
  view_put_leaf h nofun

end Entry

namespace Disk

variable {d d' : Disk} {s t : Spot}

/-- The map from spots to what stands there. -/
def view (d : Disk) : Spot → Option Occupant := d.root.view

/-- The disk with a file put at a spot. -/
def putFile (d : Disk) (s : Spot) (bytes : Bytes) : Disk := { d with root := d.root.put (.file bytes) s }

/-- A file can be put at a spot where there is one, and at a free name of a directory. -/
def Takes (d : Disk) (s : Spot) : Prop := d.root.Takes s

theorem view_putFile (h : d.Takes s) (bytes : Bytes) :
    (d.putFile s bytes).view = Function.update d.view s (some (.file bytes)) :=
  Entry.view_put h bytes

theorem view_putFile_self (h : d.Takes s) (bytes : Bytes) : (d.putFile s bytes).view s = some (.file bytes) := by
  rw [view_putFile h, Function.update_self]

theorem view_putFile_of_ne (h : d.Takes s) (bytes : Bytes) (hne : t ≠ s) : (d.putFile s bytes).view t = d.view t := by
  rw [view_putFile h, Function.update_of_ne hne]

/-- What holds the bytes that are put, wherever that is, holds them afterwards. -/
theorem view_putFile_of_view {bytes : Bytes} (h : d.Takes s) (ht : d.view t = some (.file bytes)) :
    (d.putFile s bytes).view t = some (.file bytes) := by
  by_cases hts : t = s
  · rw [hts, view_putFile_self h]
  · rw [view_putFile_of_ne h bytes hts, ht]

/-- Where two disks are the same, they are after a file is put at the same spot of both. -/
theorem view_putFile_congr (h' : d'.Takes s) (h : d.Takes s) (bytes : Bytes) (ht : d'.view t = d.view t) :
    (d'.putFile s bytes).view t = (d.putFile s bytes).view t := by
  by_cases hts : t = s
  · rw [hts, view_putFile_self h', view_putFile_self h]
  · rw [view_putFile_of_ne h' bytes hts, view_putFile_of_ne h bytes hts, ht]

end Disk
end MdxSafe
