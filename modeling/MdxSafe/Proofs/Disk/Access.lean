-- SUMMARY: Reading and writing files in terms of the view of a disk.
import MdxSafe.Disk.Access
import MdxSafe.Proofs.Disk.Lookup

/-!
# Files through the view

A path has a spot if there is a file at the end of it, or one can be made there (`Disk.spot`). Its file is read and
written there. A path keeps its spot when a file is put anywhere, so that what was written is read again, and
nothing else is affected.
-/

namespace MdxSafe

/-- The names that a path is followed by. -/
def Path.names (p : Path) : List Text := Text.splitOn '/' p.toText

/-- Whether there is a null character in a path. -/
def Path.hasNull (p : Path) : Bool := p.toText.any fun c => c.toNat = 0

/-- The spot from which the names of a path are followed, if the current directory is here. -/
def Path.origin (here : Spot) (p : Path) : Spot := if p.isAbsolute then [] else here

namespace Disk

variable {d d' : Disk} {last : LastName} {p q : Path} {s t : Spot} {bytes b : Bytes} {o : Option Occupant}

-- ---------------------------------------------------------------------------
-- Where a path leads
-- ---------------------------------------------------------------------------

/-- What is at fault with a path on any disk. -/
def unfit? (p : Path) : Option DiskFault :=
  if p.toText.any fun c => c.toNat = 0 then some .nullCharacter
  else if maxPathLength < (Utf8.encode p.toText).length then some .nameTooLong
  else none

theorem lookup_eq (d : Disk) (last : LastName) (p : Path) :
    d.lookup last p = match unfit? p with
      | some fault => .error fault
      | none => (walk d.root last maxLinks (p.origin d.current) p.names).map Target.shown := by
  unfold lookup resolve unfit?
  dsimp only
  by_cases hnull : p.toText.any fun c => c.toNat = 0
  · rw [if_pos hnull, if_pos hnull]
    rfl
  rw [if_neg hnull, if_neg hnull]
  by_cases hlong : maxPathLength < (Utf8.encode p.toText).length
  · rw [if_pos hlong, if_pos hlong]
    rfl
  rw [if_neg hlong, if_neg hlong]
  rfl

theorem walkFrom_ne_nullCharacter {root : Entry} {expand : Spot → List Text → Except DiskFault Target}
    (hexpand : ∀ start names, expand start names ≠ .error .nullCharacter) (names : List Text) (spot : Spot) :
    walkFrom root last expand spot names ≠ .error .nullCharacter := by
  induction names generalizing spot with
  | nil =>
    rw [walkFrom]
    split <;> simp
  | cons name rest ih =>
    rw [walkFrom]
    split
    · split
      · exact ih _
      split
      · exact ih _
      split
      · simp
      split
      · simp
      split
      · split <;> simp
      · split
        · simp
        · exact hexpand _ _
      · exact ih _
    · simp
    · simp

theorem walk_ne_nullCharacter (last : LastName) (root : Entry) (links : Nat) (spot : Spot) (names : List Text) :
    walk root last links spot names ≠ .error .nullCharacter := by
  induction links generalizing spot names with
  | zero =>
    unfold walk
    exact walkFrom_ne_nullCharacter (by simp) names spot
  | succ links ih =>
    unfold walk
    exact walkFrom_ne_nullCharacter ih names spot

/-- A null character is found fault with in the path alone. -/
theorem lookup_eq_nullCharacter_iff : d.lookup last p = .error .nullCharacter ↔ p.hasNull = true := by
  rw [lookup_eq]
  unfold unfit? Path.hasNull
  by_cases hnull : p.toText.any fun c => c.toNat = 0
  · rw [if_pos hnull]
    exact iff_of_true rfl hnull
  rw [if_neg hnull]
  refine iff_of_false ?_ hnull
  by_cases hlong : maxPathLength < (Utf8.encode p.toText).length
  · rw [if_pos hlong]
    exact nofun
  rw [if_neg hlong]
  have hwalk := walk_ne_nullCharacter last d.root maxLinks (p.origin d.current) p.names
  cases hw : walk d.root last maxLinks (p.origin d.current) p.names with
  | error cause =>
    rw [hw] at hwalk
    exact fun heq => hwalk (congrArg Except.error (Except.error.inj heq))
  | ok target => exact nofun

theorem lookup_eq_ok_iff (hlast : last ≠ .keep) :
    d.lookup last p = .ok (s, o)
      ↔ unfit? p = none ∧ Leads d.root last maxLinks (p.origin d.current) p.names s o := by
  rw [lookup_eq]
  cases unfit? p with
  | some fault => exact ⟨nofun, fun h => nomatch h.1⟩
  | none => exact (shown_walk_eq_ok_iff hlast).trans (iff_and_self.2 fun _ => rfl)

theorem lookup_create_eq_ok_iff :
    d.lookup .create p = .ok (s, o)
      ↔ unfit? p = none ∧ Leads d.root .create maxLinks (p.origin d.current) p.names s o :=
  lookup_eq_ok_iff nofun

theorem lookup_follow_eq_ok_iff :
    d.lookup .follow p = .ok (s, o)
      ↔ unfit? p = none ∧ Leads d.root .follow maxLinks (p.origin d.current) p.names s o :=
  lookup_eq_ok_iff nofun

-- ---------------------------------------------------------------------------
-- The spot of a file
-- ---------------------------------------------------------------------------

/-- The spot of the file that a path leads to, or of one that can be made there. -/
def spot (d : Disk) (p : Path) : Except DiskError Spot :=
  match d.lookup .create p with
  | .ok (s, none) | .ok (s, some (.file _)) => .ok s
  | .ok (_, some (.directory _)) => .error ⟨.isDirectory, p⟩
  | .ok (_, some _) => .error ⟨.noDevice, p⟩
  | .error cause => .error ⟨cause, p⟩

theorem read_eq (d : Disk) (p : Path) :
    d.read p = match d.lookup .follow p with
      | .ok (_, some (.file bytes)) => .ok bytes
      | .ok (_, some (.directory _)) => .error ⟨.isDirectory, p⟩
      | .ok (_, some _) => .error ⟨.noDevice, p⟩
      | .ok (_, none) => .error ⟨.missing, p⟩
      | .error cause => .error ⟨cause, p⟩ := by
  unfold read lookup
  cases d.resolve .follow p with
  | error cause => rfl
  | ok target =>
    cases target with
    | found s e => cases e <;> rfl
    | free s name => rfl

/-- A file is written at the spot of its path. -/
theorem write_eq (d : Disk) (p : Path) (bytes : Bytes) :
    d.write p bytes = (d.spot p).map fun s => d.putFile s bytes := by
  unfold write spot lookup
  cases d.resolve .create p with
  | error cause => rfl
  | ok target =>
    cases target with
    | found s e => cases e <;> rfl
    | free s name => rfl

theorem spot_eq_ok_iff :
    d.spot p = .ok s ↔ ∃ o, d.lookup .create p = .ok (s, o) ∧ (o = none ∨ ∃ b, o = some (.file b)) := by
  constructor
  · intro h
    unfold spot at h
    split at h
    · next hlookup =>
      cases h
      exact ⟨none, hlookup, .inl rfl⟩
    · next b hlookup =>
      cases h
      exact ⟨_, hlookup, .inr ⟨b, rfl⟩⟩
    all_goals cases h
  · rintro ⟨o, hlookup, rfl | ⟨b, rfl⟩⟩
    · unfold spot
      rw [hlookup]
    · unfold spot
      rw [hlookup]

/-- A file can be put at the spot of a path. -/
theorem takes_of_spot (h : d.spot p = .ok s) : d.Takes s := by
  obtain ⟨o, hlookup, hfree | ⟨b, hfile⟩⟩ := spot_eq_ok_iff.1 h
  · subst hfree
    exact (lookup_create_eq_ok_iff.1 hlookup).2.takes
  · subst hfile
    exact .inl ⟨b, (lookup_create_eq_ok_iff.1 hlookup).2.view_eq⟩

/-- What is read is what stands at the spot of the path. -/
theorem read_eq_ok_iff : d.read p = .ok b ↔ ∃ s, d.spot p = .ok s ∧ d.view s = some (.file b) := by
  constructor
  · intro h
    obtain ⟨s, hlookup⟩ : ∃ s, d.lookup .follow p = .ok (s, some (.file b)) := by
      rw [read_eq] at h
      split at h
      · next s bytes hlookup =>
        cases h
        exact ⟨s, hlookup⟩
      all_goals cases h
    obtain ⟨hfit, hleads⟩ := lookup_follow_eq_ok_iff.1 hlookup
    have hcreate := lookup_create_eq_ok_iff.2 ⟨hfit, hleads.create_of_file⟩
    exact ⟨s, spot_eq_ok_iff.2 ⟨_, hcreate, .inr ⟨b, rfl⟩⟩, hleads.view_eq⟩
  · rintro ⟨s, hspot, hview⟩
    obtain ⟨o, hlookup, -⟩ := spot_eq_ok_iff.1 hspot
    obtain ⟨hfit, hleads⟩ := lookup_create_eq_ok_iff.1 hlookup
    obtain rfl : some (.file b) = o := hview.symm.trans hleads.view_eq
    rw [read_eq, lookup_follow_eq_ok_iff.2 ⟨hfit, hleads.of_create⟩]

/-- A path keeps its spot when a file is put anywhere. -/
theorem spot_putFile (h : d.spot p = .ok s) (ht : d.Takes t) (bytes : Bytes) : (d.putFile t bytes).spot p = .ok s := by
  obtain ⟨o, hlookup, ho⟩ := spot_eq_ok_iff.1 h
  obtain ⟨hfit, hleads⟩ := lookup_create_eq_ok_iff.1 hlookup
  refine spot_eq_ok_iff.2 ⟨_, lookup_create_eq_ok_iff.2 ⟨hfit, hleads.put ht bytes⟩, ?_⟩
  show (d.putFile t bytes).view s = none ∨ ∃ b, (d.putFile t bytes).view s = some (.file b)
  by_cases hst : s = t
  · subst hst
    exact .inr ⟨bytes, view_putFile_self ht bytes⟩
  · rw [view_putFile_of_ne ht bytes hst]
    rwa [← hleads.view_eq] at ho

/-- What was written is read again. -/
theorem read_putFile_self (h : d.spot p = .ok s) (bytes : Bytes) : (d.putFile s bytes).read p = .ok bytes := by
  have ht := takes_of_spot h
  exact read_eq_ok_iff.2 ⟨s, spot_putFile h ht bytes, view_putFile_self ht bytes⟩

/-- A file at another spot is read as before. -/
theorem read_putFile_of_ne (h : d.read p = .ok b) (hspot : d.spot p = .ok s) (ht : d.Takes t) (hne : s ≠ t)
    (bytes : Bytes) : (d.putFile t bytes).read p = .ok b := by
  obtain ⟨u, hu, hview⟩ := read_eq_ok_iff.1 h
  obtain rfl : s = u := Except.ok.inj (hspot.symm.trans hu)
  exact read_eq_ok_iff.2 ⟨s, spot_putFile hspot ht bytes, by rw [view_putFile_of_ne ht bytes hne, hview]⟩

end Disk
end MdxSafe
