-- SUMMARY: The documents that a search finds have the extension that it asks for.
import MdxSafe.Disk.Discovery
import MdxSafe.Proofs.Disk.Beside
import MdxSafe.Run.Run

/-!
# What is found

A search below roots finds paths that can be read, whose names have the extension (`Run.sound_discover`). It does not
tell whether they lead to different files: a file below several roots, or below one that is given twice, is found as
often.
-/

namespace MdxSafe

-- ---------------------------------------------------------------------------
-- Names on a disk
-- ---------------------------------------------------------------------------

mutual
/-- Whether everything below an entry has a name that can be a part of a path. -/
def Entry.isWellNamed : Entry → Bool
  | .directory _ es => Entry.areWellNamed es
  | .file _ | .link _ | .special => true
termination_by structural e => e

/-- Whether the entries of a directory, and everything below them, have names that can be parts of a path. -/
def Entry.areWellNamed : List (Text × Entry) → Bool
  | [] => true
  | (name, e) :: es => Path.isPart name && e.isWellNamed && Entry.areWellNamed es
termination_by structural es => es
end

theorem Entry.isWellNamed_of_find? {es : List (Text × Entry)} (h : Entry.areWellNamed es = true) {name : Text}
    {e : Entry} (hfind : Entry.find? es name = some e) : e.isWellNamed = true := by
  induction es with
  | nil => cases hfind
  | cons x es ih =>
    obtain ⟨hx, hes⟩ := Bool.and_eq_true_iff.1 h
    by_cases hname : x.1 = name
    · have hsome : some x.2 = some e := by simpa [Entry.find?, hname] using hfind
      cases hsome
      exact (Bool.and_eq_true_iff.1 hx).2
    · have hskip : Entry.find? es name = some e := by simpa [Entry.find?, hname] using hfind
      exact ih hes hskip

/-- What a directory passes on to its entries holds of everything below it. -/
theorem Entry.of_at? {P : Entry → Prop}
    (hbelow : ∀ {readable es name e}, P (.directory readable es) → Entry.find? es name = some e → P e)
    {root e : Entry} (h : P root) {s : Spot} (hat : root.at? s = some e) : P e := by
  induction s generalizing root with
  | nil =>
    rw [Entry.at?_nil] at hat
    cases hat
    exact h
  | cons name s ih =>
    cases root with
    | directory readable es =>
      rw [Entry.at?_cons] at hat
      obtain ⟨x, hfind, hat⟩ := Option.bind_eq_some_iff.1 hat
      exact ih (hbelow h hfind) hat
    | file bytes => cases hat
    | link target => cases hat
    | special => cases hat

theorem Entry.isWellNamed_of_at? {root e : Entry} (h : root.isWellNamed = true) {s : Spot}
    (hat : root.at? s = some e) : e.isWellNamed = true :=
  Entry.of_at? (P := fun e => e.isWellNamed = true) (fun h hfind => Entry.isWellNamed_of_find? h hfind) h hat

namespace Disk

variable {d : Disk} {root e : Entry} {last : LastName} {spot s : Spot} {names : List Text} {p : Path} {links : Nat}

theorem at?_of_walkFrom {expand : Spot → List Text → Except DiskFault Target}
    (hexpand : ∀ start names, expand start names = .ok (.found s e) → root.at? s = some e)
    (h : walkFrom root last expand spot names = .ok (.found s e)) : root.at? s = some e := by
  induction names generalizing spot with
  | nil =>
    unfold walkFrom at h
    cases hat : root.at? spot with
    | none =>
      rw [hat] at h
      cases h
    | some x =>
      rw [hat] at h
      cases h
      exact hat
  | cons name rest ih =>
    rw [walkFrom] at h
    split at h
    · next readable es hdir =>
      by_cases hstay : name = [] ∨ name = ['.']
      · rw [if_pos hstay] at h
        exact ih h
      rw [if_neg hstay] at h
      by_cases hup : name = ['.', '.']
      · rw [if_pos hup] at h
        exact ih h
      rw [if_neg hup] at h
      by_cases hslash : last = .create ∧ rest ≠ [] ∧ rest.all (· = [])
      · rw [if_pos hslash] at h
        cases h
      rw [if_neg hslash] at h
      by_cases hlong : maxNameLength < (Utf8.encode name).length
      · rw [if_pos hlong] at h
        cases h
      rw [if_neg hlong] at h
      split at h
      · split_ifs at h
        cases h
      · next target hfind =>
        by_cases hkeep : rest = [] ∧ last = .keep
        · rw [if_pos hkeep] at h
          cases h
          rw [Entry.at?_child hdir, hfind]
        · rw [if_neg hkeep] at h
          exact hexpand _ _ h
      · exact ih h
    · cases h
    · cases h

/-- What a path leads to is what stands there. -/
theorem at?_of_resolve (h : d.resolve last p = .ok (.found s e)) : d.root.at? s = some e := by
  have hwalk : ∀ links start names, walk d.root last links start names = .ok (.found s e) → d.root.at? s = some e := by
    intro links
    induction links with
    | zero => exact fun _ _ => at?_of_walkFrom fun _ _ h => nomatch h
    | succ links ih => exact fun _ _ => at?_of_walkFrom ih
  unfold resolve at h
  dsimp only at h
  split_ifs at h
  · exact hwalk _ _ _ h
  · exact hwalk _ _ _ h

/-- What is there at a path stands somewhere on the disk. -/
theorem exists_at?_of_status (h : d.status p = .ok (some e)) : ∃ spot, d.root.at? spot = some e := by
  unfold status at h
  split at h
  · next spot x hresolve =>
    cases h
    exact ⟨spot, at?_of_resolve hresolve⟩
  all_goals cases h

/-- What is there at a path has a path that is not too long. -/
theorem length_le_of_status (h : d.status p = .ok (some e)) : ¬ maxPathLength < (Utf8.encode p.toText).length := by
  intro hlong
  unfold status resolve at h
  dsimp only at h
  by_cases hnull : (p.toText.any fun c => c.toNat = 0) = true
  · rw [if_pos hnull] at h
    cases h
  · rw [if_neg hnull, if_pos hlong] at h
    cases h

end Disk

-- ---------------------------------------------------------------------------
-- What is found
-- ---------------------------------------------------------------------------

namespace Discovery

variable {d : Disk} {extension : Text} {a b : Except DiskError Found}

/-- All documents found are paths that can be read, with names that have the extension. -/
def Sound (extension : Text) (x : Except DiskError Found) : Prop :=
  ∀ found, x = .ok found → ∀ p ∈ found.documents, p.isNormal = true ∧ p.name.endsWith extension = true

theorem sound_none (extension : Text) (log : List Log.Entry) : Sound extension (.ok ⟨[], log⟩) := by
  rintro found h
  cases h
  exact nofun

theorem Sound.andThen (ha : Sound extension a) (hb : Sound extension b) : Sound extension (andThen a b) := by
  intro found h
  cases a with
  | error e => cases h
  | ok x =>
    cases b with
    | error e => cases h
    | ok y =>
      cases h
      intro p hp
      rcases List.mem_append.1 hp with hp | hp
      · exact ha x rfl p hp
      · exact hb y rfl p hp

theorem sound_foldr {α : Type} {search : α → Except DiskError Found} {xs : List α}
    (h : ∀ x ∈ xs, Sound extension (search x)) :
    Sound extension (xs.foldr (fun x rest => Discovery.andThen (search x) rest) (.ok {})) := by
  induction xs with
  | nil => exact sound_none extension []
  | cons x xs ih =>
    obtain ⟨hx, hxs⟩ := List.forall_mem_cons.1 h
    exact hx.andThen (ih hxs)

theorem sound_inOrder {found : List (Text × Except DiskError Found)} (h : ∀ f ∈ found, Sound extension f.2) :
    Sound extension (inOrder found) :=
  sound_foldr fun f hf => h f (List.mem_mergeSort.1 hf)

/-- A file with the extension is a document. -/
theorem sound_single {p : Path} (hp : p.isNormal = true) {found : Bool}
    (h : found = true → p.name.endsWith extension = true) :
    Sound extension (.ok ⟨if found then [p] else [], []⟩) := by
  rintro x hx q hq
  cases hx
  cases found with
  | false => cases hq
  | true =>
    obtain rfl := List.mem_singleton.1 hq
    exact ⟨hp, h rfl⟩

theorem sound_ofLink {p : Path} (hp : p.isNormal = true) : Sound extension (ofLink d extension p) := by
  unfold ofLink
  split
  · exact fun _ h => nomatch h
  · exact fun _ h => nomatch h
  · exact sound_none extension _
  · exact sound_single hp fun h => (Bool.and_eq_true_iff.1 h).2

theorem isNormal_child {dir : Path} {name : Text} (hdir : dir.isNormal = true) (hname : Path.isPart name = true) :
    (dir.child name).isNormal = true := by
  unfold Path.isNormal Path.child
  rw [List.all_append, Bool.and_eq_true_iff]
  exact ⟨hdir, by simpa using hname⟩

theorem Sound.asking (h : Sound extension a) (p : Path) : Sound extension (asking p a) := by
  intro found hfound
  unfold Discovery.asking at hfound
  split at hfound
  · cases hfound
  · exact h found hfound

mutual
theorem sound_ofEntry (d : Disk) (extension : Text) : (e : Entry) → {p : Path} → p.isNormal = true →
    e.isWellNamed = true → Sound extension (ofEntry d extension p e)
  | .file _, _, hp, _ => sound_single hp id
  | .directory true es, _, hp, h => sound_inOrder (sound_ofEntries d extension es hp h)
  | .directory false _, _, _, _ => sound_none extension _
  | .link _, _, hp, _ => sound_ofLink hp
  | .special, _, _, _ => sound_none extension []

theorem sound_ofEntries (d : Disk) (extension : Text) : (es : List (Text × Entry)) → {dir : Path} →
    dir.isNormal = true → Entry.areWellNamed es = true → ∀ f ∈ ofEntries d extension dir es, Sound extension f.2
  | [], _, _, _ => fun _ hf => nomatch hf
  | (name, e) :: es, dir, hdir, h => by
    obtain ⟨hfirst, hes⟩ := Bool.and_eq_true_iff.1 h
    obtain ⟨hname, he⟩ := Bool.and_eq_true_iff.1 hfirst
    rw [ofEntries, List.forall_mem_cons]
    exact ⟨(sound_ofEntry d extension e (isNormal_child hdir hname) he).asking _,
      sound_ofEntries d extension es hdir hes⟩
end

theorem sound_ofRoot (hd : d.root.isWellNamed = true) {root : Path} (hroot : root.isNormal = true) :
    Sound extension (ofRoot d extension root) := by
  unfold ofRoot
  split
  · exact fun _ h => nomatch h
  · next readable es hstatus =>
    obtain ⟨spot, hat⟩ := Disk.exists_at?_of_status hstatus
    exact sound_ofEntry d extension _ hroot (Entry.isWellNamed_of_at? hd hat)
  · exact sound_none extension _

/-- Searching below roots finds paths that can be read, with names that have the extension. -/
theorem sound_run (hd : d.root.isWellNamed = true) {roots : List Path} (hroots : ∀ root ∈ roots, root.isNormal = true) :
    Sound extension (run d extension roots) := by
  intro found h
  have hsearch : Sound extension (ofRoots d extension roots) := sound_foldr fun root hroot =>
    sound_ofRoot hd (hroots root hroot)
  unfold run at h
  cases hfound : ofRoots d extension roots with
  | error e =>
    rw [hfound] at h
    cases h
  | ok x =>
    rw [hfound] at h
    cases h
    intro p hp
    exact hsearch x hfound p (by simpa [Found.append] using hp)

end Discovery

/-- A run finds paths that can be read, with names that have the extension, and has its disk still. -/
theorem Run.sound_discover {extension : Text} {roots docs : List Path} {r r' : Run} (hd : r.disk.root.isWellNamed = true)
    (hroots : ∀ root ∈ roots, root.isNormal = true) (h : Run.discover extension roots r = .ok (docs, r')) :
    r'.disk = r.disk ∧ ∀ p ∈ docs, p.isNormal = true ∧ p.name.endsWith extension = true := by
  unfold discover at h
  dsimp only at h
  split at h
  · cases h
  · next found hfound =>
    cases h
    exact ⟨rfl, Discovery.sound_run hd hroots found hfound⟩

end MdxSafe
