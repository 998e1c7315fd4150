-- SUMMARY: A search finds exactly the documents that can be reached, in the order of the names that lead to them.
import Mathlib
import MdxSafe.Proofs.Disk.Discovery
import MdxSafe.Proofs.Outcome
import MdxSafe.Proofs.Text.Order

/-!
# What can be reached

From a directory that can be read one reaches what its names stand for, and what is reached from there. A search below
a root gives the documents among that, in lexicographic order of the names on the way (`exact_searchAt`); the order in
which the disk keeps its names does not matter. A search fails just if the disk refuses to be asked about a root, or
about something that is reached from one (`search_exact`).
-/

namespace MdxSafe

-- ---------------------------------------------------------------------------
-- Names below a path
-- ---------------------------------------------------------------------------

namespace Path

/-- Where names lead on the way down from a path. -/
def below (p : Path) (names : List Text) : Path := ⟨p.anchor, p.parts ++ names⟩

theorem below_nil (p : Path) : p.below [] = p := by rw [below, List.append_nil]

theorem child_below (p : Path) (name : Text) (names : List Text) :
    (p.child name).below names = p.below (name :: names) := by
  simp [below, child]

theorem below_injective (p : Path) : Function.Injective p.below := by
  intro names names' h
  rw [below, below, Path.mk.injEq, List.append_right_inj] at h
  exact h.2

end Path

namespace Entry

mutual
/-- Whether no directory at or below an entry has a name twice. -/
def hasDistinctNames : Entry → Bool
  | .directory _ es => decide (es.map Prod.fst).Nodup && Entry.haveDistinctNames es
  | .file _ | .link _ | .special => true
termination_by structural e => e

/-- Whether no directory at or below entries has a name twice. -/
def haveDistinctNames : List (Text × Entry) → Bool
  | [] => true
  | (_, e) :: es => e.hasDistinctNames && Entry.haveDistinctNames es
termination_by structural es => es
end

theorem haveDistinctNames_iff {es : List (Text × Entry)} :
    Entry.haveDistinctNames es = true ↔ ∀ x ∈ es, x.2.hasDistinctNames = true := by
  induction es with
  | nil => exact iff_of_true rfl nofun
  | cons x es ih => rw [haveDistinctNames, Bool.and_eq_true, ih, List.forall_mem_cons]

theorem hasDistinctNames_directory_iff {readable : Bool} {es : List (Text × Entry)} :
    (directory readable es).hasDistinctNames = true
      ↔ (es.map Prod.fst).Nodup ∧ ∀ x ∈ es, x.2.hasDistinctNames = true := by
  rw [hasDistinctNames, Bool.and_eq_true, decide_eq_true_iff, haveDistinctNames_iff]

theorem hasDistinctNames_of_at? {root e : Entry} (h : root.hasDistinctNames = true) {s : Spot}
    (hat : root.at? s = some e) : e.hasDistinctNames = true := by
  refine Entry.of_at? (P := fun e => e.hasDistinctNames = true) ?_ h hat
  intro readable es name e h hfind
  obtain ⟨x, hx, rfl⟩ := Option.map_eq_some_iff.1 hfind
  exact (hasDistinctNames_directory_iff.1 h).2 x (List.mem_of_find?_eq_some hx)

/-- What names lead to on the way down from an entry, through directories that can be read. -/
inductive Reaches : Entry → List Text → Entry → Prop where
  | stop (e : Entry) : Reaches e [] e
  | down {es : List (Text × Entry)} {name : Text} {x e : Entry} {names : List Text} :
    (name, x) ∈ es → Reaches x names e → Reaches (.directory true es) (name :: names) e

/-- Only directories that can be read have something below them. -/
theorem Reaches.eq_of_leaf {e x : Entry} {names : List Text} (h : e.Reaches names x)
    (hleaf : ∀ es, e ≠ .directory true es) : names = [] ∧ x = e := by
  cases h with
  | stop => exact ⟨rfl, rfl⟩
  | down hmem _ => exact absurd rfl (hleaf _)

end Entry

namespace Discovery

variable {d : Disk} {extension : Text} {p : Path} {e : Entry} {x : Except DiskError Found} {docs : List Path}

-- ---------------------------------------------------------------------------
-- What a search is to find
-- ---------------------------------------------------------------------------

/-- An entry at a path is a document: a file or a link to one, whose name has the extension. -/
def IsDocument (d : Disk) (extension : Text) (p : Path) (e : Entry) : Prop :=
  p.name.endsWith extension = true
    ∧ ((∃ bytes, e = .file bytes) ∨ (∃ target, e = .link target) ∧ d.isFile p = .ok true)

/-- The disk refuses to be asked about an entry at a path: the path is too long, or the entry is a link that cannot be
followed for another reason than that it leads nowhere. -/
def IsRefused (d : Disk) (p : Path) (e : Entry) : Prop :=
  Disk.maxPathLength < (Utf8.encode p.toText).length
    ∨ (∃ target, e = .link target) ∧ ∃ fault, d.status p = .error fault

/-- The documents that are reached from an entry at a path, in lexicographic order of the names that lead to them. -/
def IsListing (d : Disk) (extension : Text) (p : Path) (e : Entry) (docs : List Path) : Prop :=
  ∃ ways : List (List Text), docs = ways.map p.below ∧ ways.Pairwise (· < ·)
    ∧ ∀ names, names ∈ ways ↔ ∃ x, e.Reaches names x ∧ IsDocument d extension (p.below names) x

/-- No document is listed twice. -/
theorem IsListing.nodup (h : IsListing d extension p e docs) : docs.Nodup := by
  obtain ⟨ways, rfl, hsorted, -⟩ := h
  refine List.Nodup.map p.below_injective (hsorted.imp ?_)
  rintro names names' hlt rfl
  exact List.lt_irrefl _ hlt

/-- What a search from an entry at a path comes to: it fails if something refused is reached, and lists the documents
otherwise. -/
structure IsExact (d : Disk) (extension : Text) (p : Path) (e : Entry) (x : Except DiskError Found) : Prop where
  ok_iff : (∃ found, x = .ok found) ↔ ∀ names y, e.Reaches names y → ¬ IsRefused d (p.below names) y
  listing : ∀ found, x = .ok found → IsListing d extension p e found.documents

theorem IsExact.of_isRefused (h : IsRefused d p e) (fault : DiskError) :
    IsExact d extension p e (.error fault) where
  ok_iff := by
    refine iff_of_false (fun ⟨_, hok⟩ => nomatch hok) fun hnone => ?_
    exact hnone [] e (.stop e) (by rwa [p.below_nil])
  listing := nofun

theorem IsExact.of_leaf (hleaf : ∀ es, e ≠ .directory true es) (hasked : ¬ IsRefused d p e) (found : Bool)
    (hfound : found = true ↔ IsDocument d extension p e) (log : List Log.Entry) :
    IsExact d extension p e (.ok ⟨if found then [p] else [], log⟩) where
  ok_iff := by
    refine iff_of_true ⟨_, rfl⟩ ?_
    intro names y hreach
    obtain ⟨rfl, rfl⟩ := hreach.eq_of_leaf hleaf
    rwa [p.below_nil]
  listing := by
    rintro _ ⟨⟩
    refine ⟨if found then [[]] else [], ?_, ?_, ?_⟩
    · cases found <;> simp [p.below_nil]
    · cases found <;> simp
    · intro names
      have hdocument : (∃ y, e.Reaches names y ∧ IsDocument d extension (p.below names) y)
          ↔ names = [] ∧ IsDocument d extension p e := by
        constructor
        · rintro ⟨y, hreach, hy⟩
          obtain ⟨rfl, rfl⟩ := hreach.eq_of_leaf hleaf
          exact ⟨rfl, by rwa [p.below_nil] at hy⟩
        · rintro ⟨rfl, he⟩
          exact ⟨e, .stop e, by rwa [p.below_nil]⟩
      rw [hdocument, ← hfound]
      cases found <;> simp

/-- With the length of the path looked at first, only paths that are not too long count. -/
theorem IsExact.asking (h : ¬ Disk.maxPathLength < (Utf8.encode p.toText).length → IsExact d extension p e x) :
    IsExact d extension p e (asking p x) := by
  unfold Discovery.asking
  split
  · next hlong => exact .of_isRefused (.inl hlong) _
  · next hlong => exact h hlong

-- ---------------------------------------------------------------------------
-- Searches one after the other
-- ---------------------------------------------------------------------------

section Searches

variable {α : Type} {search : α → Except DiskError Found} {xs : List α}

/-- Searches succeed together just if each does. -/
theorem ok_foldr_iff : (∃ found, xs.foldr (fun a rest => andThen (search a) rest) (.ok {}) = .ok found)
    ↔ ∀ a ∈ xs, ∃ found, search a = .ok found := by
  induction xs with
  | nil => exact iff_of_true ⟨{}, rfl⟩ nofun
  | cons a xs ih =>
    rw [List.foldr_cons, List.forall_mem_cons, ← ih]
    cases search a with
    | error fault => exact iff_of_false (fun ⟨_, h⟩ => nomatch h) fun ⟨⟨_, h⟩, _⟩ => nomatch h
    | ok first =>
      cases xs.foldr (fun a rest => andThen (search a) rest) (.ok {}) with
      | error fault => exact iff_of_false (fun ⟨_, h⟩ => nomatch h) fun ⟨_, _, h⟩ => nomatch h
      | ok rest => exact iff_of_true ⟨_, rfl⟩ ⟨⟨_, rfl⟩, _, rfl⟩

/-- What searches find together is what they find one after the other. -/
theorem documents_foldr {found : Found}
    (h : xs.foldr (fun a rest => andThen (search a) rest) (.ok {}) = .ok found) :
    ∃ each, List.Forall₂ (fun a docs => ∃ f : Found, search a = .ok f ∧ f.documents = docs) xs each
      ∧ found.documents = each.flatten := by
  induction xs generalizing found with
  | nil =>
    cases h
    exact ⟨[], .nil, rfl⟩
  | cons a xs ih =>
    rw [List.foldr_cons] at h
    cases hfirst : search a with
    | error fault =>
      rw [hfirst] at h
      cases h
    | ok first =>
      cases hrest : xs.foldr (fun a rest => andThen (search a) rest) (.ok {}) with
      | error fault =>
        rw [hfirst, hrest] at h
        cases h
      | ok rest =>
        rw [hfirst, hrest] at h
        cases h
        obtain ⟨each, heach, hdocs⟩ := ih hrest
        exact ⟨first.documents :: each, .cons ⟨first, hfirst, rfl⟩ heach, congrArg (first.documents ++ ·) hdocs⟩

end Searches

-- ---------------------------------------------------------------------------
-- Directories
-- ---------------------------------------------------------------------------

/-- A search from an entry that is found at a path. -/
def searchAt (d : Disk) (extension : Text) (p : Path) (e : Entry) : Except DiskError Found :=
  asking p (ofEntry d extension p e)

theorem ofEntries_eq_map (dir : Path) (es : List (Text × Entry)) :
    ofEntries d extension dir es = es.map fun x => (x.1, searchAt d extension (dir.child x.1) x.2) := by
  induction es with
  | nil => rfl
  | cons x es ih => rw [ofEntries, ih, List.map_cons, searchAt]

/-- A directory is searched name by name in order. -/
theorem ofEntry_directory (dir : Path) (es : List (Text × Entry)) :
    ofEntry d extension dir (.directory true es)
      = (es.mergeSort fun x y => Text.le x.1 y.1).foldr
          (fun x rest => andThen (searchAt d extension (dir.child x.1) x.2) rest) (.ok {}) := by
  have hsort := List.map_mergeSort (r := fun x y : Text × Entry => Text.le x.1 y.1) (s := fun a b => Text.le a.1 b.1)
    (f := fun x => (x.1, searchAt d extension (dir.child x.1) x.2)) (l := es) fun _ _ _ _ => rfl
  rw [ofEntry, inOrder, ofEntries_eq_map, ← hsort, List.foldr_map]

/-- A document below a directory is one below an entry of it. -/
theorem exists_document_iff {es : List (Text × Entry)} {names : List Text} {q : Path} :
    (∃ y, (Entry.directory true es).Reaches names y ∧ IsDocument d extension q y)
      ↔ ∃ a ∈ es, ∃ rest y, names = a.1 :: rest ∧ a.2.Reaches rest y ∧ IsDocument d extension q y := by
  constructor
  · rintro ⟨y, hreach, hdocument⟩
    cases hreach with
    | stop =>
      rcases hdocument.2 with ⟨_, h⟩ | ⟨⟨_, h⟩, -⟩ <;> cases h
    | down hmem hreach => exact ⟨_, hmem, _, y, rfl, hreach, hdocument⟩
  · rintro ⟨a, ha, rest, y, rfl, hreach, hdocument⟩
    exact ⟨y, .down ha hreach, hdocument⟩

/-- The listings of entries in order, one after the other, are that of their directory. -/
theorem isListing_directory {xs : List (Text × Entry)} {each : List (List Path)}
    (hsorted : xs.Pairwise fun a b => a.1 < b.1)
    (h : List.Forall₂ (fun a docs => IsListing d extension (p.child a.1) a.2 docs) xs each) :
    IsListing d extension p (.directory true xs) each.flatten := by
  induction h with
  | nil =>
    refine ⟨[], rfl, .nil, fun names => ?_⟩
    rw [exists_document_iff]
    simp
  | @cons a docs xs each hfirst _ ih =>
    obtain ⟨hbefore, hsorted⟩ := List.pairwise_cons.1 hsorted
    obtain ⟨ways, rfl, hways, hmem⟩ := hfirst
    obtain ⟨rest, hrest, hrestSorted, hrestMem⟩ := ih hsorted
    refine ⟨ways.map (a.1 :: ·) ++ rest, ?_, ?_, ?_⟩
    · rw [List.flatten_cons, hrest, List.map_append, List.map_map]
      congr 2
      funext names
      exact p.child_below a.1 names
    · refine List.pairwise_append.2 ⟨List.pairwise_map.2 (hways.imp ?_), hrestSorted, ?_⟩
      · exact fun hlt => List.cons_lt_cons_iff.2 (.inr ⟨rfl, hlt⟩)
      · -- names of later entries are greater in their first part
        intro names hnames later hlater
        obtain ⟨tail, -, rfl⟩ := List.mem_map.1 hnames
        obtain ⟨b, hb, tail', -, rfl, -, -⟩ := exists_document_iff.1 ((hrestMem later).1 hlater)
        exact List.cons_lt_cons_iff.2 (.inl (hbefore b hb))
    · intro names
      rw [List.mem_append, hrestMem, exists_document_iff, exists_document_iff, List.exists_mem_cons_iff]
      refine or_congr_left ?_
      rw [List.mem_map]
      constructor
      · rintro ⟨tail, htail, rfl⟩
        obtain ⟨y, hreach, hdocument⟩ := (hmem tail).1 htail
        exact ⟨tail, y, rfl, hreach, by rwa [p.child_below] at hdocument⟩
      · rintro ⟨tail, y, rfl, hreach, hdocument⟩
        exact ⟨tail, (hmem tail).2 ⟨y, hreach, by rwa [p.child_below]⟩, rfl⟩

/-- A search through a directory comes to what the searches from its entries come to. -/
theorem isExact_directory {es : List (Text × Entry)}
    (hasked : ¬ Disk.maxPathLength < (Utf8.encode p.toText).length) (hnames : (es.map Prod.fst).Nodup)
    (h : ∀ a ∈ es, IsExact d extension (p.child a.1) a.2 (searchAt d extension (p.child a.1) a.2)) :
    IsExact d extension p (.directory true es) (ofEntry d extension p (.directory true es)) where
  ok_iff := by
    rw [ofEntry_directory, ok_foldr_iff]
    simp only [List.mem_mergeSort]
    constructor
    · intro hok names y hreach
      cases hreach with
      | stop =>
        rw [p.below_nil]
        rintro (hlong | ⟨⟨_, hlink⟩, -⟩)
        · exact hasked hlong
        · cases hlink
      | @down _ name a _ names hmem hreach =>
        have hbelow := (h _ hmem).ok_iff.1 (hok _ hmem) names y hreach
        rwa [p.child_below] at hbelow
    · intro hnone a ha
      refine (h a ha).ok_iff.2 fun names y hreach => ?_
      rw [p.child_below]
      exact hnone (a.1 :: names) y (.down ha hreach)
  listing := by
    intro found hfound
    rw [ofEntry_directory] at hfound
    obtain ⟨each, heach, hdocs⟩ := documents_foldr hfound
    have hlistings : List.Forall₂ (fun a docs => IsListing d extension (p.child a.1) a.2 docs)
        (es.mergeSort fun x y => Text.le x.1 y.1) each := by
      have hmem := (List.forall₂_and_left (p := fun a => a ∈ es) _ each).2
        ⟨fun a ha => List.mem_mergeSort.1 ha, heach⟩
      refine hmem.imp ?_
      rintro a docs ⟨ha, f, hf, rfl⟩
      exact (h a ha).listing f hf
    obtain ⟨ways, hways, hsorted, hiff⟩ := isListing_directory
      (Text.pairwise_mergeSort_of_nodup Prod.fst hnames) hlistings
    refine ⟨ways, hdocs.trans hways, hsorted, fun names => ?_⟩
    rw [hiff, exists_document_iff, exists_document_iff]
    simp only [List.mem_mergeSort]

-- ---------------------------------------------------------------------------
-- Searches from entries
-- ---------------------------------------------------------------------------

theorem isExact_file (hasked : ¬ Disk.maxPathLength < (Utf8.encode p.toText).length) (bytes : Bytes) :
    IsExact d extension p (.file bytes) (ofEntry d extension p (.file bytes)) := by
  refine .of_leaf (by nofun) ?_ _ ⟨?_, ?_⟩ []
  · rintro (hlong | ⟨⟨_, h⟩, -⟩)
    · exact hasked hlong
    · cases h
  · exact fun hname => ⟨hname, .inl ⟨bytes, rfl⟩⟩
  · exact fun hdocument => hdocument.1

/-- From an entry that is neither file nor link, and has nothing below it, nothing is found. -/
theorem isExact_none (hasked : ¬ Disk.maxPathLength < (Utf8.encode p.toText).length)
    (hleaf : ∀ es, e ≠ .directory true es) (hfile : ∀ bytes, e ≠ .file bytes) (hlink : ∀ target, e ≠ .link target)
    (log : List Log.Entry) : IsExact d extension p e (.ok ⟨[], log⟩) := by
  refine .of_leaf hleaf ?_ false ⟨nofun, ?_⟩ log
  · rintro (hlong | ⟨⟨target, h⟩, -⟩)
    · exact hasked hlong
    · exact hlink target h
  · rintro ⟨-, ⟨bytes, h⟩ | ⟨⟨target, h⟩, -⟩⟩
    · exact absurd h (hfile bytes)
    · exact absurd h (hlink target)

/-- What a path leads to is not both a directory and a file. -/
theorem exists_answers {entry : Option Entry} (h : d.status p = .ok entry) :
    ∃ isDirectory isFile, d.isDirectory p = .ok isDirectory ∧ d.isFile p = .ok isFile
      ∧ (isDirectory = true → isFile = false) := by
  unfold Disk.isDirectory Disk.isFile
  rw [h]
  refine ⟨_, _, rfl, rfl, ?_⟩
  rcases entry with _ | ⟨_ | _ | _ | _⟩ <;> simp

theorem isExact_link (hasked : ¬ Disk.maxPathLength < (Utf8.encode p.toText).length) (target : Text) :
    IsExact d extension p (.link target) (ofLink d extension p) := by
  cases hstatus : d.status p with
  | error fault =>
    have hdirectory : d.isDirectory p = .error fault := by rw [Disk.isDirectory, hstatus, Except.map]
    have hsearch : ofLink d extension p = .error fault := by rw [ofLink, hdirectory]
    rw [hsearch]
    exact .of_isRefused (.inr ⟨⟨target, rfl⟩, fault, hstatus⟩) fault
  | ok entry =>
    have hfollowed : ¬ IsRefused d p (.link target) := by
      rintro (hlong | ⟨-, fault, hfault⟩)
      · exact hasked hlong
      · rw [hstatus] at hfault
        cases hfault
    have hdocument : IsDocument d extension p (.link target)
        ↔ p.name.endsWith extension = true ∧ d.isFile p = .ok true := by
      refine and_congr_right fun _ => ⟨?_, fun h => .inr ⟨⟨target, rfl⟩, h⟩⟩
      rintro (⟨_, h⟩ | ⟨-, h⟩)
      · cases h
      · exact h
    obtain ⟨isDirectory, isFile, hdirectory, hfile, hnotBoth⟩ := exists_answers hstatus
    cases isDirectory with
    | true =>
      obtain ⟨log, hsearch⟩ : ∃ log, ofLink d extension p = .ok ⟨[], log⟩ := by
        rw [ofLink, hdirectory, hfile]
        exact ⟨_, rfl⟩
      rw [hsearch]
      refine .of_leaf (by nofun) hfollowed false ⟨nofun, fun h => ?_⟩ log
      have hboth := (hdocument.1 h).2
      rw [hfile, hnotBoth rfl] at hboth
      cases hboth
    | false =>
      have hsearch : ofLink d extension p = .ok ⟨if isFile && p.name.endsWith extension then [p] else [], []⟩ := by
        rw [ofLink, hdirectory, hfile]
      rw [hsearch]
      refine .of_leaf (by nofun) hfollowed _ ?_ []
      rw [hdocument, hfile, Except.ok.injEq, Bool.and_eq_true, and_comm]

mutual
/-- A search from an entry fails just if something refused is reached, and lists the documents otherwise. -/
theorem isExact_searchAt (d : Disk) (extension : Text) : (e : Entry) → (p : Path) → e.hasDistinctNames = true →
    IsExact d extension p e (searchAt d extension p e)
  | .file bytes, _, _ => .asking fun hasked => isExact_file hasked bytes
  | .directory true es, p, h => .asking fun hasked =>
    isExact_directory hasked (Entry.hasDistinctNames_directory_iff.1 h).1
      (isExact_searchAts d extension es p (Entry.hasDistinctNames_directory_iff.1 h).2)
  | .directory false _, _, _ => .asking fun hasked => isExact_none hasked (by nofun) (by nofun) (by nofun) _
  | .link target, _, _ => .asking fun hasked => isExact_link hasked target
  | .special, _, _ => .asking fun hasked => isExact_none hasked (by nofun) (by nofun) (by nofun) _

theorem isExact_searchAts (d : Disk) (extension : Text) : (es : List (Text × Entry)) → (dir : Path) →
    (∀ a ∈ es, a.2.hasDistinctNames = true) →
    ∀ a ∈ es, IsExact d extension (dir.child a.1) a.2 (searchAt d extension (dir.child a.1) a.2)
  | [], _, _ => nofun
  | (name, e) :: es, dir, h => by
    rw [List.forall_mem_cons] at h ⊢
    exact ⟨isExact_searchAt d extension e (dir.child name) h.1, isExact_searchAts d extension es dir h.2⟩
end

-- ---------------------------------------------------------------------------
-- Roots
-- ---------------------------------------------------------------------------

/-- The disk refuses to be asked about a root, or about something that is reached from it. -/
def IsRefusedBelow (d : Disk) (root : Path) : Prop :=
  (∃ fault, d.status root = .error fault)
    ∨ ∃ readable es names e, d.status root = .ok (some (.directory readable es))
      ∧ (Entry.directory readable es).Reaches names e ∧ IsRefused d (root.below names) e

/-- What is found below a root: the documents reached from it if it is a directory, and nothing otherwise. -/
structure IsFoundBelow (d : Disk) (extension : Text) (root : Path) (docs : List Path) : Prop where
  directory : ∀ readable es, d.status root = .ok (some (.directory readable es)) →
    IsListing d extension root (.directory readable es) docs
  other : (∀ readable es, d.status root ≠ .ok (some (.directory readable es))) → docs = []

theorem IsFoundBelow.nodup {root : Path} (h : IsFoundBelow d extension root docs) : docs.Nodup := by
  by_cases hdirectory : ∃ readable es, d.status root = .ok (some (.directory readable es))
  · obtain ⟨readable, es, hstatus⟩ := hdirectory
    exact (h.directory readable es hstatus).nodup
  · rw [h.other fun readable es hstatus => hdirectory ⟨readable, es, hstatus⟩]
    exact List.nodup_nil

theorem ofRoot_exact (hd : d.root.hasDistinctNames = true) (root : Path) :
    ((∃ found, ofRoot d extension root = .ok found) ↔ ¬ IsRefusedBelow d root)
      ∧ ∀ found, ofRoot d extension root = .ok found → IsFoundBelow d extension root found.documents := by
  unfold ofRoot
  split
  · next fault hstatus => exact ⟨iff_of_false (fun ⟨_, h⟩ => nomatch h) fun h => h (.inl ⟨fault, hstatus⟩), nofun⟩
  · next readable es hstatus =>
    obtain ⟨spot, hat⟩ := Disk.exists_at?_of_status hstatus
    have hexact := isExact_searchAt d extension (.directory readable es) root (Entry.hasDistinctNames_of_at? hd hat)
    rw [searchAt, asking, if_neg (Disk.length_le_of_status hstatus)] at hexact
    refine ⟨hexact.ok_iff.trans ⟨?_, ?_⟩, fun found hfound => ⟨?_, ?_⟩⟩
    · rintro hnone (⟨fault, hfault⟩ | ⟨_, _, names, e, hsame, hreach, hrefused⟩)
      · rw [hstatus] at hfault
        cases hfault
      · rw [hstatus] at hsame
        cases hsame
        exact hnone names e hreach hrefused
    · exact fun hasked names e hreach hrefused => hasked (.inr ⟨readable, es, names, e, hstatus, hreach, hrefused⟩)
    · intro _ _ hsame
      rw [hstatus] at hsame
      cases hsame
      exact hexact.listing found hfound
    · exact fun hother => absurd hstatus (hother readable es)
  · next entry hother hstatus =>
    have hnoDirectory : ∀ readable es, d.status root ≠ .ok (some (.directory readable es)) := by
      intro readable es hdirectory
      rw [hstatus] at hdirectory
      exact hother readable es (Except.ok.inj hdirectory)
    refine ⟨iff_of_true ⟨_, rfl⟩ ?_, ?_⟩
    · rintro (⟨fault, hfault⟩ | ⟨readable, es, _, _, hdirectory, -, -⟩)
      · rw [hstatus] at hfault
        cases hfault
      · exact hnoDirectory readable es hdirectory
    · rintro _ ⟨⟩
      exact ⟨fun readable es hdirectory => absurd hdirectory (hnoDirectory readable es), fun _ => rfl⟩

end Discovery
end MdxSafe
