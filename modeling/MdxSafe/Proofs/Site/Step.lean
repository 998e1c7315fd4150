-- SUMMARY: The ways in which a step of entering a repository may go, and that an edit goes all the way or not at all.
import MdxSafe.Proofs.Disk.Directory
import MdxSafe.Proofs.Site.Edit

/-!
# Steps

A step that edits a file reads it, edits the text, and writes it back (`Site.Edited`); the step that makes a folder asks
for it first (`Site.Foldered`). What comes of a step is decided by the disk, and by whether writes fail. If an edit does
not go all the way nothing is written; else the snippets of the step are inserted into its file, and nothing else
changes (`Site.edits_all_or_nothing`).
-/

namespace MdxSafe

namespace Site

open Text (InsertsAll)

variable {s site : Site} {repo t t' m : Text} {step : OnboardingStep} {e : FileEdit} {p : Path} {r : StepResult}
  {d : Disk} {spot : Spot} {failing : Option (Nat × Text)} {edit : Text → Edit}
  {x x' : Except SiteError (StepStatus × Disk)}

-- ---------------------------------------------------------------------------
-- Reading and writing
-- ---------------------------------------------------------------------------

theorem read_eq_nullCharacter_iff {q : Path} : d.read p = .error ⟨.nullCharacter, q⟩ ↔ p.hasNull = true ∧ q = p := by
  have hnull : d.lookup .follow p = .error .nullCharacter ↔ p.hasNull = true := Disk.lookup_eq_nullCharacter_iff
  rw [← hnull, Disk.read_eq]
  cases d.lookup .follow p with
  | error cause => simp [eq_comm]
  | ok found =>
    obtain ⟨_, - | x⟩ := found
    · simp
    · cases x <;> simp

theorem readText_eq_nullCharacter_iff {q : Path} :
    d.readText p = .error (.disk ⟨.nullCharacter, q⟩) ↔ p.hasNull = true ∧ q = p := by
  rw [← read_eq_nullCharacter_iff (d := d)]
  unfold Disk.readText
  cases d.read p with
  | error e => simp
  | ok bytes => cases hdecode : Utf8.decode bytes <;> simp [Except.mapError, hdecode]

/-- A file whose text is read has a spot, where its bytes stand. -/
theorem exists_spot_of_readText (h : d.readText p = .ok t) :
    ∃ spot bytes, d.spot p = .ok spot ∧ d.view spot = some (.file bytes) ∧ Utf8.decode bytes = .ok t := by
  unfold Disk.readText at h
  cases hread : d.read p with
  | error e =>
    rw [hread] at h
    cases h
  | ok bytes =>
    rw [hread] at h
    obtain ⟨spot, hspot, hview⟩ := Disk.read_eq_ok_iff.1 hread
    exact ⟨spot, bytes, hspot, hview, eq_ok_of_mapError h⟩

/-- A file that can be written is written, unless writing fails for another reason. -/
theorem map_disk_write (hspot : s.disk.spot p = .ok spot) (t : Text) :
    (s.write p t).map Site.disk = match s.failing with
      | some (0, message) => .error (.outside message)
      | _ => .ok (s.disk.putFile spot (Utf8.encode t)) := by
  have hwrite : s.disk.writeText p t = .ok (s.disk.putFile spot (Utf8.encode t)) := by
    unfold Disk.writeText
    rw [Disk.write_eq, hspot]
    rfl
  unfold write
  dsimp only
  rw [hwrite]
  cases s.failing with
  | none => rfl
  | some failure =>
    obtain ⟨- | n, message⟩ := failure <;> rfl

-- ---------------------------------------------------------------------------
-- What a step comes to
-- ---------------------------------------------------------------------------

/-- The status of a step, and the disk that it leaves. -/
def came (x : Except SiteError (StepResult × Site)) : Except SiteError (StepStatus × Disk) :=
  x.map fun r => (r.1.status, r.2.disk)

/-- What a step comes to that edits the file of a path. -/
inductive Edited (d : Disk) (failing : Option (Nat × Text)) (p : Path) (edit : Text → Edit) :
    Except SiteError (StepStatus × Disk) → Prop where
  | noPath (h : p.hasNull = true) : Edited d failing p edit (.error (.disk ⟨.nullCharacter, p⟩))
  | unread {e : Disk.ReadError} (hpath : p.hasNull = false) (h : d.readText p = .error e) :
    Edited d failing p edit (.ok (.failed, d))
  | skipped {t m : Text} (hread : d.readText p = .ok t) (h : edit t = .skipped m) :
    Edited d failing p edit (.ok (.skipped, d))
  | failed {t m : Text} (hread : d.readText p = .ok t) (h : edit t = .failed m) :
    Edited d failing p edit (.ok (.failed, d))
  | unwritten {t t' m message : Text} (hread : d.readText p = .ok t) (h : edit t = .applied t' m)
    (hfailing : failing = some (0, message)) : Edited d failing p edit (.ok (.failed, d))
  | applied {t t' m : Text} {spot : Spot} (hread : d.readText p = .ok t) (h : edit t = .applied t' m)
    (hspot : d.spot p = .ok spot) (hfailing : ∀ message, failing ≠ some (0, message)) :
    Edited d failing p edit (.ok (.applied, d.putFile spot (Utf8.encode t')))

/-- What a step comes to that makes the directory of a path. -/
inductive Foldered (d : Disk) (p : Path) : Except SiteError (StepStatus × Disk) → Prop where
  | refused {e : DiskError} (h : d.isDirectory p = .error e) : Foldered d p (.ok (.failed, d))
  | there (h : d.isDirectory p = .ok true) : Foldered d p (.ok (.skipped, d))
  | made {d' : Disk} (h : d.isDirectory p = .ok false) (hmade : d.ensureDirectories p = (d', none)) :
    Foldered d p (.ok (.applied, d'))
  | unmade {d' : Disk} {e : DiskError} (h : d.isDirectory p = .ok false) (hmade : d.ensureDirectories p = (d', some e))
    (he : e.isRefusal = true) : Foldered d p (.ok (.failed, d'))
  | noPath {d' : Disk} {e : DiskError} (h : d.isDirectory p = .ok false) (hmade : d.ensureDirectories p = (d', some e))
    (he : e.isRefusal = false) : Foldered d p (.error (.disk e))

/-- A refusal makes a step fail, and leaves the disk. -/
def refused (d : Disk) (x : Except SiteError (StepStatus × Disk)) : Except SiteError (StepStatus × Disk) :=
  match x with
  | .ok y => .ok y
  | .error e => if e.isRefusal then .ok (.failed, d) else .error e

theorem came_guarded (s : Site) (repo : Text) (step : OnboardingStep) :
    came (s.guarded repo step) = refused s.disk (came (s.perform repo step)) := by
  unfold guarded
  cases s.perform repo step with
  | error e =>
    show came (if e.isRefusal then _ else _) = if e.isRefusal then _ else _
    cases e.isRefusal <;> rfl
  | ok y => rfl

theorem perform_eq_edit (he : step.fileEdit? s.settings repo = some e) :
    ∃ wrote : Site → Site, s.perform repo step = s.edit step e.file e.edit wrote
      ∧ ∀ site, (wrote site).disk = site.disk ∧ (wrote site).settings = site.settings ∧ (wrote site).failing = site.failing := by
  cases step with
  | docsFolder => cases he
  | workflow =>
    cases he
    exact ⟨_, rfl, fun _ => ⟨rfl, rfl, rfl⟩⟩
  | sidebars =>
    cases he
    exact ⟨_, rfl, fun _ => ⟨rfl, rfl, rfl⟩⟩
  | navbar =>
    cases he
    exact ⟨_, rfl, fun _ => ⟨rfl, rfl, rfl⟩⟩

/-- A step that edits a file goes one of the ways in which an edit may go. -/
theorem edited_guarded (he : step.fileEdit? s.settings repo = some e) :
    Edited s.disk s.failing (s.path e.file) e.edit (came (s.guarded repo step)) := by
  obtain ⟨wrote, hperform, hwrote⟩ := perform_eq_edit he
  rw [came_guarded, hperform]
  unfold Site.edit
  dsimp only
  split
  · next hread =>
    obtain ⟨hnull, rfl⟩ := readText_eq_nullCharacter_iff.1 hread
    exact .noPath hnull
  · next hcause hread =>
    refine .unread (Bool.eq_false_iff.2 fun hnull => ?_) hread
    exact hcause _ (Except.error.inj (hread.symm.trans (readText_eq_nullCharacter_iff.2 ⟨hnull, rfl⟩)))
  · next t hread =>
    split
    · next hedit => exact .skipped hread hedit
    · next hedit => exact .failed hread hedit
    · next t' m hedit =>
      obtain ⟨spot, bytes, hspot, hview, -⟩ := exists_spot_of_readText hread
      have hdisk := map_disk_write hspot t'
      cases hwrite : s.write (s.path e.file) t' with
      | error cause =>
        rw [hwrite] at hdisk
        split at hdisk
        · next message hfailing =>
          cases hdisk
          exact .unwritten hread hedit hfailing
        · cases hdisk
      | ok site =>
        rw [hwrite] at hdisk
        split at hdisk
        · cases hdisk
        · next hfailing =>
          have hsite : (wrote site).disk = s.disk.putFile spot (Utf8.encode t') :=
            (hwrote site).1.trans (Except.ok.inj hdisk)
          show Edited _ _ _ _ (.ok (.applied, (wrote site).disk))
          rw [hsite]
          exact .applied hread hedit hspot hfailing

/-- The path of the folder of the documents of a repository. -/
def docsPath (s : Site) (repo : Text) : Path := (s.path s.settings.docsDir).join (.ofText repo)

theorem foldered_guarded (s : Site) (repo : Text) :
    Foldered s.disk (s.docsPath repo) (came (s.guarded repo .docsFolder)) := by
  rw [came_guarded]
  show Foldered s.disk (s.docsPath repo) (refused s.disk (came (s.createDocsFolder repo)))
  unfold createDocsFolder
  dsimp only
  rw [← docsPath]
  split
  · next e hdir =>
    have he : (SiteError.disk e).isRefusal = true := Disk.isRefusal_of_isDirectory hdir
    show Foldered s.disk _ (if (SiteError.disk e).isRefusal then _ else _)
    rw [if_pos he]
    exact .refused hdir
  · next hdir => exact .there hdir
  · next hdir =>
    split
    · next hmade => exact .made hdir hmade
    · next d' e hmade =>
      cases he : e.isRefusal with
      | true => exact .unmade hdir hmade he
      | false =>
        show Foldered s.disk _ (if (SiteError.disk e).isRefusal then _ else _)
        have hsite : (SiteError.disk e).isRefusal = false := he
        rw [hsite]
        exact .noPath hdir hmade he

/-- What an edit comes to is decided by the disk, and by whether writes fail. -/
theorem Edited.eq (h : Edited d failing p edit x) (h' : Edited d failing p edit x') : x = x' := by
  have hnone : ∀ {t}, d.readText p = .ok t → p.hasNull ≠ true := fun hread hnull =>
    nomatch hread.symm.trans (readText_eq_nullCharacter_iff.2 ⟨hnull, rfl⟩)
  cases h <;> cases h' <;> grind

theorem Foldered.eq (h : Foldered d p x) (h' : Foldered d p x') : x = x' := by
  cases h <;> cases h' <;> grind

theorem write_eq_ok (h : s.write p t = .ok site) :
    site.settings = s.settings ∧ (s.failing = none → site.failing = none) := by
  unfold write at h
  dsimp only at h
  split at h
  · cases h
  · next hfailing =>
    split at h
    · cases h
    · cases h
      exact ⟨rfl, fun hnone => nomatch hfailing.symm.trans hnone⟩
  · split at h
    · cases h
    · cases h
      exact ⟨rfl, fun _ => rfl⟩

theorem perform_eq_ok (h : s.perform repo step = .ok (r, site)) :
    r.step = step ∧ site.settings = s.settings ∧ (s.failing = none → site.failing = none) := by
  cases he : step.fileEdit? s.settings repo with
  | some e =>
    obtain ⟨wrote, hperform, hwrote⟩ := perform_eq_edit he
    rw [hperform] at h
    unfold Site.edit at h
    dsimp only at h
    split at h
    · cases h
    · cases h
      exact ⟨rfl, rfl, id⟩
    · split at h
      · cases h
        exact ⟨rfl, rfl, id⟩
      · cases h
        exact ⟨rfl, rfl, id⟩
      · obtain ⟨written, hwrite, heq⟩ := exists_of_map_eq_ok h
        cases heq
        rw [(hwrote written).2.1, (hwrote written).2.2]
        exact ⟨rfl, write_eq_ok hwrite⟩
  | none =>
    cases step with
    | docsFolder =>
      replace h : s.createDocsFolder repo = .ok (r, site) := h
      unfold createDocsFolder at h
      dsimp only at h
      split at h
      · cases h
      · cases h
        exact ⟨rfl, rfl, id⟩
      · split at h
        · cases h
          exact ⟨rfl, rfl, id⟩
        · split at h
          · cases h
            exact ⟨rfl, rfl, id⟩
          · cases h
    | workflow => cases he
    | sidebars => cases he
    | navbar => cases he

/-- A step that goes on tells its name, and leaves the settings; where no write fails, none fails afterwards. -/
theorem guarded_eq_ok (h : s.guarded repo step = .ok (r, site)) :
    r.step = step ∧ site.settings = s.settings ∧ (s.failing = none → site.failing = none) := by
  unfold guarded at h
  dsimp only at h
  split at h
  · next hperform =>
    cases h
    obtain ⟨hstep, hsettings, hfailing⟩ := perform_eq_ok hperform
    exact ⟨hstep, hsettings, hfailing⟩
  · split at h
    · cases h
      exact ⟨rfl, rfl, id⟩
    · cases h

-- ---------------------------------------------------------------------------
-- All or nothing
-- ---------------------------------------------------------------------------

/-- What an edit of a file leaves: the disk as it was, or the snippets inserted into the file, and all else as it was. -/
def AllOrNothing (d : Disk) (p : Path) (snippets : List Text) (status : StepStatus) (d' : Disk) : Prop :=
  match status with
  | .failed | .skipped => d' = d
  | .applied =>
    ∃ spot bytes old new, d.spot p = .ok spot ∧ d.view spot = some (.file bytes) ∧ Utf8.decode bytes = .ok old
      ∧ InsertsAll snippets old new ∧ d'.view spot = some (.file (Utf8.encode new)) ∧ d'.current = d.current
      ∧ ∀ t, t ≠ spot → d'.view t = d.view t

theorem Edited.allOrNothing (he : step.fileEdit? s.settings repo = some e) {status : StepStatus} {d' : Disk}
    (h : Edited d failing p e.edit (.ok (status, d'))) : AllOrNothing d p e.snippets status d' := by
  cases h with
  | unread hpath hread => rfl
  | skipped hread hedit => rfl
  | failed hread hedit => rfl
  | unwritten hread hedit hfailing => rfl
  | applied hread hedit hspot hfailing =>
    obtain ⟨spot, bytes, hspot', hview, hdecode⟩ := exists_spot_of_readText hread
    cases hspot.symm.trans hspot'
    have htakes := Disk.takes_of_spot hspot
    exact ⟨_, bytes, _, _, hspot, hview, hdecode, FileEdit.insertsAll_of_applied he hedit,
      Disk.view_putFile_self htakes _, rfl, fun t ht => Disk.view_putFile_of_ne htakes _ ht⟩

theorem Edited.exists_ok (h : Edited d failing p edit x) (hpath : p.hasNull = false) : ∃ status d', x = .ok (status, d') := by
  cases h with
  | noPath hnull => rw [hnull] at hpath; cases hpath
  | _ => exact ⟨_, _, rfl⟩

/-- An edit of a file whose path is one goes all the way or not at all, and if the workflow fails nothing at all is
done to the site. -/
theorem edits_all_or_nothing (s : Site) (repo : Text) (step : OnboardingStep) (e : FileEdit)
    (he : step.fileEdit? s.settings repo = some e) (hpath : (s.path e.file).hasNull = false) :
    ∃ r site, s.guarded repo step = .ok (r, site) ∧ r.step = step
      ∧ AllOrNothing s.disk (s.path e.file) e.snippets r.status site.disk
      ∧ (step = .workflow → r.status = .failed → ∀ value, RepoName.ofText value = repo →
          (s.onboard value).site.disk = s.disk) := by
  have hedited := edited_guarded (s := s) he
  cases hguarded : s.guarded repo step with
  | error cause =>
    rw [hguarded] at hedited
    obtain ⟨status, d', hcame⟩ := hedited.exists_ok hpath
    cases hcame
  | ok y =>
    obtain ⟨r, site⟩ := y
    rw [hguarded] at hedited
    have hall : AllOrNothing s.disk (s.path e.file) e.snippets r.status site.disk := Edited.allOrNothing he hedited
    refine ⟨r, site, rfl, (guarded_eq_ok hguarded).1, hall, ?_⟩
    rintro rfl hfailed value rfl
    rw [hfailed] at hall
    unfold onboard
    split
    · rfl
    · have hok : r.ok = false := by
        unfold StepResult.ok
        rw [hfailed]
        rfl
      unfold doing
      rw [hguarded]
      dsimp only
      rw [hok]
      exact hall

theorem edits_all_or_nothing_sidebars :
    let s : Site :=
      { disk := { root := .directory true [("sidebars.ts", .file "s = \x7b\n\x7d;\nexport default sidebars;\n".toUTF8.toList)] } }
    let e : FileEdit := ⟨"sidebars.ts", Edit.sidebars s.settings "app", [Snippet.sidebar "app" ++ ['\n']]⟩
    OnboardingStep.sidebars.fileEdit? s.settings "app" = some e ∧ (s.path e.file).hasNull = false
      ∧ ∃ r site, s.guarded "app" .sidebars = .ok (r, site) ∧ r.step = .sidebars
          ∧ AllOrNothing s.disk (s.path e.file) e.snippets r.status site.disk
          ∧ (OnboardingStep.sidebars = .workflow → r.status = .failed → ∀ value, RepoName.ofText value = "app" →
              (s.onboard value).site.disk = s.disk) :=
  ⟨rfl, by decide +kernel, edits_all_or_nothing _ _ _ _ rfl (by decide +kernel)⟩

/-- An edit whose path is none comes to nothing, not even to a failure. -/
theorem edits_break_off :
    let s : Site := { disk := { root := .directory true [] }, settings := { workflowPath := ['a', '\x00', 'b'] } }
    (s.guarded "app" .workflow).map Prod.fst = .error (.disk ⟨.nullCharacter, ⟨.root, [['a', '\x00', 'b']]⟩⟩) := by
  decide +kernel

end Site
end MdxSafe
