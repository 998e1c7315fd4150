-- SUMMARY: How calls of the command that makes documents safe end: their status, and why some of them break off.
import Mathlib
import MdxSafe.Command.Fix
import MdxSafe.Config.Load
import MdxSafe.Proofs.Config.Section
import MdxSafe.Proofs.Disk.Reach
import MdxSafe.Proofs.Report.Export

/-!
# How the command ends

A call is refused, fails, breaks off, or ends well. It fails if the configuration cannot be used, if nothing is found, or
if the disk refuses to be searched (`FixRequest.Fails`). It breaks off, without any status, where a section of the
configuration is none, a root directory has no name, or the report cannot be finished (`FixRequest.BreaksOff`). The
status tells which of these it was (`status_fix`).
-/

namespace MdxSafe

-- ---------------------------------------------------------------------------
-- The ways in which a call ends
-- ---------------------------------------------------------------------------

namespace Command
namespace FixRequest

/-- A call gets as far as its search: there are settings for it, and its root directories have names. -/
structure Searches (c : Config) (r : FixRequest) (settings : Settings) (sources : SourceSettings) (names : List Text) :
    Prop where
  rewriting : c.transformer = .ok settings
  finding : c.loader = .ok sources
  named : r.rootNames sources.roots = some names

/-- The run of a call over documents that it found. -/
def ran (d : Disk) (duration : Binary64) (r : FixRequest) (settings : Settings) (found : Run) (paths : List Path) : Run :=
  found.documents { settings, apply := r.apply, backup := r.backup, base := d.currentPath }
    (Report.account ⟨r.apply, r.backup, settings.previewLimit, some d.currentPath⟩) duration paths

/-- A call gets as far as its report: documents were found, and the run over them is done. -/
inductive Reports (d : Disk) (c : Config) (duration : Binary64) (r : FixRequest) : Settings → Run → Prop where
  | mk {settings : Settings} {sources : SourceSettings} {names : List Text} {path : Path} {paths : List Path} {found : Run} :
    Searches c r settings sources names →
    Run.discover sources.extension (Path.resolveRoots names d.currentPath) { disk := d } = .ok (path :: paths, found) →
    Reports d c duration r settings (ran d duration r settings found (path :: paths))

/-- A call fails. -/
inductive Fails (d : Disk) (c : Config) (r : FixRequest) : Prop where
  /-- The settings for rewriting have problems. -/
  | transformer : c.HasProblems "transformer" Settings.ofFields → Fails d c r
  /-- The settings for finding documents have problems. -/
  | loader {settings : Settings} : c.transformer = .ok settings → c.HasProblems "loader" SourceSettings.ofFields →
    Fails d c r
  /-- The disk refuses to be asked about a root directory, or about something below it. -/
  | refused {settings : Settings} {sources : SourceSettings} {names : List Text} {root : Path} :
    Searches c r settings sources names → root ∈ Path.resolveRoots names d.currentPath →
    Discovery.IsRefusedBelow d root → Fails d c r
  /-- There is no document below the root directories. -/
  | nothing {settings : Settings} {sources : SourceSettings} {names : List Text} :
    Searches c r settings sources names →
    (∀ root ∈ Path.resolveRoots names d.currentPath, Discovery.IsFoundBelow d sources.extension root []) → Fails d c r

/-- A call breaks off. -/
inductive BreaksOff (d : Disk) (c : Config) (duration : Binary64) (r : FixRequest) : Prop where
  /-- The settings for rewriting are something else than fields. -/
  | transformer : c.IsNoSection "transformer" → BreaksOff d c duration r
  /-- The settings for finding documents are something else than fields. -/
  | loader {settings : Settings} : c.transformer = .ok settings → c.IsNoSection "loader" → BreaksOff d c duration r
  /-- A root directory was given without a name. -/
  | nameless {settings : Settings} {sources : SourceSettings} : c.transformer = .ok settings → c.loader = .ok sources →
    none ∈ r.roots → BreaksOff d c duration r
  /-- The summary of the run has a number that is too long to be written. -/
  | overlong {settings : Settings} {run : Run} : Reports d c duration r settings run →
    Report.IsOverlong settings.previewLimit run.summary → BreaksOff d c duration r
  /-- The warnings of the run are to be exported to a file that cannot be named. -/
  | unexportable {settings : Settings} {run : Run} {c₀ : Char} {name : Text} : Reports d c duration r settings run →
    r.exportName = some (c₀ :: name) → Report.IsUnexportable run.disk run.summary (c₀ :: name) →
    BreaksOff d c duration r

/-- A status tells whether a call failed or broke off. -/
inductive Tells (fails breaksOff : Prop) : Except Breakdown Nat → Prop where
  | well : ¬ fails → ¬ breaksOff → Tells fails breaksOff (.ok 0)
  | failure : fails → ¬ breaksOff → Tells fails breaksOff (.ok 1)
  | breakdown (b : Breakdown) : ¬ fails → breaksOff → Tells fails breaksOff (.error b)

variable {d : Disk} {c : Config} {duration : Binary64} {r : FixRequest} {settings : Settings} {sources : SourceSettings}
  {names : List Text}

theorem mapM_id_eq_none_iff {xs : List (Option Text)} : xs.mapM id = none ↔ none ∈ xs := by
  induction xs with
  | nil => simp
  | cons x xs ih =>
    rw [List.mapM_cons, List.mem_cons, ← ih]
    cases x with
    | none => simp
    | some t => cases xs.mapM id <;> simp

theorem rootNames_eq_none_iff {configured : List Text} : r.rootNames configured = none ↔ none ∈ r.roots := by
  unfold rootNames
  split
  · next hnil =>
    rw [hnil]
    simp
  · exact mapM_id_eq_none_iff

-- ---------------------------------------------------------------------------
-- Without settings
-- ---------------------------------------------------------------------------

section Settings

variable {e : Config.SettingsError}

theorem fails_iff_of_transformer (h : c.transformer = .error e) :
    Fails d c r ↔ c.HasProblems "transformer" Settings.ofFields := by
  refine ⟨?_, .transformer⟩
  rintro (hbad | ⟨hok, -⟩ | ⟨⟨hok, -, -⟩, -, -⟩ | ⟨⟨hok, -, -⟩, -⟩)
  · exact hbad
  all_goals cases h.symm.trans hok

theorem breaksOff_iff_of_transformer (h : c.transformer = .error e) :
    BreaksOff d c duration r ↔ c.IsNoSection "transformer" := by
  refine ⟨?_, .transformer⟩
  rintro (hnone | ⟨hok, -⟩ | ⟨hok, -, -⟩ | ⟨⟨⟨hok, -, -⟩, -⟩, -⟩ | ⟨⟨⟨hok, -, -⟩, -⟩, -, -⟩)
  · exact hnone
  all_goals cases h.symm.trans hok

theorem fails_iff_of_loader (htransformer : c.transformer = .ok settings)
    (hgood : ¬ c.HasProblems "transformer" Settings.ofFields) (h : c.loader = .error e) :
    Fails d c r ↔ c.HasProblems "loader" SourceSettings.ofFields := by
  refine ⟨?_, .loader htransformer⟩
  rintro (hbad | ⟨-, hbad⟩ | ⟨⟨-, hok, -⟩, -, -⟩ | ⟨⟨-, hok, -⟩, -⟩)
  · exact absurd hbad hgood
  · exact hbad
  all_goals cases h.symm.trans hok

theorem breaksOff_iff_of_loader (htransformer : c.transformer = .ok settings) (hsection : ¬ c.IsNoSection "transformer")
    (h : c.loader = .error e) : BreaksOff d c duration r ↔ c.IsNoSection "loader" := by
  refine ⟨?_, .loader htransformer⟩
  rintro (hnone | ⟨-, hnone⟩ | ⟨-, hok, -⟩ | ⟨⟨⟨-, hok, -⟩, -⟩, -⟩ | ⟨⟨⟨-, hok, -⟩, -⟩, -, -⟩)
  · exact absurd hnone hsection
  · exact hnone
  all_goals cases h.symm.trans hok

end Settings

-- ---------------------------------------------------------------------------
-- With settings
-- ---------------------------------------------------------------------------

/-- The configuration can be used. -/
structure Usable (c : Config) (settings : Settings) (sources : SourceSettings) : Prop where
  rewriting : c.transformer = .ok settings
  finding : c.loader = .ok sources
  noProblems : ¬ c.HasProblems "transformer" Settings.ofFields ∧ ¬ c.HasProblems "loader" SourceSettings.ofFields
  sections : ¬ c.IsNoSection "transformer" ∧ ¬ c.IsNoSection "loader"

theorem Searches.eq {settings' : Settings} {sources' : SourceSettings} {names' : List Text}
    (h : Searches c r settings sources names) (h' : Searches c r settings' sources' names') :
    settings' = settings ∧ sources' = sources ∧ names' = names := by
  obtain ⟨hsettings, hsources, hnames⟩ := h
  obtain ⟨hsettings', hsources', hnames'⟩ := h'
  cases hsettings.symm.trans hsettings'
  cases hsources.symm.trans hsources'
  cases hnames.symm.trans hnames'
  exact ⟨rfl, rfl, rfl⟩

/-- Under a configuration that can be used, a call does not fail before its root directories are named. -/
theorem Usable.not_fails (hc : Usable c settings sources) (h : r.rootNames sources.roots = none) : ¬ Fails d c r := by
  rintro (hbad | ⟨-, hbad⟩ | ⟨⟨-, hloader, hnamed⟩, -, -⟩ | ⟨⟨-, hloader, hnamed⟩, -⟩)
  · exact hc.noProblems.1 hbad
  · exact hc.noProblems.2 hbad
  all_goals
    cases hc.finding.symm.trans hloader
    cases h.symm.trans hnamed

/-- Under a configuration that can be used, a call fails only in its search. -/
theorem Usable.fails_iff (hc : Usable c settings sources) (h : Searches c r settings sources names) :
    Fails d c r ↔ (∃ root ∈ Path.resolveRoots names d.currentPath, Discovery.IsRefusedBelow d root)
      ∨ ∀ root ∈ Path.resolveRoots names d.currentPath, Discovery.IsFoundBelow d sources.extension root [] := by
  constructor
  · rintro (hbad | ⟨-, hbad⟩ | ⟨h', hroot, hrefused⟩ | ⟨h', hnothing⟩)
    · exact absurd hbad hc.noProblems.1
    · exact absurd hbad hc.noProblems.2
    · obtain ⟨rfl, rfl, rfl⟩ := h.eq h'
      exact .inl ⟨_, hroot, hrefused⟩
    · obtain ⟨rfl, rfl, rfl⟩ := h.eq h'
      exact .inr hnothing
  · rintro (⟨root, hroot, hrefused⟩ | hnothing)
    · exact .refused h hroot hrefused
    · exact .nothing h hnothing

/-- Under a configuration that can be used, a call whose root directories have names breaks off only in its report. -/
theorem Usable.breaksOff_iff (hc : Usable c settings sources) (h : Searches c r settings sources names) :
    BreaksOff d c duration r ↔ ∃ run, Reports d c duration r settings run
      ∧ (Report.IsOverlong settings.previewLimit run.summary
        ∨ ∃ c₀ name, r.exportName = some (c₀ :: name) ∧ Report.IsUnexportable run.disk run.summary (c₀ :: name)) := by
  constructor
  · rintro (hnone | ⟨-, hnone⟩ | ⟨-, hok, hroot⟩ | ⟨hreports, hlong⟩ | ⟨hreports, hname, hexport⟩)
    · exact absurd hnone hc.sections.1
    · exact absurd hnone hc.sections.2
    · cases (rootNames_eq_none_iff.2 hroot).symm.trans h.named
    · obtain ⟨h', hfound⟩ := hreports
      obtain ⟨rfl, -, -⟩ := h.eq h'
      exact ⟨_, ⟨h', hfound⟩, .inl hlong⟩
    · obtain ⟨h', hfound⟩ := hreports
      obtain ⟨rfl, -, -⟩ := h.eq h'
      exact ⟨_, ⟨h', hfound⟩, .inr ⟨_, _, hname, hexport⟩⟩
  · rintro ⟨run, hreports, hlong | ⟨c₀, name, hname, hexport⟩⟩
    · exact .overlong hreports hlong
    · exact .unexportable hreports hname hexport

end FixRequest
end Command

-- ---------------------------------------------------------------------------
-- Searching
-- ---------------------------------------------------------------------------

namespace Discovery

variable {d : Disk} {extension : Text} {root : Path} {roots : List Path} {docs : List Path}

theorem IsListing.eq_nil {p : Path} {e : Entry} (h : IsListing d extension p e docs)
    (hnil : IsListing d extension p e []) : docs = [] := by
  obtain ⟨ways, rfl, -, hways⟩ := h
  obtain ⟨none, hnone, -, hmem⟩ := hnil
  rw [List.map_eq_nil_iff, List.eq_nil_iff_forall_not_mem]
  intro names hnames
  have hin : names ∈ none := (hmem names).2 ((hways names).1 hnames)
  rw [List.map_eq_nil_iff.1 hnone.symm] at hin
  cases hin

theorem IsFoundBelow.eq_nil_iff (h : IsFoundBelow d extension root docs) :
    docs = [] ↔ IsFoundBelow d extension root [] := by
  constructor
  · rintro rfl
    exact h
  · intro hnil
    by_cases hdirectory : ∃ readable es, d.status root = .ok (some (.directory readable es))
    · obtain ⟨readable, es, hstatus⟩ := hdirectory
      exact (h.directory readable es hstatus).eq_nil (hnil.directory readable es hstatus)
    · exact h.other fun readable es hstatus => hdirectory ⟨readable, es, hstatus⟩

theorem flatten_eq_nil_iff {each : List (List Path)} (h : List.Forall₂ (IsFoundBelow d extension) roots each) :
    each.flatten = [] ↔ ∀ root ∈ roots, IsFoundBelow d extension root [] := by
  induction h with
  | nil => simp
  | cons hroot _ ih => rw [List.flatten_cons, List.append_eq_nil_iff, List.forall_mem_cons, hroot.eq_nil_iff, ih]

/-- What was found below roots is nothing just if there is no document below any of them. -/
theorem documents_eq_nil_iff (hd : d.root.hasDistinctNames = true) {found : Found}
    (h : ofRoots d extension roots = .ok found) :
    found.documents = [] ↔ ∀ root ∈ roots, IsFoundBelow d extension root [] := by
  obtain ⟨each, heach, hdocs⟩ := documents_foldr h
  have hbelow : List.Forall₂ (IsFoundBelow d extension) roots each := by
    refine heach.imp ?_
    rintro root docs ⟨f, hf, rfl⟩
    exact (ofRoot_exact hd root).2 f hf
  rw [hdocs, flatten_eq_nil_iff hbelow]

theorem ok_ofRoots_iff (hd : d.root.hasDistinctNames = true) (extension : Text) (roots : List Path) :
    (∃ found, ofRoots d extension roots = .ok found) ↔ ∀ root ∈ roots, ¬ IsRefusedBelow d root := by
  rw [ofRoots, ok_foldr_iff]
  exact forall₂_congr fun root _ => (ofRoot_exact hd root).1

/-- The search of a run is refused, or tells whether there is any document. -/
theorem discover_cases (hd : d.root.hasDistinctNames = true) (extension : Text) (roots : List Path) :
    (∃ e, Run.discover extension roots { disk := d } = .error e ∧ ∃ root ∈ roots, IsRefusedBelow d root)
      ∨ ∃ paths found, Run.discover extension roots { disk := d } = .ok (paths, found)
        ∧ (∀ root ∈ roots, ¬ IsRefusedBelow d root)
        ∧ (paths = [] ↔ ∀ root ∈ roots, IsFoundBelow d extension root []) := by
  unfold Run.discover run
  have hok := ok_ofRoots_iff hd extension roots
  dsimp only [Run.enter]
  cases hsearch : ofRoots d extension roots with
  | error e =>
    rw [hsearch] at hok
    refine .inl ⟨e, rfl, ?_⟩
    by_contra hnone
    obtain ⟨_, h⟩ := hok.2 fun root hroot hrefused => hnone ⟨root, hroot, hrefused⟩
    cases h
  | ok found =>
    refine .inr ⟨_, _, rfl, hok.1 ⟨found, hsearch⟩, ?_⟩
    rw [← documents_eq_nil_iff hd hsearch]
    exact Eq.congr_left (List.append_nil _)

end Discovery

-- ---------------------------------------------------------------------------
-- Statuses
-- ---------------------------------------------------------------------------

namespace Command

theorem Outcome.status_traced (o : Outcome) (s : Log.Setup) : (o.traced s).status = o.status := by
  unfold traced
  split <;> rfl

namespace FixRequest

variable {d : Disk} {c : Config} {duration : Binary64} {r : FixRequest} {settings : Settings} {sources : SourceSettings}
  {names : List Text}

theorem Searches.not_reports {run : Run} (h : Searches c r settings sources names)
    (hnone : ∀ found, Run.discover sources.extension (Path.resolveRoots names d.currentPath) { disk := d } = .ok found →
      found.1 = []) :
    ¬ Reports d c duration r settings run := by
  rintro ⟨h', hfound⟩
  obtain ⟨-, rfl, rfl⟩ := h.eq h'
  cases hnone _ hfound

theorem Searches.reports_iff {run found : Run} {path : Path} {paths : List Path} (h : Searches c r settings sources names)
    (hfound : Run.discover sources.extension (Path.resolveRoots names d.currentPath) { disk := d }
      = .ok (path :: paths, found)) :
    Reports d c duration r settings run ↔ run = ran d duration r settings found (path :: paths) := by
  constructor
  · rintro ⟨h', hsame⟩
    obtain ⟨-, rfl, rfl⟩ := h.eq h'
    cases hfound.symm.trans hsame
    rfl
  · rintro rfl
    exact ⟨h, hfound⟩

/-- After a summary that was told, a call breaks off just if the warnings cannot be exported. -/
theorem tells_exported {fails long : Prop} (hfails : ¬ fails) (hshort : ¬ long) (s : Summary) (o : Outcome)
    (ho : o.status = .ok 0) (hdisk : o.disk = d) :
    Tells fails
      (long ∨ ∃ c₀ name, r.exportName = some (c₀ :: name) ∧ Report.IsUnexportable d s (c₀ :: name))
      (r.exported s o).status := by
  subst hdisk
  unfold exported
  rcases hname : r.exportName with _ | _ | ⟨c₀, name⟩
  · exact ho ▸ .well hfails fun h => h.elim hshort fun ⟨_, _, hsame, _⟩ => nomatch hsame
  · exact ho ▸ .well hfails fun h => h.elim hshort fun ⟨_, _, hsame, _⟩ => nomatch hsame
  · have hiff := Report.exists_exportWarnings_error_iff o.disk s (c₀ :: name)
    dsimp only
    cases hexport : Report.exportWarnings o.disk s (c₀ :: name) with
    | error e => exact .breakdown _ hfails (.inr ⟨c₀, name, rfl, hiff.1 ⟨e, hexport⟩⟩)
    | ok x =>
      dsimp only
      rw [ho]
      refine .well hfails fun h => h.elim hshort ?_
      rintro ⟨_, _, ⟨⟩, hnone⟩
      obtain ⟨e, he⟩ := hiff.2 hnone
      rw [hexport] at he
      cases he

theorem tells_runOver (hd : d.root.hasDistinctNames = true) (hc : Usable c settings sources)
    (h : Searches c r settings sources names) :
    Tells (Fails d c r) (BreaksOff d c duration r) (r.runOver d settings sources.extension names duration).status := by
  rw [hc.fails_iff h, hc.breaksOff_iff h]
  unfold runOver
  dsimp only
  obtain ⟨e, hsearch, hrefused⟩ | ⟨paths, found, hsearch, hasked, hnothing⟩ :=
    Discovery.discover_cases hd sources.extension (Path.resolveRoots names d.currentPath)
  · rw [hsearch]
    refine .failure (.inl hrefused) ?_
    rintro ⟨run, hreports, -⟩
    refine h.not_reports (fun found hfound => ?_) hreports
    cases hsearch.symm.trans hfound
  cases paths with
  | nil =>
    rw [hsearch]
    refine .failure (.inr (hnothing.1 rfl)) ?_
    rintro ⟨run, hreports, -⟩
    refine h.not_reports (fun found hfound => ?_) hreports
    cases hsearch.symm.trans hfound
    rfl
  | cons path paths =>
    have hfails : ¬ ((∃ root ∈ Path.resolveRoots names d.currentPath, Discovery.IsRefusedBelow d root)
        ∨ ∀ root ∈ Path.resolveRoots names d.currentPath, Discovery.IsFoundBelow d sources.extension root []) := by
      rintro (⟨root, hroot, hrefused⟩ | hnone)
      · exact hasked root hroot hrefused
      · cases hnothing.2 hnone
    simp only [h.reports_iff hsearch, exists_eq_left]
    rw [hsearch]
    have hlong := Report.exists_summary_error_iff ⟨r.apply, r.backup, settings.previewLimit, some d.currentPath⟩
      (ran d duration r settings found (path :: paths)).summary
    dsimp only
    rw [← ran]
    cases hsummary : (Report.summary ⟨r.apply, r.backup, settings.previewLimit, some d.currentPath⟩
        (ran d duration r settings found (path :: paths)).summary).2 with
    | some e => exact .breakdown _ hfails (.inl (hlong.1 ⟨e, hsummary⟩))
    | none =>
      dsimp only
      refine tells_exported hfails ?_ _ _ rfl rfl
      rw [← hlong, hsummary]
      exact fun ⟨_, h⟩ => nomatch h

/-- A call does without settings only where it ends. -/
theorem perform_eq (d : Disk) (c : Config) (duration : Binary64) (r : FixRequest) :
    r.perform d c duration
      = match needed d c.transformer, needed d c.loader with
        | .error o, _ | .ok _, .error o => .error o
        | .ok settings, .ok sources =>
          match r.rootNames sources.roots with
          | none => .error { status := .error .namelessRoot, disk := d }
          | some names => .ok (r.runOver d settings sources.extension names duration) := by
  unfold perform
  cases needed d c.transformer with
  | error o => rfl
  | ok settings => cases needed d c.loader <;> rfl

/-- The status of a call tells whether it failed or broke off. -/
theorem tells_perform (hd : d.root.hasDistinctNames = true) (c : Config) (duration : Binary64) (r : FixRequest) :
    Tells (Fails d c r) (BreaksOff d c duration r) (Outcome.ofEither (r.perform d c duration)).status := by
  rw [perform_eq]
  obtain ⟨hnone, typeName, herror⟩ | ⟨hbad, problems, herror⟩ | ⟨hsection, hgood, settings, htransformer⟩ :=
    c.settings_cases "transformer" "transformer.model." "TransformerSettings" Settings.ofFields
  · rw [fails_iff_of_transformer herror, breaksOff_iff_of_transformer herror, Config.transformer, herror]
    exact .breakdown _ (fun h => h.1 hnone) hnone
  · rw [fails_iff_of_transformer herror, breaksOff_iff_of_transformer herror, Config.transformer, herror]
    exact .failure hbad hbad.1
  obtain ⟨hnone, typeName, herror⟩ | ⟨hbad, problems, herror⟩ | ⟨hsection', hgood', sources, hloader⟩ :=
    c.settings_cases "loader" "loader.model." "LoaderSettings" SourceSettings.ofFields
  · rw [fails_iff_of_loader htransformer hgood herror, breaksOff_iff_of_loader htransformer hsection herror,
      Config.transformer, htransformer, Config.loader, herror]
    exact .breakdown _ (fun h => h.1 hnone) hnone
  · rw [fails_iff_of_loader htransformer hgood herror, breaksOff_iff_of_loader htransformer hsection herror,
      Config.transformer, htransformer, Config.loader, herror]
    exact .failure hbad hbad.1
  · have hc : Usable c settings sources := ⟨htransformer, hloader, ⟨hgood, hgood'⟩, hsection, hsection'⟩
    rw [Config.transformer, htransformer, Config.loader, hloader]
    dsimp only [needed]
    cases hnames : r.rootNames sources.roots with
    | none => exact .breakdown _ (hc.not_fails hnames) (.nameless htransformer hloader (rootNames_eq_none_iff.1 hnames))
    | some names => exact tells_runOver hd hc ⟨htransformer, hloader, hnames⟩

end FixRequest

/-- The status of the command: 2 if its arguments are refused, 1 if the call fails, none if it breaks off, and 0
otherwise. -/
theorem status_fix {d : Disk} (hd : d.root.hasDistinctNames = true) (c : Config) (duration : Binary64) (as : List Text) :
    let status := (fix d c duration as).status
    (status = .ok 2 ↔ ∃ e, FixRequest.ofArguments as = .error e)
      ∧ (status = .ok 1 ↔ ∃ r, FixRequest.ofArguments as = .ok r ∧ r.help = false ∧ FixRequest.Fails d c r)
      ∧ ((∃ b, status = .error b)
        ↔ ∃ r, FixRequest.ofArguments as = .ok r ∧ r.help = false ∧ FixRequest.BreaksOff d c duration r)
      ∧ (status = .ok 0 ↔ ∃ r, FixRequest.ofArguments as = .ok r
        ∧ (r.help = true ∨ ¬ FixRequest.Fails d c r ∧ ¬ FixRequest.BreaksOff d c duration r)) := by
  unfold fix
  cases FixRequest.ofArguments as with
  | error e => simp
  | ok r =>
    dsimp only
    cases hhelp : r.help with
    | true => simp [hhelp]
    | false =>
      have htells := FixRequest.tells_perform hd c duration r
      simp only [Bool.false_eq_true, if_false, Outcome.status_traced]
      generalize (Outcome.ofEither (r.perform d c duration)).status = status at htells
      cases htells with
      | well hfails hbreaks => simp [hhelp, hfails, hbreaks]
      | failure hfails hbreaks => simp [hhelp, hfails, hbreaks]
      | breakdown b hfails hbreaks => simp [hhelp, hfails, hbreaks]

/-- Below a directory that is not there nothing is found; one without a name is none. -/
theorem status_fix_sample :
    let d : Disk := ⟨.directory true [("docs".toList, .directory true [("a.md".toList, .file (Utf8.encode "x\n".toList))])],
      []⟩
    d.root.hasDistinctNames = true
      ∧ (∃ r, FixRequest.ofArguments ["--root".toList, "blog".toList] = .ok r ∧ r.help = false
        ∧ FixRequest.Fails d Config.builtIn r)
      ∧ ∃ r, FixRequest.ofArguments ["--root=--".toList] = .ok r ∧ r.help = false
        ∧ FixRequest.BreaksOff d Config.builtIn .zero r := by
  intro d
  have hd : d.root.hasDistinctNames = true := by decide
  have hfailed : (fix d Config.builtIn .zero ["--root".toList, "blog".toList]).status.toOption = some 1 := by
    decide +kernel
  have hnone : (fix d Config.builtIn .zero ["--root=--".toList]).status.toOption = none := by decide +kernel
  exact ⟨hd, (status_fix hd Config.builtIn .zero _).2.1.1 (eq_ok_of_toOption hfailed),
    (status_fix hd Config.builtIn .zero _).2.2.1.1 (exists_error_of_toOption hnone)⟩

/-- An override file with a list in the place of the settings for rewriting makes the command break off. -/
theorem status_fix_noSection :
    let override := "\x7b\"transformer\": [1]\x7d".toList
    let d : Disk := ⟨.directory true [("docs".toList, .directory true [("a.md".toList, .file (Utf8.encode "x\n".toList))]),
      (".mdx-compat.json".toList, .file (Utf8.encode override))], []⟩
    d.root.hasDistinctNames = true
      ∧ ∃ b, (fix d (Config.load d none []).config .zero []).status = .error b := by
  intro override d
  have hnone : (fix d (Config.load d none []).config .zero []).status.toOption = none := by decide +kernel
  exact ⟨by decide, exists_error_of_toOption hnone⟩

end Command
end MdxSafe
