-- SUMMARY: Why the summary of a run cannot be told, and why its warnings cannot be exported.
import Mathlib
import MdxSafe.Proofs.Disk.Beside
import MdxSafe.Report.Export

/-!
# Reports that break off

A summary breaks off just if the number of further warnings is too long to be written
(`Report.exists_summary_error_iff`). An export breaks off just if the file cannot be named, since all that the disk
refuses is told (`Report.exists_exportWarnings_error_iff`).
-/

namespace MdxSafe
namespace Report

variable {style : Style} {s : Summary} {d : Disk} {fileName : Text} {p : Path} {t : Text}

/-- The number of further warnings is too long to be written. -/
def IsOverlong (limit : Int) (s : Summary) : Prop :=
  s.warnings ≠ [] ∧ (10 : Int) ^ Text.maxDigits ≤ s.warnings.length - limit

theorem maxDigits_lt_length_ofInt_iff {i : Int} (h : 0 < i) :
    Text.maxDigits < (Text.ofInt i).length ↔ (10 : Int) ^ Text.maxDigits ≤ i := by
  obtain ⟨n, rfl⟩ := Int.eq_ofNat_of_zero_le h.le
  rw [Text.ofInt, if_neg (by omega), Int.natAbs_natCast, Text.ofNat, ← not_le,
    Nat.length_toDigits_le_iff (by decide) (by decide), not_lt]
  exact_mod_cast Iff.rfl

/-- The number of further warnings is not written just if it is too long. -/
theorem exists_more_error_iff : (∃ e, more style s = .error e) ↔ IsOverlong style.previewLimit s := by
  unfold more remaining IsOverlong
  by_cases hcount : s.warnings ≠ [] ∧ 0 < (s.warnings.length : Int) - style.previewLimit
  · rw [if_pos hcount]
    have hlength := maxDigits_lt_length_ofInt_iff hcount.2
    dsimp only
    split
    · next hlong => exact iff_of_true ⟨_, rfl⟩ ⟨hcount.1, hlength.1 hlong⟩
    · next hshort => exact iff_of_false nofun fun h => hshort (hlength.2 h.2)
  · rw [if_neg hcount]
    refine iff_of_false nofun fun h => hcount ⟨h.1, lt_of_lt_of_le ?_ h.2⟩
    exact Int.pow_pos (by decide)

/-- A summary breaks off just if the number of further warnings is too long. -/
theorem exists_summary_error_iff (style : Style) (s : Summary) :
    (∃ e, (summary style s).2 = some e) ↔ IsOverlong style.previewLimit s := by
  rw [← exists_more_error_iff]
  unfold summary
  cases more style s with
  | error e => exact iff_of_true ⟨e, rfl⟩ ⟨e, rfl⟩
  | ok told => exact iff_of_false (fun ⟨_, h⟩ => nomatch h) fun ⟨_, h⟩ => nomatch h

-- ---------------------------------------------------------------------------
-- Exports
-- ---------------------------------------------------------------------------

/-- The name of a path that has one can be made longer. -/
theorem exists_withName_append (hp : p.isNormal = true) (hname : p.name ≠ []) {ending : Text} (hending : '/' ∉ ending) :
    ∃ q, p.withName (p.name ++ ending) = .ok q := by
  obtain ⟨-, hdot, hslash⟩ := of_decide_eq_true (Path.isPart_name hp hname)
  have hnone : '/' ∉ p.name ++ ending := fun hmem => (List.mem_append.1 hmem).elim hslash hending
  have hparts : Path.partsOf (p.name ++ ending) = [p.name ++ ending] := by
    rw [Path.partsOf, Text.splitOn_of_notMem hnone]
    refine List.filter_eq_self.2 fun part hpart => ?_
    rw [List.mem_singleton.1 hpart, decide_eq_true_eq]
    refine ⟨fun hnil => hname (List.append_eq_nil_iff.1 hnil).1, fun hperiod => ?_⟩
    rcases List.append_eq_singleton_iff.1 hperiod with ⟨hnil, -⟩ | ⟨hsame, -⟩
    · exact hname hnil
    · exact hdot hsame
  have hanchor : Path.anchorOf (p.name ++ ending) = .here := by
    cases ht : p.name ++ ending with
    | nil => rfl
    | cons c t =>
      have hc : c ≠ '/' := fun h => hnone (by rw [ht, h]; exact List.mem_cons_self)
      rw [Path.anchorOf, List.takeWhile_cons_of_neg (by simpa using hc)]
      rfl
  refine ⟨⟨p.anchor, p.parts.dropLast ++ [p.name ++ ending]⟩, ?_⟩
  rw [Path.withName, if_neg hname, if_neg]
  rintro (hlast | hother | hlength)
  · exact hnone (List.mem_of_getLast? hlast)
  · exact hother hanchor
  · exact hlength (by rw [hparts]; rfl)

theorem suffix_of_unnamed (h : p.name = []) : p.suffix = [] := by
  rw [Path.suffix, h]
  rfl

/-- A file name gives no place for a table just if it has no last part. -/
theorem exists_exportPath_error_iff :
    (∃ e, exportPath fileName = .error e) ↔ (Path.ofText fileName).name = [] := by
  unfold exportPath
  by_cases hname : (Path.ofText fileName).name = []
  · refine iff_of_true ⟨.unnamed (.ofText fileName), ?_⟩ hname
    dsimp only
    rw [suffix_of_unnamed hname, if_neg (by decide), Path.withName, if_pos hname]
  · refine iff_of_false ?_ hname
    rintro ⟨e, he⟩
    dsimp only at he
    split at he
    · cases he
    · have hending : '/' ∉ ".csv".toList := by decide
      obtain ⟨q, hq⟩ := exists_withName_append (Path.isNormal_ofText fileName) hname hending
      rw [hq] at he
      cases he

/-- A table is not saved because the path is none. -/
def SaveError.IsNull : SaveError → Prop
  | noDirectory _ => False
  | disk e => e.cause = .nullCharacter
  | address e => ∃ name, e = .file .nullCharacter name

theorem isRefusal_eq_false_iff {cause : DiskFault} : cause.isRefusal = false ↔ cause = .nullCharacter := by
  cases cause <;> simp [DiskFault.isRefusal, DiskFault.number?]

/-- Whatever keeps a table from being saved is a refusal, unless the path is none. -/
theorem SaveError.isRefusal_iff {e : SaveError} : e.isRefusal = true ↔ ¬ e.IsNull := by
  rw [← Bool.not_eq_false, not_iff_not]
  cases e with
  | noDirectory p => exact iff_of_false (by nofun) id
  | disk e => exact isRefusal_eq_false_iff
  | address e =>
    cases e with
    | file cause name =>
      refine isRefusal_eq_false_iff.trans ⟨?_, ?_⟩
      · rintro rfl
        exact ⟨name, rfl⟩
      · rintro ⟨_, ⟨⟩⟩
        rfl
    | noHost | noFileHost | unknownType => exact iff_of_false nofun nofun

/-- The warnings of a run cannot be exported to a file of a name: the name has no last part, or the path is none. -/
inductive IsUnexportable (d : Disk) (s : Summary) (fileName : Text) : Prop where
  | unnamed : s.warnings ≠ [] → (Path.ofText fileName).name = [] → IsUnexportable d s fileName
  | null {p : Path} {e : SaveError} : s.warnings ≠ [] → exportPath fileName = .ok p →
    saveTable d p (warningsTable s) = .error e → e.IsNull → IsUnexportable d s fileName

theorem isUnexportable_iff_of_path (hwarnings : s.warnings ≠ []) (hpath : exportPath fileName = .ok p) :
    IsUnexportable d s fileName ↔ ∃ e, saveTable d p (warningsTable s) = .error e ∧ e.IsNull := by
  constructor
  · rintro (⟨-, hunnamed⟩ | ⟨-, hsame, hsave, hnull⟩)
    · obtain ⟨e, he⟩ := exists_exportPath_error_iff.2 hunnamed
      rw [hpath] at he
      cases he
    · rw [hpath] at hsame
      cases hsame
      exact ⟨_, hsave, hnull⟩
  · rintro ⟨e, hsave, hnull⟩
    exact .null hwarnings hpath hsave hnull

/-- An export breaks off just if the warnings cannot be exported. -/
theorem exists_exportWarnings_error_iff (d : Disk) (s : Summary) (fileName : Text) :
    (∃ e, exportWarnings d s fileName = .error e) ↔ IsUnexportable d s fileName := by
  unfold exportWarnings
  by_cases hwarnings : s.warnings = []
  · rw [if_pos hwarnings]
    refine iff_of_false (fun ⟨_, h⟩ => nomatch h) ?_
    rintro (⟨h, -⟩ | ⟨h, -, -, -⟩) <;> exact h hwarnings
  rw [if_neg hwarnings]
  cases hpath : exportPath fileName with
  | error e => exact iff_of_true ⟨.name e, rfl⟩ (.unnamed hwarnings (exists_exportPath_error_iff.1 ⟨e, hpath⟩))
  | ok p =>
    rw [isUnexportable_iff_of_path hwarnings hpath]
    dsimp only
    cases saveTable d p (warningsTable s) with
    | ok disk => exact iff_of_false (fun ⟨_, h⟩ => nomatch h) fun ⟨_, h, _⟩ => nomatch h
    | error e =>
      dsimp only
      by_cases hnull : e.IsNull
      · rw [if_neg fun h => SaveError.isRefusal_iff.1 h hnull]
        exact iff_of_true ⟨.path e, rfl⟩ ⟨e, rfl, hnull⟩
      · rw [if_pos (SaveError.isRefusal_iff.2 hnull)]
        refine iff_of_false (fun ⟨_, h⟩ => nomatch h) ?_
        rintro ⟨_, ⟨⟩, hother⟩
        exact hnull hother

end Report

end MdxSafe
