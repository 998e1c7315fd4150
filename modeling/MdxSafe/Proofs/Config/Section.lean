-- SUMMARY: Sections of a configuration: what stands in the place of one, and whether settings can be read from it.
import MdxSafe.Config.Basic

/-!
# Sections of a configuration

Settings are read from the fields of a section. What stands in its place may be something else than fields, its fields
may have problems, or there are settings (`Config.settings_cases`).
-/

namespace MdxSafe
namespace Config

variable {α : Type} {c : Config} {name home record : String} {read : Fields → Checked α} {x : α}

/-- The fields of a section; a section that is not there has none. -/
def sectionFields (c : Config) (name : String) : Fields :=
  match c.get name (.object []) with
  | .object fs => fs
  | _ => []

/-- What stands in the place of a section holds something else than fields. -/
def IsNoSection (c : Config) (name : String) : Prop :=
  (c.get name (.object [])).truthy = true ∧ ∀ fs, c.get name (.object []) ≠ .object fs

/-- The fields of a section have problems. -/
def HasProblems (c : Config) (name : String) (read : Fields → Checked α) : Prop :=
  ¬ c.IsNoSection name ∧ ∃ problems, read (c.sectionFields name) = .bad problems

/-- What reading the fields of a section comes to. -/
def verdict (record : String) : Checked α → Except SettingsError α
  | .ok x => .ok x
  | .bad problems => .error (.invalid record problems)

theorem sectionFields_of_object {fs : Fields} (h : c.get name (.object []) = .object fs) :
    c.sectionFields name = fs := by
  rw [sectionFields, h]

theorem sectionFields_of_other (h : ∀ fs, c.get name (.object []) ≠ .object fs) : c.sectionFields name = [] := by
  unfold sectionFields
  split
  · next fs hfs => exact absurd hfs (h fs)
  · rfl

theorem settings_of_isNoSection (h : c.IsNoSection name) :
    ∃ typeName, c.settings name home record read = .error (.notObject (home ++ record) typeName) := by
  obtain ⟨htruthy, hother⟩ := h
  unfold settings
  split
  · next fs hfs => exact absurd hfs (hother fs)
  · exact ⟨_, if_pos htruthy⟩

theorem settings_of_not_isNoSection (h : ¬ c.IsNoSection name) :
    c.settings name home record read = verdict record (read (c.sectionFields name)) := by
  unfold settings
  dsimp only
  split
  · next fs hfs =>
    rw [sectionFields_of_object hfs]
    cases read fs <;> rfl
  · next hother =>
    have hfalse : ¬ (c.get name (.object [])).truthy = true := fun htruthy => h ⟨htruthy, hother⟩
    rw [sectionFields_of_other hother, if_neg hfalse]
    cases read [] <;> rfl

/-- The settings of a section are wrong in kind, have problems, or are there. -/
theorem settings_cases (c : Config) (name home record : String) (read : Fields → Checked α) :
    (c.IsNoSection name ∧ ∃ typeName, c.settings name home record read = .error (.notObject (home ++ record) typeName))
      ∨ (c.HasProblems name read ∧ ∃ problems, c.settings name home record read = .error (.invalid record problems))
      ∨ ¬ c.IsNoSection name ∧ ¬ c.HasProblems name read ∧ ∃ x, c.settings name home record read = .ok x := by
  by_cases h : c.IsNoSection name
  · exact .inl ⟨h, settings_of_isNoSection h⟩
  · rw [settings_of_not_isNoSection h]
    cases hread : read (c.sectionFields name) with
    | bad problems => exact .inr (.inl ⟨⟨h, problems, hread⟩, problems, rfl⟩)
    | ok x =>
      refine .inr (.inr ⟨h, ?_, x, rfl⟩)
      rintro ⟨-, problems, hproblems⟩
      rw [hread] at hproblems
      cases hproblems

end Config

end MdxSafe
