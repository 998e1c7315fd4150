-- SUMMARY: What merging leaves at every path of two configurations, in which order, and that a second merge changes nothing.
import MdxSafe.Proofs.Config.Edit

/-!
# Merged configurations

At a path where the override holds something, that is what the merge holds, laid over what was there. Elsewhere the merge
holds what the base does, unless the override has a value on the way that is no object (`Value.follow_lay`,
`Value.follow_lay_of_free`). From this and the order of the keys at one level (`Fields.keys_merge`) it follows what the
leaves of a merge are (`Config.merge_leaves`).
-/

namespace MdxSafe

open Config

variable {fs base o : Fields} {k : Text} {ks : List Text} {v w : Value} {old : Option Value}

-- ---------------------------------------------------------------------------
-- Distinct keys
-- ---------------------------------------------------------------------------

namespace Value

mutual
/-- Whether no object that paths lead to from a value has a key twice. -/
def hasDistinctKeys : Value → Bool
  | object fs => decide (fs.map Prod.fst).Nodup && haveDistinctKeys fs
  | _ => true
termination_by structural v => v

/-- Whether no object that paths lead to from the values of fields has a key twice. -/
def haveDistinctKeys : List (Text × Value) → Bool
  | [] => true
  | (_, v) :: fs => hasDistinctKeys v && haveDistinctKeys fs
termination_by structural fs => fs
end

theorem haveDistinctKeys_iff : haveDistinctKeys fs = true ↔ ∀ f ∈ fs, f.2.hasDistinctKeys = true := by
  induction fs with
  | nil => exact iff_of_true rfl nofun
  | cons f fs ih => rw [haveDistinctKeys, Bool.and_eq_true, ih, List.forall_mem_cons]

theorem hasDistinctKeys_object_iff :
    (object fs).hasDistinctKeys = true ↔ (fs.map Prod.fst).Nodup ∧ ∀ f ∈ fs, f.2.hasDistinctKeys = true := by
  rw [hasDistinctKeys, Bool.and_eq_true, decide_eq_true_iff, haveDistinctKeys_iff]

theorem hasDistinctKeys_of_mem (h : (object fs).hasDistinctKeys = true) (hk : (k, v) ∈ fs) : v.hasDistinctKeys = true :=
  (hasDistinctKeys_object_iff.1 h).2 _ hk

theorem object_or_other (old : Option Value) :
    (∃ base : Fields, old = some (object base)) ∨ ∀ base : Fields, old ≠ some (object base) :=
  (Classical.em _).imp_right not_exists.1

/-- Over what is no object, a value is laid as it is. -/
theorem lay_of_other (h : ∀ base : Fields, old ≠ some (object base)) (v : Value) : lay old v = v := by
  cases v with
  | object fs =>
    rcases old with _ | _ | _ | _ | _ | _ | _ | base
    case some.object => exact absurd rfl (h base)
    all_goals rfl
  | _ => rfl

@[simp] theorem lay_none (v : Value) : lay none v = v := lay_of_other (by simp) v

end Value

-- ---------------------------------------------------------------------------
-- One level
-- ---------------------------------------------------------------------------

namespace Fields

theorem mem_of_get? (h : fs.get? k = some v) : (k, v) ∈ fs := by
  obtain ⟨f, hf, rfl⟩ := Option.map_eq_some_iff.1 h
  have hk : f.1 = k := by simpa using List.find?_some hf
  rw [← hk]
  exact List.mem_of_find?_eq_some hf

theorem get?_eq_none_of_notMem (h : k ∉ fs.map Prod.fst) : fs.get? k = none := by
  cases hk : fs.get? k with
  | none => rfl
  | some v => exact absurd (List.mem_map.2 ⟨(k, v), mem_of_get? hk, rfl⟩) h

theorem get?_of_mem (hnodup : (fs.map Prod.fst).Nodup) (h : (k, v) ∈ fs) : fs.get? k = some v := by
  induction fs with
  | nil => exact absurd h List.not_mem_nil
  | cons f fs ih =>
    rw [List.map_cons, List.nodup_cons] at hnodup
    rw [get?_cons]
    rcases List.mem_cons.1 h with rfl | hmem
    · rw [if_pos rfl]
    · have hne : f.1 ≠ k := fun heq => hnodup.1 (heq ▸ List.mem_map.2 ⟨(k, v), hmem, rfl⟩)
      rw [if_neg hne, ih hnodup.2 hmem]

/-- A key that is set keeps its place; a new one comes last. -/
theorem keys_set (fs : Fields) (k : Text) (v : Value) :
    (fs.set k v).map Prod.fst = if k ∈ fs.map Prod.fst then fs.map Prod.fst else fs.map Prod.fst ++ [k] := by
  induction fs with
  | nil => rfl
  | cons f fs ih =>
    rw [set]
    by_cases hf : f.1 = k
    · rw [if_pos hf, List.map_cons, List.map_cons, hf, if_pos List.mem_cons_self]
    · rw [if_neg hf, List.map_cons, List.map_cons, ih]
      have hmem : k ∈ f.1 :: fs.map Prod.fst ↔ k ∈ fs.map Prod.fst := by simp [Ne.symm hf]
      simp only [hmem]
      split <;> rfl

/-- A key of a merge holds what the override has for it, laid over what the base has, or what the base has if the
override has nothing. -/
theorem get?_merge (ho : (o.map Prod.fst).Nodup) (base : Fields) (k : Text) :
    (base.merge o).get? k = ((o.get? k).map (Value.lay (base.get? k))).or (base.get? k) := by
  unfold merge
  induction o generalizing base with
  | nil => rfl
  | cons f o ih =>
    rw [List.map_cons, List.nodup_cons] at ho
    rw [Value.layFields, ih ho.2, get?_cons]
    by_cases hk : f.1 = k
    · subst hk
      rw [get?_eq_none_of_notMem ho.1, if_pos rfl, get?_set_self]
      rfl
    · rw [if_neg hk, get?_set_of_ne (Ne.symm hk)]

/-- The keys of the base keep their places, and those that are new follow in the order of the override. -/
theorem keys_merge (ho : (o.map Prod.fst).Nodup) (base : Fields) :
    (base.merge o).map Prod.fst = base.map Prod.fst ++ (o.map Prod.fst).filter (fun k => k ∉ base.map Prod.fst) := by
  unfold merge
  induction o generalizing base with
  | nil => exact (List.append_nil _).symm
  | cons f o ih =>
    rw [List.map_cons, List.nodup_cons] at ho
    rw [Value.layFields, ih ho.2, keys_set, List.map_cons]
    by_cases hk : f.1 ∈ base.map Prod.fst
    · rw [if_pos hk, List.filter_cons_of_neg (by simpa using hk)]
    · rw [if_neg hk, List.filter_cons_of_pos (by simpa using hk), List.append_assoc]
      -- the key that was just put at the end does not come again in the override
      have hfilter : (o.map Prod.fst).filter (fun j => j ∉ base.map Prod.fst ++ [f.1])
          = (o.map Prod.fst).filter (fun j => j ∉ base.map Prod.fst) := by
        refine List.filter_congr fun j hj => ?_
        have hne : j ≠ f.1 := fun heq => ho.1 (heq ▸ hj)
        simp [hne]
      rw [hfilter, List.singleton_append]

theorem set_of_notMem (h : k ∉ fs.map Prod.fst) (v : Value) : fs.set k v = fs ++ [(k, v)] := by
  induction fs with
  | nil => rfl
  | cons f fs ih =>
    rw [List.map_cons, List.mem_cons, not_or] at h
    rw [set, if_neg (Ne.symm h.1), ih h.2, List.cons_append]

/-- Fields that are all new are added at the end. -/
theorem merge_of_disjoint (ho : (o.map Prod.fst).Nodup) (h : ∀ k ∈ o.map Prod.fst, k ∉ base.map Prod.fst) :
    base.merge o = base ++ o := by
  unfold merge
  induction o generalizing base with
  | nil => exact (List.append_nil base).symm
  | cons f o ih =>
    rw [List.map_cons, List.nodup_cons] at ho
    rw [List.map_cons, List.forall_mem_cons] at h
    have hdisjoint : ∀ k ∈ o.map Prod.fst, k ∉ (base ++ [f]).map Prod.fst := by
      intro k hk
      have hne : k ≠ f.1 := fun heq => ho.1 (heq ▸ hk)
      simpa [hne] using h.2 k hk
    rw [Value.layFields, get?_eq_none_of_notMem h.1, Value.lay_none, set_of_notMem h.1, ih ho.2 hdisjoint,
      List.append_assoc, List.singleton_append]

theorem nil_merge (ho : (o.map Prod.fst).Nodup) : merge [] o = o := merge_of_disjoint ho fun _ _ => List.not_mem_nil

/-- Laying over fields what they hold already changes nothing. -/
theorem merge_eq_self (h : ∀ f ∈ o, ∃ v, base.get? f.1 = some v ∧ Value.lay (some v) f.2 = v) : base.merge o = base := by
  unfold merge
  induction o with
  | nil => rfl
  | cons f o ih =>
    rw [List.forall_mem_cons] at h
    obtain ⟨⟨v, hv, hlay⟩, hrest⟩ := h
    rw [Value.layFields, hv, hlay, set_of_get? hv]
    exact ih hrest

end Fields

-- ---------------------------------------------------------------------------
-- Values laid over others
-- ---------------------------------------------------------------------------

namespace Value

/-- What is no object comes out of laying a value only if it is that value. -/
theorem lay_eq_iff (hv : ∀ inner, v ≠ object inner) : lay old w = v ↔ w = v := by
  cases w with
  | object fs =>
    refine iff_of_false (fun h => ?_) (Ne.symm (hv fs))
    unfold lay at h
    split at h
    · exact hv _ h.symm
    · exact hv _ h.symm
  | _ => exact Iff.rfl

theorem bind_follow_of_other (h : ∀ base : Fields, old ≠ some (object base)) (k : Text) (ks : List Text) :
    old.bind (follow (k :: ks)) = none := by
  cases old with
  | none => rfl
  | some v =>
    cases v with
    | object fs => exact absurd rfl (h fs)
    | _ => rfl

/-- Where a value holds something, it is found there laid over what the older value holds. -/
theorem follow_lay (hv : v.hasDistinctKeys = true) (h : follow ks v = some w) (old : Option Value) :
    follow ks (lay old v) = some (lay (old.bind (follow ks)) w) := by
  induction ks generalizing v old with
  | nil =>
    obtain rfl : v = w := Option.some.inj h
    cases old <;> rfl
  | cons k ks ih =>
    cases v with
    | object fs =>
      have hnodup := (hasDistinctKeys_object_iff.1 hv).1
      rcases object_or_other old with ⟨base, rfl⟩ | hother
      · rw [follow_cons] at h
        obtain ⟨x, hx, hw⟩ := Option.bind_eq_some_iff.1 h
        have hget : (base.merge fs).get? k = some (lay (base.get? k) x) := by
          rw [Fields.get?_merge hnodup, hx]
          rfl
        have hlay : follow (k :: ks) (lay (some (object base)) (object fs)) = follow ks (lay (base.get? k) x) := by
          rw [← Option.bind_some (lay (base.get? k) x) (follow ks), ← hget]
          rfl
        rw [hlay, ih (hasDistinctKeys_of_mem hv (Fields.mem_of_get? hx)) hw]
        rfl
      · rw [lay_of_other hother, bind_follow_of_other hother, lay_none, h]
    | _ => cases h

/-- Where an object holds nothing and the way is free in it, what the older value holds is found. -/
theorem follow_lay_of_free (hfs : (object fs).hasDistinctKeys = true) (h : follow ks (.object fs) = none)
    (hfree : ¬ IsBlocked fs ks) (old : Option Value) : follow ks (lay old (object fs)) = old.bind (follow ks) := by
  induction ks generalizing fs old with
  | nil => cases h
  | cons k ks ih =>
    have hnodup := (hasDistinctKeys_object_iff.1 hfs).1
    rcases object_or_other old with ⟨base, rfl⟩ | hother
    · have hlay : follow (k :: ks) (lay (some (object base)) (object fs)) = ((base.merge fs).get? k).bind (follow ks) := rfl
      rw [hlay, Fields.get?_merge hnodup, Option.bind_some, follow_cons]
      rw [follow_cons] at h
      cases hk : fs.get? k with
      | none => rfl
      | some x =>
        rw [hk, Option.bind_some] at h
        by_cases hx : ∃ inner, x = object inner
        · obtain ⟨inner, rfl⟩ := hx
          rw [isBlocked_cons_iff hk] at hfree
          exact ih (hasDistinctKeys_of_mem hfs (Fields.mem_of_get? hk)) h hfree (base.get? k)
        · cases ks with
          | nil => cases h
          | cons j js =>
            have hother : ∀ inner, x ≠ object inner := fun inner heq => hx ⟨inner, heq⟩
            exact absurd (isBlocked_of_other hk hother (List.cons_ne_nil j js)) hfree
    · rw [lay_of_other hother, bind_follow_of_other hother, h]

theorem hasDistinctKeys_of_follow (hv : v.hasDistinctKeys = true) (h : follow ks v = some w) :
    w.hasDistinctKeys = true := by
  induction ks generalizing v with
  | nil => rwa [← Option.some.inj h]
  | cons k ks ih =>
    cases v with
    | object fs =>
      obtain ⟨x, hx, hw⟩ := Option.bind_eq_some_iff.1 h
      exact ih (hasDistinctKeys_of_mem hv (Fields.mem_of_get? hx)) hw
    | _ => cases h

mutual
/-- A value that was laid over another one is not changed when it is laid over that again. -/
theorem lay_lay : (v : Value) → v.hasDistinctKeys = true → ∀ old, lay (some (lay old v)) v = lay old v
  | object (fs : Fields), hv, old => by
    obtain ⟨hnodup, hbelow⟩ := hasDistinctKeys_object_iff.1 hv
    have heach := lay_lay_each fs hbelow
    rcases object_or_other old with ⟨base, rfl⟩ | hother
    · have htwice : (base.merge fs).merge fs = base.merge fs := by
        refine Fields.merge_eq_self fun f hf => ⟨lay (base.get? f.1) f.2, ?_, heach f hf _⟩
        rw [Fields.get?_merge hnodup, Fields.get?_of_mem hnodup hf]
        rfl
      exact congrArg object htwice
    · have hself : fs.merge fs = fs := by
        refine Fields.merge_eq_self fun f hf => ⟨f.2, Fields.get?_of_mem hnodup hf, ?_⟩
        have hagain := heach f hf none
        rwa [lay_none] at hagain
      rw [lay_of_other hother]
      exact congrArg object hself
  | null, _, _ | bool _, _, _ | int _, _, _ | float _, _, _ | text _, _, _ | list _, _, _ => rfl
termination_by structural v => v

theorem lay_lay_each : (fs : List (Text × Value)) → (∀ f ∈ fs, f.2.hasDistinctKeys = true) →
    ∀ f ∈ fs, ∀ old, lay (some (lay old f.2)) f.2 = lay old f.2
  | [], _ => nofun
  | (_, v) :: fs, h => by
    rw [List.forall_mem_cons] at h ⊢
    exact ⟨lay_lay v h.1, lay_lay_each fs h.2⟩
termination_by structural fs => fs
end

end Value

-- ---------------------------------------------------------------------------
-- Leaves
-- ---------------------------------------------------------------------------

namespace Config

/-- At the end of a path there is a value, and it is no object. -/
def IsLeaf (fs : Fields) (ks : List Text) (v : Value) : Prop :=
  follow ks (.object fs) = some v ∧ ∀ inner, v ≠ .object inner

theorem follow_append (lead ks : List Text) (v : Value) : follow (lead ++ ks) v = (follow lead v).bind (follow ks) := by
  induction lead generalizing v with
  | nil => rfl
  | cons k lead ih =>
    cases v with
    | object fs =>
      rw [List.cons_append, follow_cons, follow_cons, Option.bind_assoc]
      exact congrArg (Option.bind _) (funext ih)
    | _ => rfl

/-- Where the override holds something, a merge holds that, laid over what the base holds. -/
theorem follow_merge (ho : (Value.object o).hasDistinctKeys = true) (h : follow ks (.object o) = some w) (base : Fields) :
    follow ks (.object (base.merge o)) = some (Value.lay (follow ks (.object base)) w) :=
  Value.follow_lay ho h (some (.object base))

/-- Below a value of the override that is no object, a merge holds nothing. -/
theorem follow_merge_of_isBlocked (ho : (Value.object o).hasDistinctKeys = true) (h : IsBlocked o ks) (base : Fields) :
    follow ks (.object (base.merge o)) = none := by
  obtain ⟨lead, w, ⟨rest, rfl⟩, hne, hw, hother⟩ := h
  have hlay : Value.lay (follow lead (.object base)) w = w := (Value.lay_eq_iff hother).2 rfl
  rw [follow_append, follow_merge ho hw, hlay, Option.bind_some]
  cases rest with
  | nil => exact absurd (List.append_nil lead).symm hne
  | cons k rest =>
    cases w with
    | object fs => exact absurd rfl (hother fs)
    | _ => rfl

/-- The leaves of a merge are those of the override, and those of the base at which the override holds nothing and below
no leaf of the override. -/
theorem isLeaf_merge_iff (ho : (Value.object o).hasDistinctKeys = true) (base : Fields) (ks : List Text) (v : Value) :
    IsLeaf (base.merge o) ks v
      ↔ IsLeaf o ks v ∨ IsLeaf base ks v ∧ follow ks (.object o) = none ∧ ¬ IsBlocked o ks := by
  unfold IsLeaf
  rw [and_right_comm, ← or_and_right]
  refine and_congr_left fun hv => ?_
  cases h : follow ks (.object o) with
  | some w =>
    rw [follow_merge ho h, Option.some_inj, Option.some_inj, Value.lay_eq_iff hv]
    simp
  | none =>
    by_cases hblocked : IsBlocked o ks
    · rw [follow_merge_of_isBlocked ho hblocked]
      simp [hblocked]
    · have hfree := Value.follow_lay_of_free ho h hblocked (some (.object base))
      rw [Option.bind_some] at hfree
      have hmerge : follow ks (.object (base.merge o)) = follow ks (.object base) := hfree
      rw [hmerge]
      simp [hblocked]

/-- Two configurations merge path by path: the leaves of the override are there, and a leaf of the base stays just if the
override holds nothing at its path and has no leaf above it. Wherever both hold an object, the keys of the base keep their
places, and the new ones follow in the order of the override. A second merge changes nothing, nor does an empty object. -/
theorem merge_leaves (base : Fields) {o : Fields} (ho : (Value.object o).hasDistinctKeys = true) :
    (∀ ks v, IsLeaf (base.merge o) ks v ↔ IsLeaf o ks v
        ∨ IsLeaf base ks v ∧ follow ks (.object o) = none ∧ ∀ lead w, lead <+: ks → lead ≠ ks → ¬ IsLeaf o lead w)
      ∧ (∀ ks below above, follow ks (.object base) = some (.object below) → follow ks (.object o) = some (.object above) →
          ∃ merged, follow ks (.object (base.merge o)) = some (.object merged)
            ∧ merged.map Prod.fst
              = below.map Prod.fst ++ (above.map Prod.fst).filter (fun k => k ∉ below.map Prod.fst))
      ∧ (base.merge o).merge o = base.merge o ∧ base.merge [] = base ∧ Fields.merge [] o = o := by
  refine ⟨fun ks v => ?_, fun ks below above hbelow habove => ?_, ?_, rfl, ?_⟩
  · rw [isLeaf_merge_iff ho]
    have hfree : ¬ IsBlocked o ks ↔ ∀ lead w, lead <+: ks → lead ≠ ks → ¬ IsLeaf o lead w := by
      simp only [IsBlocked, IsLeaf, not_exists, not_and]
    rw [hfree]
  · refine ⟨Fields.merge below above, ?_, ?_⟩
    · rw [follow_merge ho habove, hbelow]
      rfl
    · exact Fields.keys_merge (Value.hasDistinctKeys_object_iff.1 (Value.hasDistinctKeys_of_follow ho habove)).1 below
  · exact Value.object.inj (Value.lay_lay (.object o) ho (some (.object base)))
  · exact Fields.nil_merge (Value.hasDistinctKeys_object_iff.1 ho).1

/-- A leaf in the place of an object, an object in the place of a leaf, and an object over another one. -/
theorem merge_leaves_mixed :
    let base : Fields := [("a".toList, .object [("x".toList, .int 1), ("y".toList, .null)]), ("b".toList, .int 2),
      ("c".toList, .object [("z".toList, .int 3)])]
    let o : Fields := [("d".toList, .null), ("c".toList, .null), ("b".toList, .object []),
      ("a".toList, .object [("w".toList, .int 4), ("y".toList, .object [("z".toList, .int 5)])])]
    (Value.object o).hasDistinctKeys = true
      ∧ IsLeaf (base.merge o) ["a".toList, "x".toList] (.int 1)
      ∧ IsLeaf (base.merge o) ["a".toList, "y".toList, "z".toList] (.int 5)
      ∧ ¬ IsLeaf (base.merge o) ["b".toList] (.int 2) ∧ ¬ IsLeaf (base.merge o) ["c".toList, "z".toList] (.int 3)
      ∧ (base.merge o).map Prod.fst = ["a".toList, "b".toList, "c".toList, "d".toList]
      ∧ (base.merge o).merge o = base.merge o := by
  intro base o
  have ho : (Value.object o).hasDistinctKeys = true := by decide
  obtain ⟨hleaves, hkeys, htwice, -, -⟩ := merge_leaves base ho
  refine ⟨ho, (hleaves _ _).2 (.inr ⟨⟨rfl, nofun⟩, rfl, ?_⟩), (hleaves _ _).2 (.inl ⟨rfl, nofun⟩), ?_, ?_, ?_, htwice⟩
  · intro lead w hlead hne hleaf
    rcases List.prefix_cons_iff.1 hlead with rfl | ⟨rest, rfl, hrest⟩
    · exact hleaf.2 _ (Option.some.inj hleaf.1).symm
    rcases List.prefix_cons_iff.1 hrest with rfl | ⟨last, rfl, hlast⟩
    · exact hleaf.2 _ (Option.some.inj hleaf.1).symm
    · exact hne (by rw [List.prefix_nil.1 hlast])
  · intro h
    rcases (hleaves _ _).1 h with ⟨hown, -⟩ | ⟨-, hnone, -⟩
    · cases hown
    · cases hnone
  · intro h
    rcases (hleaves _ _).1 h with ⟨hown, -⟩ | ⟨-, -, hfree⟩
    · cases hown
    · exact hfree ["c".toList] .null ⟨["z".toList], rfl⟩ (by decide) ⟨rfl, nofun⟩
  · obtain ⟨merged, hmerged, horder⟩ := hkeys [] base o rfl rfl
    rw [← Value.object.inj (Option.some.inj hmerged)] at horder
    rw [horder]
    decide

end Config

end MdxSafe
