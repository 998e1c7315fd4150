-- SUMMARY: The pipeline of a registry: the last accepted rule of each name, in order of place and name.
import Mathlib
import MdxSafe.Proofs.Text.Order
import MdxSafe.Registry

/-!
# The pipeline

A registry holds one rule for each name, and none that declares what must not be rewritten (`Registry.IsSound`);
registering keeps it so. A rule is in the pipeline if it is the last one of its name that was accepted
(`Registry.mem_registerAll_iff`), and the pipeline is strictly increasing (`Registry.pairwise_definitions`), so that it
is decided by which rules are in it, whatever order they came in.
-/

namespace MdxSafe

-- ---------------------------------------------------------------------------
-- The order of rules
-- ---------------------------------------------------------------------------

namespace Rule

variable {r s t : Rule}

/-- A rule comes before another: by place, then by name. -/
def Before (r s : Rule) : Prop := r.order < s.order ∨ r.order = s.order ∧ r.name < s.name

/-- A rule declares only what may be rewritten. -/
def IsAccepted (r : Rule) : Prop := ∀ k ∈ r.targets, k ∈ Registry.mutableKinds

instance : DecidablePred IsAccepted := fun r => inferInstanceAs (Decidable (∀ k ∈ r.targets, k ∈ Registry.mutableKinds))

theorem Before.not_before (h : r.Before s) : ¬ s.Before r := by
  rintro (hlt | ⟨heq, hname⟩)
  · rcases h with h | ⟨h, -⟩ <;> omega
  · rcases h with h | ⟨-, h⟩
    · omega
    · exact List.lt_asymm h hname

theorem le_iff : r.le s = true ↔ ¬ s.Before r := by
  rw [le, Bool.or_eq_true, decide_eq_true_eq, Bool.and_eq_true, beq_iff_eq, Text.le_iff, Before]
  constructor
  · rintro (h | ⟨h, hname⟩) <;> rintro (hlt | ⟨heq, hsame⟩)
    · omega
    · omega
    · omega
    · exact hname hsame
  · intro h
    rcases lt_trichotomy r.order s.order with hlt | heq | hlt
    · exact .inl hlt
    · exact .inr ⟨heq, fun hname => h (.inr ⟨heq.symm, hname⟩)⟩
    · exact absurd (.inl hlt) h

theorem before_or_of_name_ne (h : r.name ≠ s.name) : r.Before s ∨ s.Before r := by
  rcases lt_trichotomy r.order s.order with hlt | heq | hlt
  · exact .inl (.inl hlt)
  · by_cases hname : r.name < s.name
    · exact .inl (.inr ⟨heq, hname⟩)
    · refine .inr (.inr ⟨heq.symm, ?_⟩)
      by_contra hother
      exact h (List.le_antisymm (List.not_lt.1 hother) (List.not_lt.1 hname))
  · exact .inr (.inl hlt)

theorem le_trans (hrs : r.le s = true) (hst : s.le t = true) : r.le t = true := by
  rw [le, Bool.or_eq_true, decide_eq_true_eq, Bool.and_eq_true, beq_iff_eq] at hrs hst ⊢
  rcases hrs with hrs | ⟨hrs, hname⟩ <;> rcases hst with hst | ⟨hst, hname'⟩
  · exact .inl (hrs.trans hst)
  · exact .inl (hst ▸ hrs)
  · exact .inl (hrs ▸ hst)
  · exact .inr ⟨hrs.trans hst, Text.le_trans hname hname'⟩

theorem le_total (r s : Rule) : (r.le s || s.le r) = true := by
  rw [Bool.or_eq_true, le_iff, le_iff]
  by_cases h : s.Before r
  · exact .inr h.not_before
  · exact .inl h

end Rule

-- ---------------------------------------------------------------------------
-- Placing
-- ---------------------------------------------------------------------------

namespace Registry

variable {g : Registry} {r s : Rule} {rs : List Rule}

theorem name_mem_place_iff {name : Text} :
    name ∈ (place r rs).map Rule.name ↔ name = r.name ∨ name ∈ rs.map Rule.name := by
  induction rs with
  | nil => simp [place]
  | cons s rs ih =>
    unfold place
    split
    · next h => simp [h]
    · rw [List.map_cons, List.mem_cons, ih, List.map_cons, List.mem_cons, or_left_comm]

theorem nodup_place (h : (rs.map Rule.name).Nodup) : ((place r rs).map Rule.name).Nodup := by
  induction rs with
  | nil => exact List.nodup_singleton r.name
  | cons s rs ih =>
    obtain ⟨hnew, hrest⟩ := List.nodup_cons.1 h
    unfold place
    split
    · next hname => rw [List.map_cons, ← hname]; exact h
    · next hname =>
      refine List.nodup_cons.2 ⟨?_, ih hrest⟩
      rw [name_mem_place_iff, not_or]
      exact ⟨hname, hnew⟩

/-- Among rules of different names, a rule that is placed takes the place of the one of its name. -/
theorem mem_place_iff (h : (rs.map Rule.name).Nodup) : s ∈ place r rs ↔ s = r ∨ s ∈ rs ∧ s.name ≠ r.name := by
  induction rs with
  | nil => simp [place]
  | cons t rs ih =>
    obtain ⟨hnew, hrest⟩ := List.nodup_cons.1 h
    unfold place
    split
    · next hname =>
      rw [List.mem_cons, List.mem_cons]
      refine or_congr_right ?_
      constructor
      · intro hs
        exact ⟨.inr hs, fun hsame => hnew (List.mem_map.2 ⟨s, hs, hsame.trans hname.symm⟩)⟩
      · rintro ⟨rfl | hs, hother⟩
        · exact absurd hname hother
        · exact hs
    · next hname =>
      rw [List.mem_cons, ih hrest, List.mem_cons]
      constructor
      · rintro (rfl | rfl | ⟨hs, hother⟩)
        · exact .inr ⟨.inl rfl, hname⟩
        · exact .inl rfl
        · exact .inr ⟨.inr hs, hother⟩
      · rintro (rfl | ⟨rfl | hs, hother⟩)
        · exact .inr (.inl rfl)
        · exact .inl rfl
        · exact .inr (.inr ⟨hs, hother⟩)

-- ---------------------------------------------------------------------------
-- Registering
-- ---------------------------------------------------------------------------

/-- A registry has one rule for each name, and only accepted ones. -/
structure IsSound (g : Registry) : Prop where
  names : (g.rules.map Rule.name).Nodup
  accepted : ∀ r ∈ g.rules, r.IsAccepted

/-- A registry to which rules were registered one after the other, starting from none. -/
inductive Reachable : Registry → Prop where
  | empty : Reachable ⟨[]⟩
  | register {g : Registry} (r : Rule) : Reachable g → Reachable (g.register r).1

/-- The registry with rules registered one after the other. -/
def registerAll (g : Registry) (rs : List Rule) : Registry := rs.foldl (fun g r => (g.register r).1) g

theorem register_of_isAccepted (h : r.IsAccepted) : g.register r = (⟨place r g.rules⟩, none) := by
  have hnone : (r.targets.filter fun k => k ∉ mutableKinds) = [] := by
    rw [List.filter_eq_nil_iff]
    intro k hk hbad
    exact of_decide_eq_true hbad (h k hk)
  rw [register, hnone]

theorem register_of_not_isAccepted (h : ¬ r.IsAccepted) : ∃ e, g.register r = (g, some e) := by
  unfold register
  split
  · next hnone =>
    refine absurd (fun k hk => ?_) h
    have hgood := List.filter_eq_nil_iff.1 hnone k hk
    rwa [decide_eq_true_eq, not_not] at hgood
  · exact ⟨_, rfl⟩

/-- Registering keeps a registry sound. -/
theorem IsSound.register (hg : g.IsSound) (r : Rule) : (g.register r).1.IsSound := by
  by_cases h : r.IsAccepted
  · rw [register_of_isAccepted h]
    refine ⟨nodup_place hg.names, fun s hs => ?_⟩
    rcases (mem_place_iff hg.names).1 hs with rfl | ⟨hs, -⟩
    · exact h
    · exact hg.accepted s hs
  · obtain ⟨e, he⟩ := register_of_not_isAccepted (g := g) h
    rwa [he]

theorem Reachable.isSound (h : Reachable g) : g.IsSound := by
  induction h with
  | empty => exact ⟨List.nodup_nil, by simp⟩
  | register r _ ih => exact ih.register r

theorem Reachable.registerAll (h : Reachable g) (rs : List Rule) : Reachable (g.registerAll rs) := by
  induction rs generalizing g with
  | nil => exact h
  | cons r rs ih => exact ih (h.register r)

theorem registerAll_concat (g : Registry) (rs : List Rule) (r : Rule) :
    g.registerAll (rs ++ [r]) = ((g.registerAll rs).register r).1 := by
  rw [Registry.registerAll, List.foldl_append]
  rfl

/-- A rule is the last one of its name that is accepted. -/
def IsLast (rs : List Rule) (r : Rule) : Prop :=
  ∃ before after, rs = before ++ r :: after ∧ r.IsAccepted ∧ ∀ s ∈ after, s.IsAccepted → s.name ≠ r.name

theorem not_isLast_nil (r : Rule) : ¬ IsLast [] r := by
  rintro ⟨before, after, h, -⟩
  simp at h

theorem isLast_concat_iff :
    IsLast (rs ++ [s]) r ↔ s.IsAccepted ∧ r = s ∨ IsLast rs r ∧ (s.IsAccepted → s.name ≠ r.name) := by
  constructor
  · rintro ⟨before, after, hsplit, haccepted, hafter⟩
    rcases List.eq_nil_or_concat after with rfl | ⟨after, t, rfl⟩
    · obtain ⟨-, hlast⟩ := List.append_inj' hsplit rfl
      obtain rfl := List.singleton_inj.1 hlast
      exact .inl ⟨haccepted, rfl⟩
    · rw [List.concat_eq_append] at hsplit hafter
      rw [← List.cons_append, ← List.append_assoc] at hsplit
      obtain ⟨hlead, hlast⟩ := List.append_inj' hsplit rfl
      obtain rfl := List.singleton_inj.1 hlast
      refine .inr ⟨⟨before, after, hlead, haccepted, fun u hu => hafter u (List.mem_append_left _ hu)⟩, ?_⟩
      exact hafter s (List.mem_append_right after (List.mem_singleton_self s))
  · rintro (⟨haccepted, rfl⟩ | ⟨⟨before, after, rfl, haccepted, hafter⟩, hs⟩)
    · exact ⟨rs, [], rfl, haccepted, by simp⟩
    · refine ⟨before, after ++ [s], by simp, haccepted, fun u hu => ?_⟩
      rcases List.mem_append.1 hu with hu | hu
      · exact hafter u hu
      · obtain rfl := List.mem_singleton.1 hu
        exact hs

theorem IsSound.registerAll (hg : g.IsSound) (rs : List Rule) : (g.registerAll rs).IsSound := by
  induction rs generalizing g with
  | nil => exact hg
  | cons r rs ih => exact ih (hg.register r)

/-- What is in a registry: the last accepted rule of each name, and rules from before with other names. -/
theorem mem_registerAll_iff (hg : g.IsSound) (rs : List Rule) (r : Rule) :
    r ∈ (g.registerAll rs).rules ↔ IsLast rs r ∨ r ∈ g.rules ∧ ∀ s ∈ rs, s.IsAccepted → s.name ≠ r.name := by
  induction rs using List.reverseRecOn with
  | nil => simp [Registry.registerAll, not_isLast_nil]
  | append_singleton rs s ih =>
    rw [registerAll_concat, isLast_concat_iff]
    by_cases hs : s.IsAccepted
    · rw [register_of_isAccepted hs, mem_place_iff (hg.registerAll rs).names, ih]
      simp only [hs, true_and, forall_const, List.mem_append, List.mem_singleton, or_imp, forall_and, forall_eq]
      tauto
    · obtain ⟨e, he⟩ := register_of_not_isAccepted (g := g.registerAll rs) hs
      rw [he, ih]
      simp only [hs, false_and, false_or, List.mem_append, List.mem_singleton, or_imp, forall_and, forall_eq,
        false_imp_iff, and_true]

-- ---------------------------------------------------------------------------
-- Order
-- ---------------------------------------------------------------------------

theorem mem_definitions_iff : r ∈ g.definitions ↔ r ∈ g.rules := List.mem_mergeSort

/-- The pipeline is strictly increasing. -/
theorem pairwise_definitions (hg : g.IsSound) : g.definitions.Pairwise Rule.Before := by
  have hsorted : g.definitions.Pairwise fun r s => r.le s = true := by
    refine List.pairwise_mergeSort (fun r s t hrs hst => ?_) (fun r s => ?_) g.rules
    · exact Rule.le_trans hrs hst
    · exact Rule.le_total r s
  have hnames : g.definitions.Pairwise fun r s => r.name ≠ s.name :=
    List.pairwise_map.1 (((List.mergeSort_perm g.rules Rule.le).map Rule.name).nodup_iff.2 hg.names)
  refine (hsorted.and hnames).imp fun {r s} hrs => ?_
  exact (Rule.before_or_of_name_ne hrs.2).resolve_right (Rule.le_iff.1 hrs.1)

theorem nodup_names_definitions (hg : g.IsSound) : (g.definitions.map Rule.name).Nodup :=
  ((List.mergeSort_perm g.rules Rule.le).map Rule.name).nodup_iff.2 hg.names

/-- Registries with the same rules have the same pipeline. -/
theorem definitions_eq_of_mem_iff {g g' : Registry} (hg : g.IsSound) (hg' : g'.IsSound)
    (h : ∀ r, r ∈ g.rules ↔ r ∈ g'.rules) : g.definitions = g'.definitions := by
  have hperm : g.definitions.Perm g'.definitions := by
    refine (List.perm_ext_iff_of_nodup ?_ ?_).2 fun r => ?_
    · exact (nodup_names_definitions hg).of_map
    · exact (nodup_names_definitions hg').of_map
    · rw [mem_definitions_iff, mem_definitions_iff, h]
  refine hperm.eq_of_pairwise (fun r s _ _ hrs hsr => ?_) (pairwise_definitions hg) (pairwise_definitions hg')
  exact absurd hsr hrs.not_before

/-- Among accepted rules of different names each one is the last of its name. -/
theorem isLast_iff_mem (haccepted : ∀ s ∈ rs, s.IsAccepted) (hnames : (rs.map Rule.name).Nodup) :
    IsLast rs r ↔ r ∈ rs := by
  constructor
  · rintro ⟨before, after, rfl, -⟩
    simp
  · intro hr
    obtain ⟨before, after, rfl⟩ := List.append_of_mem hr
    refine ⟨before, after, rfl, haccepted r hr, fun s hs _ hsame => ?_⟩
    rw [List.map_append, List.map_cons] at hnames
    have hafter := (List.nodup_cons.1 hnames.of_append_right).1
    exact hafter (List.mem_map.2 ⟨s, hs, hsame⟩)

/-- Accepted rules of different names make the same pipeline in any order. -/
theorem definitions_registerAll_of_perm {rs' : List Rule} (hg : g.IsSound) (hperm : rs.Perm rs')
    (haccepted : ∀ s ∈ rs, s.IsAccepted) (hnames : (rs.map Rule.name).Nodup) :
    (g.registerAll rs).definitions = (g.registerAll rs').definitions := by
  have haccepted' : ∀ s ∈ rs', s.IsAccepted := fun s hs => haccepted s (hperm.mem_iff.2 hs)
  refine definitions_eq_of_mem_iff (hg.registerAll rs) (hg.registerAll rs') fun r => ?_
  rw [mem_registerAll_iff hg, mem_registerAll_iff hg, isLast_iff_mem haccepted hnames,
    isLast_iff_mem haccepted' ((hperm.map Rule.name).nodup_iff.1 hnames)]
  simp only [hperm.mem_iff]

/-- Refused rules leave no trace. -/
theorem registerAll_filter (g : Registry) (rs : List Rule) :
    g.registerAll (rs.filter fun r => r.IsAccepted) = g.registerAll rs := by
  induction rs generalizing g with
  | nil => rfl
  | cons r rs ih =>
    by_cases h : r.IsAccepted
    · rw [List.filter_cons, if_pos (decide_eq_true h)]
      exact ih (g.register r).1
    · rw [List.filter_cons, if_neg (by simpa using h), ih]
      obtain ⟨e, he⟩ := register_of_not_isAccepted (g := g) h
      rw [Registry.registerAll, Registry.registerAll, List.foldl_cons, he]

theorem pairwise_passes (hg : g.IsSound) : g.passes.Pairwise Rule.Before :=
  (pairwise_definitions hg).filter _

theorem register_refused_iff : (∃ e, (g.register r).2 = some e) ↔ ∃ k ∈ r.targets, k ∉ mutableKinds := by
  by_cases h : r.IsAccepted
  · rw [register_of_isAccepted h]
    refine iff_of_false (fun ⟨_, he⟩ => nomatch he) ?_
    rintro ⟨k, hk, hbad⟩
    exact hbad (h k hk)
  · obtain ⟨e, he⟩ := register_of_not_isAccepted (g := g) h
    rw [he]
    refine iff_of_true ⟨e, rfl⟩ ?_
    simpa only [Rule.IsAccepted, not_forall, exists_prop] using h

theorem register_eq_of_refused (h : ∃ e, (g.register r).2 = some e) : (g.register r).1 = g := by
  by_cases hr : r.IsAccepted
  · obtain ⟨e, he⟩ := h
    rw [register_of_isAccepted hr] at he
    cases he
  · obtain ⟨e, he⟩ := register_of_not_isAccepted (g := g) hr
    rw [he]

/-- However rules are registered, the pipeline has the last accepted one of each name, none that declares what must not
be rewritten, in strict order of place and name. What is refused changes nothing, passes and diagnostics follow the
pipeline, and accepted rules of different names may come in any order. -/
theorem pipeline_registerAll (hg : Reachable g) (rs : List Rule) :
    let after := g.registerAll rs
    (∀ r ∈ after.definitions, ∀ k ∈ r.targets, k = .text ∨ k = .html ∨ k = .link)
      ∧ (after.definitions.Pairwise Rule.Before ∧ (after.definitions.map Rule.name).Nodup
        ∧ ∀ r, r ∈ after.definitions
          ↔ IsLast rs r ∨ r ∈ g.definitions ∧ ∀ s ∈ rs, s.IsAccepted → s.name ≠ r.name)
      ∧ (∀ r, ((∃ e, (after.register r).2 = some e) ↔ ∃ k ∈ r.targets, k ∉ mutableKinds)
        ∧ ((∃ e, (after.register r).2 = some e) → (after.register r).1 = after))
      ∧ (after.passes.Pairwise Rule.Before
        ∧ (∀ r, r ∈ after.passes ↔ r ∈ after.definitions ∧ r.rewrites.isSome = true)
        ∧ after.diagnostics = (after.definitions.map Rule.diagnostics).flatten)
      ∧ ∀ rs', rs.Perm rs' → (∀ r ∈ rs, r.IsAccepted) → (rs.map Rule.name).Nodup →
        let other := g.registerAll rs'
        other.definitions = after.definitions ∧ other.passes = after.passes ∧ other.diagnostics = after.diagnostics := by
  intro after
  have hafter : after.IsSound := hg.isSound.registerAll rs
  refine ⟨?accepted, ⟨pairwise_definitions hafter, nodup_names_definitions hafter, ?members⟩, ?refused,
    ⟨pairwise_passes hafter, ?passes, ?diagnostics⟩, ?permuted⟩
  case accepted =>
    intro r hr k hk
    simpa [mutableKinds] using hafter.accepted r (mem_definitions_iff.1 hr) k hk
  case members =>
    intro r
    rw [mem_definitions_iff, mem_definitions_iff]
    exact mem_registerAll_iff hg.isSound rs r
  case refused => exact fun r => ⟨register_refused_iff, register_eq_of_refused⟩
  case passes => exact fun r => List.mem_filter
  case diagnostics => exact List.flatMap_def
  case permuted =>
    intro rs' hperm haccepted hnames other
    have hdefinitions : other.definitions = after.definitions :=
      (definitions_registerAll_of_perm hg.isSound hperm haccepted hnames).symm
    refine ⟨hdefinitions, ?_, ?_⟩
    · rw [passes, hdefinitions, passes]
    · rw [diagnostics, hdefinitions, diagnostics]

/-- A rule that moves to the end of the pipeline, one that is replaced, and one that is refused; the two that are left may
come in either order. -/
theorem pipeline_registerAll_sample :
    let a : Rule := ⟨"a".toList, 10, some [.html], []⟩
    let b : Rule := ⟨"b".toList, 90, none, [none, none]⟩
    let rs : List Rule := [⟨"b".toList, 10, some [.text], []⟩, ⟨"a".toList, 10, some [.link], [none]⟩, b,
      ⟨"c".toList, 0, some [.code, .html], []⟩, a]
    Reachable ⟨[]⟩ ∧ (registerAll ⟨[]⟩ rs).definitions.Pairwise Rule.Before
      ∧ (registerAll ⟨[]⟩ rs).definitions = [a, b]
      ∧ (registerAll ⟨[]⟩ [b, a]).definitions = (registerAll ⟨[]⟩ [a, b]).definitions := by
  intro a b rs
  have hordered := (pipeline_registerAll .empty rs).2.1.1
  have hsame := (pipeline_registerAll .empty [a, b]).2.2.2.2 [b, a] (by decide) (by decide) (by decide)
  exact ⟨.empty, hordered, by cbv, hsame.1⟩

end Registry
end MdxSafe
