-- SUMMARY: The JSON reader takes the texts that the grammar derives, unless it comes to an integer that is too long.
import MdxSafe.Proofs.Value.Grammar

/-!
# Reading JSON

The reader and the grammar agree, by one induction each way: on the fuel of the reader, what it gives is written there
(`Json.isSound`), and on what the grammar derives, the reader takes it (`Json.Writes.isTaken`). Lists and objects are
read alike, as elements between commas; the elements of an object are its members.
-/

namespace MdxSafe.Json

variable {t u v gap s rest : Text} {c : Char} {n fuel : Nat}

-- ---------------------------------------------------------------------------
-- Steps of the reader
-- ---------------------------------------------------------------------------

variable {α : Type}

/-- A member of an object, and the rest. -/
def member (fuel : Nat) : Text → Except Fault ((Text × Value) × Text)
  | '"' :: t => do
    let (k, t) ← needed (string? (t.length + 1) t)
    match skip t with
    | ':' :: t => (value fuel (skip t)).map fun r => ((k, r.1), r.2)
    | _ => .error .malformed
  | _ => .error .malformed

/-- What follows an element: the closing bracket, or more elements. -/
def more (close : Char) (x : α) (next : Text → Except Fault (List α × Text)) : Text → Except Fault (List α × Text)
  | [] => .error .malformed
  | c :: t =>
    if c = ',' then (next (skip t)).map fun r => (x :: r.1, r.2)
    else if c = close then .ok ([x], t) else .error .malformed

theorem value_quote (fuel : Nat) (u : Text) :
    value (fuel + 1) ('"' :: u) = (needed (string? (u.length + 1) u)).map fun r => (.text r.1, r.2) := by
  show (needed (string? (u.length + 1) u) >>= fun r => .ok (Value.text r.1, r.2)) = _
  cases string? (u.length + 1) u <;> rfl

theorem items_succ (fuel : Nat) (t : Text) :
    items (fuel + 1) t = value fuel t >>= fun r => more ']' r.1 (items fuel) (skip r.2) := by
  rw [items]
  cases value fuel t with
  | error e => rfl
  | ok r =>
    rw [ok_bind, ok_bind]
    dsimp only
    cases skip r.2 with
    | nil => rfl
    | cons c t =>
      rw [more]
      split
      · next t heq =>
        cases heq
        rw [if_pos rfl]
        cases items fuel (skip t) <;> rfl
      · next heq =>
        cases heq
        rfl
      · next hcomma hclose =>
        rw [if_neg fun h => hcomma t (congrArg (· :: t) h), if_neg fun h => hclose t (congrArg (· :: t) h)]

theorem fields_after (fuel : Nat) (x : Text × Value) (t : Text) :
    (match t with
      | ',' :: t => do
        let (fs, t) ← fields fuel (skip t)
        return (x :: fs, t)
      | '\x7d' :: t => return ([x], t)
      | _ => .error .malformed) = more '\x7d' x (fields fuel) t := by
  cases t with
  | nil => rfl
  | cons c t =>
    rw [more]
    split
    · next t heq =>
      cases heq
      rw [if_pos rfl]
      cases fields fuel (skip t) <;> rfl
    · next heq =>
      cases heq
      rfl
    · next hcomma hclose =>
      rw [if_neg fun h => hcomma t (congrArg (· :: t) h), if_neg fun h => hclose t (congrArg (· :: t) h)]

theorem fields_succ (fuel : Nat) (t : Text) :
    fields (fuel + 1) t = member fuel t >>= fun r => more '\x7d' r.1 (fields fuel) (skip r.2) := by
  fun_cases member fuel t with
  | case1 t =>
    rw [fields]
    cases string? (t.length + 1) t with
    | none => rfl
    | some r =>
      rw [needed, ok_bind, ok_bind]
      dsimp only
      cases hcolon : skip r.2 with
      | nil => rfl
      | cons c t =>
        by_cases hc : c = ':'
        · subst hc
          show (value fuel (skip t) >>= fun q => _)
            = ((value fuel (skip t)).map fun q => ((r.1, q.1), q.2)) >>= fun f => more '\x7d' f.1 (fields fuel) (skip f.2)
          cases value fuel (skip t) with
          | error e => rfl
          | ok q => exact fields_after fuel (r.1, q.1) (skip q.2)
        · simp only [List.cons.injEq, hc, false_and, false_implies, implies_true]
          rfl
  | case2 t hquote =>
    rw [fields]
    · rfl
    · exact hquote

/-- A list by what stands behind its bracket. -/
theorem value_list (fuel : Nat) (u : Text) :
    value (fuel + 1) ('[' :: u) = match skip u with
      | ']' :: v => .ok (.list [], v)
      | v => items fuel v >>= fun r => .ok (.list r.1, r.2) := rfl

theorem value_list_closed (fuel : Nat) (h : skip u = ']' :: v) : value (fuel + 1) ('[' :: u) = .ok (.list [], v) := by
  rw [value_list, h]
  rfl

theorem value_list_open (fuel : Nat) (h : ∀ v, skip u ≠ ']' :: v) :
    value (fuel + 1) ('[' :: u) = (items fuel (skip u)).map fun r => (.list r.1, r.2) := by
  rw [value_list]
  split
  · next v heq => exact absurd heq (h v)
  · cases items fuel (skip u) <;> rfl

/-- An object by what stands behind its brace. -/
theorem value_object (fuel : Nat) (u : Text) :
    value (fuel + 1) ('\x7b' :: u) = match skip u with
      | '\x7d' :: v => .ok (.object [], v)
      | v => fields fuel v >>= fun r => .ok (.object (Fields.ofEntries r.1), r.2) := rfl

theorem value_object_closed (fuel : Nat) (h : skip u = '\x7d' :: v) :
    value (fuel + 1) ('\x7b' :: u) = .ok (.object [], v) := by
  rw [value_object, h]
  rfl

theorem value_object_open (fuel : Nat) (h : ∀ v, skip u ≠ '\x7d' :: v) :
    value (fuel + 1) ('\x7b' :: u) = (fields fuel (skip u)).map fun r => (.object (Fields.ofEntries r.1), r.2) := by
  rw [value_object]
  split
  · next v heq => exact absurd heq (h v)
  · cases fields fuel (skip u) <;> rfl

-- ---------------------------------------------------------------------------
-- What is read is written
-- ---------------------------------------------------------------------------

/-- What the reader gives at a place is what the text there writes; if it breaks off, it does so for a reason. -/
structure IsSound (phrase : α → Phrase) (place : Place) (t : Text) (r : Except Fault (α × Text)) : Prop where
  ok : ∀ x rest, r = .ok (x, rest) → ∃ u, t = u ++ rest ∧ Writes u (phrase x)
  breaks : ∀ n, r = .error (.tooManyDigits n) → Breaks place t

/-- Elements between commas, up to a closing bracket. -/
structure IsSequence (one : α → Phrase) (many : List α → Phrase) (place places : Place) (close : Char) : Prop where
  last : ∀ {u gap x}, Writes u (one x) → IsGap gap → Writes (u ++ (gap ++ [close])) (many [x])
  cons : ∀ {u gap gap' v x xs}, Writes u (one x) → IsGap gap → IsGap gap' → Writes v (many xs) →
    Writes (u ++ (gap ++ ',' :: (gap' ++ v))) (many (x :: xs))
  first : ∀ {t}, Breaks place t → Breaks places t
  later : ∀ {u gap gap' v x}, Writes u (one x) → IsGap gap → IsGap gap' → Breaks places v →
    Breaks places (u ++ (gap ++ ',' :: (gap' ++ v)))

theorem isSequence_items : IsSequence .value .items .value .items ']' := ⟨.lastItem, .item, .firstItem, .laterItem⟩

theorem isSequence_members : IsSequence .member .members .member .members '\x7d' :=
  ⟨.lastMember, .cons, .firstMember, .laterMember⟩

variable {one : α → Phrase} {many : List α → Phrase} {place places : Place} {close : Char}
  {r : Except Fault (α × Text)} {next : Text → Except Fault (List α × Text)}

theorem IsSequence.isSound (hseq : IsSequence one many place places close) (hr : IsSound one place t r)
    (hnext : ∀ t, IsSound many places t (next t)) :
    IsSound many places t (r >>= fun q => more close q.1 next (skip q.2)) := by
  cases r with
  | error e =>
    refine ⟨fun _ _ h => (by cases h), fun n hn => hseq.first (hr.breaks n ?_)⟩
    cases hn
    rfl
  | ok q =>
    obtain ⟨x, v⟩ := q
    obtain ⟨u, rfl, hu⟩ := hr.ok x v rfl
    obtain ⟨gap, hgap, hv⟩ := exists_gap v
    rw [ok_bind]
    dsimp only
    generalize skip v = w at hv
    subst hv
    fun_cases more close x next w with
    | case1 => exact ⟨nofun, nofun⟩
    | case2 w =>
      obtain ⟨gap', hgap', hw⟩ := exists_gap w
      refine ⟨fun xs rest h => ?_, fun n h => ?_⟩
      · obtain ⟨⟨xs', rest'⟩, hok, heq⟩ := exists_of_map_eq_ok h
        cases heq
        obtain ⟨v, hv, hwrites⟩ := (hnext (skip w)).ok _ _ hok
        refine ⟨_, ?_, hseq.cons hu hgap hgap' hwrites⟩
        rw [hw, hv]
        simp
      · have hbreaks := (hnext (skip w)).breaks n (eq_error_of_map_eq_error h)
        rw [hw]
        exact hseq.later hu hgap hgap' hbreaks
    | case3 w =>
      refine ⟨fun xs rest h => ?_, nofun⟩
      cases h
      exact ⟨_, by simp, hseq.last hu hgap⟩
    | case4 c w => exact ⟨nofun, nofun⟩

theorem isSound_member (hvalue : ∀ t, IsSound .value .value t (value fuel t)) (t : Text) :
    IsSound .member .member t (member fuel t) := by
  fun_cases member fuel t with
  | case1 t =>
    cases hstring : string? (t.length + 1) t with
    | none => exact ⟨nofun, nofun⟩
    | some q =>
      obtain ⟨k, v⟩ := q
      obtain ⟨u, rfl, hkey⟩ := exists_of_string? hstring
      obtain ⟨gap, hgap, hv⟩ := exists_gap v
      rw [needed, ok_bind]
      dsimp only
      generalize skip v = w at hv
      subst hv
      split
      · next w =>
        obtain ⟨gap', hgap', hw⟩ := exists_gap w
        refine ⟨fun f rest h => ?_, fun n h => ?_⟩
        · obtain ⟨⟨x, rest'⟩, hok, heq⟩ := exists_of_map_eq_ok h
          cases heq
          obtain ⟨v, hv, hwrites⟩ := (hvalue (skip w)).ok _ _ hok
          refine ⟨_, ?_, .member hkey hgap hgap' hwrites⟩
          rw [hw, hv]
          simp
        · have hbreaks := (hvalue (skip w)).breaks n (eq_error_of_map_eq_error h)
          rw [hw]
          exact .member hkey hgap hgap' hbreaks
      · exact ⟨nofun, nofun⟩
  | case2 => exact ⟨nofun, nofun⟩

theorem isSound_number (t : Text) : IsSound .value .value t (numeral t) := by
  rcases exists_numeral t with hmalformed | ⟨k, v, rfl, hk, houtcome, hends⟩
  · rw [hmalformed]
    exact ⟨nofun, nofun⟩
  · rw [houtcome, Numeral.outcome]
    split
    · next h =>
      refine ⟨nofun, fun n _ => .number hk h.1 h.2 (hends h.1 fun hzero => ?_)⟩
      have hlong := h.2
      rw [hzero] at hlong
      exact absurd hlong (by decide)
    · refine ⟨fun x rest h => ?_, nofun⟩
      cases h
      exact ⟨k.text, rfl, .number hk⟩

theorem isSound_list (hitems : ∀ t, IsSound .items .items t (items fuel t)) (t : Text) :
    IsSound .value .value ('[' :: t) (value (fuel + 1) ('[' :: t)) := by
  obtain ⟨gap, hgap, ht⟩ := exists_gap t
  by_cases hclosed : ∃ v, skip t = ']' :: v
  · obtain ⟨v, hv⟩ := hclosed
    rw [value_list_closed fuel hv]
    refine ⟨fun x rest h => ?_, nofun⟩
    cases h
    exact ⟨_, by rw [ht, hv]; simp, .noItems hgap⟩
  · rw [value_list_open fuel fun v hv => hclosed ⟨v, hv⟩]
    refine ⟨fun x rest h => ?_, fun n h => ?_⟩
    · obtain ⟨⟨xs, rest'⟩, hok, heq⟩ := exists_of_map_eq_ok h
      cases heq
      obtain ⟨u, hu, hwrites⟩ := (hitems (skip t)).ok _ _ hok
      exact ⟨_, by rw [ht, hu]; simp, .list hgap hwrites⟩
    · rw [ht]
      exact .list hgap ((hitems (skip t)).breaks n (eq_error_of_map_eq_error h))

theorem isSound_object (hmembers : ∀ t, IsSound .members .members t (fields fuel t)) (t : Text) :
    IsSound .value .value ('\x7b' :: t) (value (fuel + 1) ('\x7b' :: t)) := by
  obtain ⟨gap, hgap, ht⟩ := exists_gap t
  by_cases hclosed : ∃ v, skip t = '\x7d' :: v
  · obtain ⟨v, hv⟩ := hclosed
    rw [value_object_closed fuel hv]
    refine ⟨fun x rest h => ?_, nofun⟩
    cases h
    exact ⟨_, by rw [ht, hv]; simp, .noMembers hgap⟩
  · rw [value_object_open fuel fun v hv => hclosed ⟨v, hv⟩]
    refine ⟨fun x rest h => ?_, fun n h => ?_⟩
    · obtain ⟨⟨fs, rest'⟩, hok, heq⟩ := exists_of_map_eq_ok h
      cases heq
      obtain ⟨u, hu, hwrites⟩ := (hmembers (skip t)).ok _ _ hok
      exact ⟨_, by rw [ht, hu]; simp, .object hgap hwrites⟩
    · rw [ht]
      exact .object hgap ((hmembers (skip t)).breaks n (eq_error_of_map_eq_error h))

theorem isSound_value (hitems : ∀ t, IsSound .items .items t (items fuel t))
    (hmembers : ∀ t, IsSound .members .members t (fields fuel t)) (t : Text) :
    IsSound .value .value t (value (fuel + 1) t) := by
  by_cases hother : ∀ c ∈ t.head?, c ≠ '"' ∧ c ≠ '[' ∧ c ≠ '\x7b'
  · rw [value_of_other hother]
    cases hword : word? t with
    | none => exact isSound_number t
    | some r =>
      obtain ⟨w, hw, hmem⟩ := exists_of_word? hword
      refine ⟨fun x rest h => ?_, nofun⟩
      cases h
      exact ⟨w, hw, .word hmem⟩
  · obtain ⟨c, hc, hkind⟩ : ∃ c, t.head? = some c ∧ ¬ (c ≠ '"' ∧ c ≠ '[' ∧ c ≠ '\x7b') := by
      simpa only [not_forall, exists_prop, Option.mem_def] using hother
    obtain ⟨t, rfl⟩ := List.head?_eq_some_iff.1 hc
    obtain rfl | rfl | rfl : c = '"' ∨ c = '[' ∨ c = '\x7b' := by
      by_contra h
      exact hkind ⟨fun h' => h (.inl h'), fun h' => h (.inr (.inl h')), fun h' => h (.inr (.inr h'))⟩
    · rw [value_quote]
      cases hstring : string? (t.length + 1) t with
      | none => exact ⟨nofun, nofun⟩
      | some r =>
        obtain ⟨u, rfl, hu⟩ := exists_of_string? hstring
        refine ⟨fun x rest h => ?_, nofun⟩
        cases h
        exact ⟨_, by simp, .text hu⟩
    · exact isSound_list hitems t
    · exact isSound_object hmembers t

/-- What the reader gives is what the text writes, and where it breaks off there is an integer of too many digits. -/
theorem isSound (fuel : Nat) : (∀ t, IsSound .value .value t (value fuel t))
    ∧ (∀ t, IsSound .items .items t (items fuel t)) ∧ ∀ t, IsSound .members .members t (fields fuel t) := by
  induction fuel with
  | zero => exact ⟨fun t => ⟨nofun, nofun⟩, fun t => ⟨nofun, nofun⟩, fun t => ⟨nofun, nofun⟩⟩
  | succ fuel ih =>
    obtain ⟨hvalue, hitems, hmembers⟩ := ih
    refine ⟨isSound_value hitems hmembers, fun t => ?_, fun t => ?_⟩
    · rw [items_succ]
      exact isSequence_items.isSound (hvalue t) hitems
    · rw [fields_succ]
      exact isSequence_members.isSound (isSound_member hvalue t) hmembers

-- ---------------------------------------------------------------------------
-- What is written is read
-- ---------------------------------------------------------------------------

/-- The first character of a value or a member: neither between tokens nor a closing bracket. -/
structure IsStart (c : Char) : Prop where
  space : isSpace c = false
  bracket : c ≠ ']'
  brace : c ≠ '\x7d'

theorem isStart_of_token (hc : c.isDigit = true ∨ c.isAlpha = true ∨ c = '-') : IsStart c := by
  refine ⟨Bool.eq_false_iff.2 fun h => ?_, ?_, ?_⟩
  · simp only [isSpace, Bool.or_eq_true, decide_eq_true_eq] at h
    rcases h with ((rfl | rfl) | rfl) | rfl
    all_goals
      revert hc
      decide
  · rintro rfl
    revert hc
    decide
  · rintro rfl
    revert hc
    decide

theorem Writes.exists_cons {p : Phrase} (h : Writes u p) : ∃ c v, u = c :: v ∧ IsStart c := by
  induction h with
  | text | noItems | list | noMembers | object | member => exact ⟨_, _, rfl, by decide, by decide, by decide⟩
  | word h =>
    obtain ⟨a, b, w, rfl, -, -, ha⟩ := exists_of_mem_words h
    exact ⟨a, b :: w, rfl, isStart_of_token (.inr ha)⟩
  | @number k h =>
    obtain ⟨c, v, hbody, hc⟩ := exists_digit_of_body h
    rw [Numeral.text, hbody]
    split
    · exact ⟨'-', _, rfl, isStart_of_token (.inr (.inr rfl))⟩
    · exact ⟨c, v, rfl, isStart_of_token (.inl hc)⟩
  | lastItem _ _ ih | lastMember _ _ ih | item _ _ _ _ ih _ | cons _ _ _ _ ih _ =>
    obtain ⟨c, v, rfl, hc⟩ := ih
    exact ⟨c, _, rfl, hc⟩

theorem Breaks.exists_cons (h : Breaks place t) : ∃ c v, t = c :: v ∧ IsStart c := by
  induction h with
  | @number k v h =>
    obtain ⟨c, u, hu, hc⟩ := (Writes.number h).exists_cons
    rw [hu]
    exact ⟨c, u ++ v, rfl, hc⟩
  | list | object | member => exact ⟨_, _, rfl, by decide, by decide, by decide⟩
  | firstItem _ ih | firstMember _ ih => exact ih
  | laterItem h | laterMember h =>
    obtain ⟨c, v, rfl, hc⟩ := h.exists_cons
    exact ⟨c, _, rfl, hc⟩

theorem not_continues_of_head (h : ∀ c ∈ v.head?, c.isDigit = false ∧ c ≠ '.' ∧ c ≠ 'e' ∧ c ≠ 'E') : ¬ Continues v := by
  rintro (hdigit | ⟨c, u, rfl, -⟩ | ⟨x, u, rfl, hx⟩)
  · cases v with
    | nil => cases hdigit
    | cons c v =>
      rw [List.head?_cons, Option.any_some, (h c rfl).1] at hdigit
      cases hdigit
  · exact (h '.' rfl).2.1 rfl
  · obtain ⟨-, -, he, hE⟩ := h x.letter rfl
    exact hx.letter.elim he hE

/-- No number goes on behind a gap or a mark. -/
theorem not_continues_gap (hgap : IsGap gap) (hc : ∀ c ∈ v.head?, c = ',' ∨ c = ']' ∨ c = '\x7d') :
    ¬ Continues (gap ++ v) := by
  refine not_continues_of_head fun c hhead => ?_
  cases gap with
  | nil => rcases hc c hhead with rfl | rfl | rfl <;> decide
  | cons d gap =>
    obtain rfl := Option.some.inj hhead
    have hd := hgap d List.mem_cons_self
    simp only [isSpace, Bool.or_eq_true, decide_eq_true_eq] at hd
    rcases hd with ((rfl | rfl) | rfl) | rfl <;> decide

/-- The reader breaks off. -/
def IsBroken (r : Except Fault α) : Prop := ∃ n, r = .error (.tooManyDigits n)

/-- The reader gives something, unless it breaks off before. -/
def Takes (r : Except Fault α) (a : α) : Prop := r = .ok a ∨ IsBroken r

variable {β : Type} {a : α} {b : β} {x : Except Fault α} {f : α → Except Fault β}

theorem IsBroken.bind (h : IsBroken x) (f : α → Except Fault β) : IsBroken (x >>= f) := by
  obtain ⟨n, rfl⟩ := h
  exact ⟨n, rfl⟩

theorem Takes.bind (hx : Takes x a) (hf : Takes (f a) b) : Takes (x >>= f) b := by
  rcases hx with rfl | hx
  · exact hf
  · exact .inr (hx.bind f)

theorem Takes.bind_isBroken (hx : Takes x a) (hf : IsBroken (f a)) : IsBroken (x >>= f) := by
  rcases hx with rfl | hx
  · exact hf
  · exact hx.bind f

theorem IsBroken.map (h : IsBroken x) (g : α → β) : IsBroken (x.map g) := by
  obtain ⟨n, rfl⟩ := h
  exact ⟨n, rfl⟩

theorem Takes.map (h : Takes x a) (g : α → β) : Takes (x.map g) (g a) := by
  rcases h with rfl | h
  · exact .inl rfl
  · exact .inr (h.map g)

theorem more_comma (close : Char) (y : α) (next : Text → Except Fault (List α × Text)) (t : Text) :
    more close y next (',' :: t) = (next (skip t)).map fun q => (y :: q.1, q.2) := by
  rw [more, if_pos rfl]

theorem more_close (hclose : close ≠ ',') (y : α) (next : Text → Except Fault (List α × Text)) (t : Text) :
    more close y next (close :: t) = .ok ([y], t) := by
  rw [more, if_neg hclose, if_pos rfl]

/-- Wherever a text stands that no number goes on behind, a reader takes it and leaves the rest. -/
def IsTaken (read : Nat → Text → Except Fault (α × Text)) (u : Text) (a : α) : Prop :=
  ∀ rest fuel, ¬ Continues rest → u.length ≤ fuel → Takes (read fuel (u ++ rest)) (a, rest)

/-- A reader breaks off in a text, if it has the fuel to come that far. -/
def IsBrokenIn (read : Nat → Text → Except Fault (α × Text)) (t : Text) (need : Nat) : Prop :=
  ∀ fuel, need ≤ fuel → IsBroken (read fuel t)

-- ---------------------------------------------------------------------------
-- Elements between commas
-- ---------------------------------------------------------------------------

variable {readOne : Nat → Text → Except Fault (α × Text)} {readMany : Nat → Text → Except Fault (List α × Text)}
  {gap' : Text} {as : List α}

/-- A reader of elements between commas, up to a closing bracket, reads one after the other. -/
structure ReadsSequence (readOne : Nat → Text → Except Fault (α × Text))
    (readMany : Nat → Text → Except Fault (List α × Text)) (close : Char) : Prop where
  isClose : close = ']' ∨ close = '\x7d'
  step : ∀ fuel t, readMany (fuel + 1) t = readOne fuel t >>= fun q => more close q.1 (readMany fuel) (skip q.2)

theorem readsSequence_items : ReadsSequence value items ']' := ⟨.inl rfl, items_succ⟩

theorem readsSequence_fields : ReadsSequence member fields '\x7d' := ⟨.inr rfl, fields_succ⟩

theorem ReadsSequence.last (hread : ReadsSequence readOne readMany close) (hone : IsTaken readOne t a)
    (hgap : IsGap gap) : IsTaken readMany (t ++ (gap ++ [close])) [a] := by
  intro rest fuel _ hfuel
  simp only [List.length_append, List.length_singleton] at hfuel
  obtain ⟨fuel, rfl⟩ : ∃ k, fuel = k + 1 := ⟨fuel - 1, by omega⟩
  have hends : ¬ Continues (gap ++ close :: rest) := not_continues_gap hgap fun c hc => by
    obtain rfl := Option.some.inj hc
    exact .inr hread.isClose
  have hclose : close ≠ ',' ∧ isSpace close = false := by rcases hread.isClose with rfl | rfl <;> decide
  rw [List.append_assoc, List.append_assoc, List.singleton_append, hread.step]
  refine (hone _ fuel hends (by omega)).bind (.inl ?_)
  rw [skip_append_cons hgap hclose.2, more_close hclose.1]

theorem more_gap_comma (hgap : IsGap gap) (hgap' : IsGap gap') (hc : IsStart c) (a : α) (v : Text) :
    more close a next (skip (gap ++ ',' :: (gap' ++ c :: v))) = (next (c :: v)).map fun q => (a :: q.1, q.2) := by
  rw [skip_append_cons hgap rfl, more_comma, skip_append_cons hgap' hc.space]

theorem ReadsSequence.cons (hread : ReadsSequence readOne readMany close) (hone : IsTaken readOne t a)
    (hgap : IsGap gap) (hgap' : IsGap gap') (hc : IsStart c) (hmany : IsTaken readMany (c :: v) as) :
    IsTaken readMany (t ++ (gap ++ ',' :: (gap' ++ c :: v))) (a :: as) := by
  intro rest fuel hrest hfuel
  simp only [List.length_append, List.length_cons] at hfuel
  obtain ⟨fuel, rfl⟩ : ∃ k, fuel = k + 1 := ⟨fuel - 1, by omega⟩
  have hends : ¬ Continues (gap ++ ',' :: (gap' ++ c :: (v ++ rest))) := not_continues_gap hgap (by simp)
  have hsplit : t ++ (gap ++ ',' :: (gap' ++ c :: v)) ++ rest = t ++ (gap ++ ',' :: (gap' ++ c :: (v ++ rest))) := by
    simp
  rw [hsplit, hread.step]
  refine (hone _ fuel hends (by omega)).bind ?_
  rw [more_gap_comma hgap hgap' hc]
  exact (hmany rest fuel hrest (by rw [List.length_cons]; omega)).map _

theorem ReadsSequence.breaks_first (hread : ReadsSequence readOne readMany close)
    (h : IsBrokenIn readOne t (2 * t.length)) : IsBrokenIn readMany t (2 * t.length + 1) := by
  intro fuel hfuel
  obtain ⟨fuel, rfl⟩ : ∃ k, fuel = k + 1 := ⟨fuel - 1, by omega⟩
  rw [hread.step]
  exact (h fuel (by omega)).bind _

theorem ReadsSequence.breaks_later (hread : ReadsSequence readOne readMany close) (hone : IsTaken readOne t a)
    (hgap : IsGap gap) (hgap' : IsGap gap') (hc : IsStart c)
    (hmany : IsBrokenIn readMany (c :: v) (2 * (c :: v).length + 1)) :
    IsBrokenIn readMany (t ++ (gap ++ ',' :: (gap' ++ c :: v)))
      (2 * (t ++ (gap ++ ',' :: (gap' ++ c :: v))).length + 1) := by
  intro fuel hfuel
  simp only [List.length_append, List.length_cons] at hfuel
  obtain ⟨fuel, rfl⟩ : ∃ k, fuel = k + 1 := ⟨fuel - 1, by omega⟩
  have hends : ¬ Continues (gap ++ ',' :: (gap' ++ c :: v)) := not_continues_gap hgap (by simp)
  rw [hread.step]
  refine (hone _ fuel hends (by omega)).bind_isBroken ?_
  rw [more_gap_comma hgap hgap' hc]
  exact (hmany fuel (by rw [List.length_cons]; omega)).map _

-- ---------------------------------------------------------------------------
-- Values and members
-- ---------------------------------------------------------------------------

theorem string?_of_spellsAll (h : SpellsAll u s) (rest : Text) :
    string? ((u ++ '"' :: rest).length + 1) (u ++ '"' :: rest) = some (s, rest) := by
  refine string?_append h rest ?_
  rw [List.length_append]
  omega

theorem member_append {k : Text} (hkey : SpellsAll u k) (hgap : IsGap gap) (hgap' : IsGap gap') (hc : IsStart c)
    (v : Text) (fuel : Nat) : member fuel ('"' :: (u ++ '"' :: (gap ++ ':' :: (gap' ++ c :: v))))
      = (value fuel (c :: v)).map fun r => ((k, r.1), r.2) := by
  rw [member, string?_of_spellsAll hkey, needed, ok_bind]
  dsimp only
  rw [skip_append_cons hgap rfl]
  show (value fuel (skip (gap' ++ c :: v))).map _ = _
  rw [skip_append_cons hgap' hc.space]

theorem exists_succ (h : (c :: v).length ≤ fuel) : ∃ k, fuel = k + 1 ∧ v.length ≤ k :=
  ⟨fuel - 1, by simp only [List.length_cons] at h; omega, by simp only [List.length_cons] at h; omega⟩

theorem value_word {w : Text} {y : Value} (h : (w, y) ∈ words) (fuel : Nat) (rest : Text) :
    value (fuel + 1) (w ++ rest) = .ok (y, rest) := by
  obtain ⟨a, b, u, rfl, -, -, ha⟩ := exists_of_mem_words h
  rw [value_of_other, word?_append h, Option.elim_some]
  rintro c hc
  obtain rfl := Option.some.inj hc
  refine ⟨?_, ?_, ?_⟩
  all_goals
    rintro rfl
    revert ha
    decide

theorem value_number {k : Numeral} (hk : k.IsValid) (hrest : ¬ Continues rest) (fuel : Nat) :
    value (fuel + 1) (k.text ++ rest) = k.outcome rest := by
  rw [value_of_other, word?_text_append hk, Option.elim_none]
  · exact numeral_append hk hrest
  · obtain ⟨c, u, hbody, hc⟩ := exists_digit_of_body hk
    rw [Numeral.text, hbody]
    split
    · rintro d hd
      obtain rfl := Option.some.inj hd
      decide
    · rintro d hd
      obtain rfl := Option.some.inj hd
      refine ⟨?_, ?_, ?_⟩
      all_goals
        rintro rfl
        cases hc

theorem value_list_append (hgap : IsGap gap) (hc : IsStart c) (fuel : Nat) (v : Text) :
    value (fuel + 1) ('[' :: (gap ++ c :: v)) = (items fuel (c :: v)).map fun r => (.list r.1, r.2) := by
  have hskip := skip_append_cons hgap hc.space v
  rw [value_list_open fuel fun w hw => hc.bracket (List.cons.inj (hskip.symm.trans hw)).1, hskip]

theorem value_object_append (hgap : IsGap gap) (hc : IsStart c) (fuel : Nat) (v : Text) :
    value (fuel + 1) ('\x7b' :: (gap ++ c :: v))
      = (fields fuel (c :: v)).map fun r => (.object (Fields.ofEntries r.1), r.2) := by
  have hskip := skip_append_cons hgap hc.space v
  rw [value_object_open fuel fun w hw => hc.brace (List.cons.inj (hskip.symm.trans hw)).1, hskip]

/-- What a phrase is read by, and what it is read as. -/
def Phrase.IsTaken (u : Text) : Phrase → Prop
  | .value y => Json.IsTaken Json.value u y
  | .member f => Json.IsTaken Json.member u f
  | .items ys => Json.IsTaken Json.items u ys
  | .members fs => Json.IsTaken fields u fs

/-- What a text writes the reader takes, unless it breaks off before. -/
theorem Writes.isTaken {p : Phrase} (h : Writes u p) : p.IsTaken u := by
  induction h with
  | text h =>
    intro rest fuel _ hfuel
    obtain ⟨fuel, rfl, -⟩ := exists_succ hfuel
    left
    rw [List.cons_append, List.append_assoc, List.singleton_append, value_quote, string?_of_spellsAll h]
    rfl
  | word h =>
    intro rest fuel _ hfuel
    obtain ⟨c, v, rfl, -⟩ := (Writes.word h).exists_cons
    obtain ⟨fuel, rfl, -⟩ := exists_succ hfuel
    exact .inl (value_word h fuel rest)
  | number h =>
    intro rest fuel hrest hfuel
    obtain ⟨c, v, hcons, -⟩ := (Writes.number h).exists_cons
    rw [hcons] at hfuel
    obtain ⟨fuel, rfl, -⟩ := exists_succ hfuel
    rw [value_number h hrest, Numeral.outcome]
    split
    · exact .inr ⟨_, rfl⟩
    · exact .inl rfl
  | noItems hgap =>
    intro rest fuel _ hfuel
    obtain ⟨fuel, rfl, -⟩ := exists_succ hfuel
    rw [List.cons_append, List.append_assoc, List.singleton_append]
    exact .inl (value_list_closed fuel (skip_append_cons hgap rfl rest))
  | list hgap h ih =>
    intro rest fuel hrest hfuel
    obtain ⟨fuel, rfl, hle⟩ := exists_succ hfuel
    obtain ⟨c, v, rfl, hc⟩ := h.exists_cons
    rw [List.length_append] at hle
    rw [List.cons_append, List.append_assoc, List.cons_append, value_list_append hgap hc]
    exact (ih rest fuel hrest (by omega)).map _
  | noMembers hgap =>
    intro rest fuel _ hfuel
    obtain ⟨fuel, rfl, -⟩ := exists_succ hfuel
    rw [List.cons_append, List.append_assoc, List.singleton_append]
    exact .inl (value_object_closed fuel (skip_append_cons hgap rfl rest))
  | object hgap h ih =>
    intro rest fuel hrest hfuel
    obtain ⟨fuel, rfl, hle⟩ := exists_succ hfuel
    obtain ⟨c, v, rfl, hc⟩ := h.exists_cons
    rw [List.length_append] at hle
    rw [List.cons_append, List.append_assoc, List.cons_append, value_object_append hgap hc]
    exact (ih rest fuel hrest (by omega)).map _
  | @member u k gap gap' t y hkey hgap hgap' h ih =>
    intro rest fuel hrest hfuel
    obtain ⟨c, v, rfl, hc⟩ := h.exists_cons
    have hle : (c :: v).length ≤ fuel := by
      simp only [List.length_append, List.length_cons] at hfuel ⊢
      omega
    have hsplit : '"' :: (u ++ '"' :: (gap ++ ':' :: (gap' ++ c :: v))) ++ rest
        = '"' :: (u ++ '"' :: (gap ++ ':' :: (gap' ++ c :: (v ++ rest)))) := by simp
    rw [hsplit, member_append hkey hgap hgap' hc]
    exact (ih rest fuel hrest hle).map _
  | lastItem h hgap ih => exact readsSequence_items.last ih hgap
  | item h hgap hgap' hrest ih ihrest =>
    obtain ⟨c, v, rfl, hc⟩ := hrest.exists_cons
    exact readsSequence_items.cons ih hgap hgap' hc ihrest
  | lastMember h hgap ih => exact readsSequence_fields.last ih hgap
  | cons h hgap hgap' hrest ih ihrest =>
    obtain ⟨c, v, rfl, hc⟩ := hrest.exists_cons
    exact readsSequence_fields.cons ih hgap hgap' hc ihrest

/-- The reader breaks off at a place. A bracket takes fuel twice, for the list and for its first item. -/
def Place.IsBroken (t : Text) : Place → Prop
  | .value => IsBrokenIn Json.value t (2 * t.length)
  | .member => IsBrokenIn Json.member t (2 * t.length)
  | .items => IsBrokenIn Json.items t (2 * t.length + 1)
  | .members => IsBrokenIn fields t (2 * t.length + 1)

theorem Breaks.isBroken (h : Breaks place t) : place.IsBroken t := by
  induction h with
  | @number k v h hinteger hlong hv =>
    intro fuel hfuel
    obtain ⟨c, u, hcons, -⟩ := (Breaks.number h hinteger hlong hv).exists_cons
    rw [hcons, List.length_cons] at hfuel
    obtain ⟨fuel, rfl⟩ : ∃ k, fuel = k + 1 := ⟨fuel - 1, by omega⟩
    rw [value_number h hv, Numeral.outcome, if_pos ⟨hinteger, hlong⟩]
    exact ⟨_, rfl⟩
  | list hgap h ih =>
    intro fuel hfuel
    simp only [List.length_append, List.length_cons] at hfuel
    obtain ⟨fuel, rfl⟩ : ∃ k, fuel = k + 1 := ⟨fuel - 1, by omega⟩
    obtain ⟨c, v, rfl, hc⟩ := h.exists_cons
    rw [value_list_append hgap hc]
    exact (ih fuel (by omega)).map _
  | object hgap h ih =>
    intro fuel hfuel
    simp only [List.length_append, List.length_cons] at hfuel
    obtain ⟨fuel, rfl⟩ : ∃ k, fuel = k + 1 := ⟨fuel - 1, by omega⟩
    obtain ⟨c, v, rfl, hc⟩ := h.exists_cons
    rw [value_object_append hgap hc]
    exact (ih fuel (by omega)).map _
  | member hkey hgap hgap' h ih =>
    intro fuel hfuel
    simp only [List.length_append, List.length_cons] at hfuel
    obtain ⟨c, v, rfl, hc⟩ := h.exists_cons
    rw [member_append hkey hgap hgap' hc]
    exact (ih fuel (by omega)).map _
  | firstItem h ih => exact readsSequence_items.breaks_first ih
  | laterItem h hgap hgap' hrest ih =>
    obtain ⟨c, v, rfl, hc⟩ := hrest.exists_cons
    exact readsSequence_items.breaks_later h.isTaken hgap hgap' hc ih
  | firstMember h ih => exact readsSequence_fields.breaks_first ih
  | laterMember h hgap hgap' hrest ih =>
    obtain ⟨c, v, rfl, hc⟩ := hrest.exists_cons
    exact readsSequence_fields.breaks_later h.isTaken hgap hgap' hc ih

-- ---------------------------------------------------------------------------
-- Whole texts
-- ---------------------------------------------------------------------------

variable {y : Value}

theorem skip_eq_nil_iff : skip t = [] ↔ IsGap t := by
  rw [skip, List.dropWhile_eq_nil_iff]
  rfl

theorem read_eq (t : Text) :
    read t = value (2 * t.length + 1) (skip t) >>= fun q => if skip q.2 = [] then .ok q.1 else .error .malformed := rfl

theorem isText_of_read (h : read t = .ok y) : IsText t y := by
  rw [read_eq] at h
  obtain ⟨⟨v, rest⟩, hvalue, h⟩ := exists_of_bind_eq_ok h
  split at h
  · next hrest =>
    cases h
    obtain ⟨gap, hgap, ht⟩ := exists_gap t
    obtain ⟨u, hu, hwrites⟩ := ((isSound _).1 (skip t)).ok _ _ hvalue
    exact ⟨gap, u, rest, by rw [← hu, ← ht], hgap, skip_eq_nil_iff.1 hrest, hwrites⟩
  · cases h

theorem breaksOff_of_read (h : read t = .error (.tooManyDigits n)) : BreaksOff t := by
  obtain ⟨gap, hgap, ht⟩ := exists_gap t
  refine ⟨gap, skip t, ht, hgap, ((isSound (2 * t.length + 1)).1 (skip t)).breaks n ?_⟩
  rw [read_eq] at h
  cases hvalue : value (2 * t.length + 1) (skip t) with
  | error e =>
    rw [hvalue, error_bind] at h
    cases h
    rfl
  | ok q =>
    rw [hvalue, ok_bind] at h
    split at h <;> cases h

theorem IsText.takes_read (h : IsText t y) : Takes (read t) y := by
  obtain ⟨gap, u, gap', rfl, hgap, hgap', hwrites⟩ := h
  obtain ⟨c, v, rfl, hc⟩ := hwrites.exists_cons
  have hends : ¬ Continues gap' := by
    have h := not_continues_gap (v := []) hgap' nofun
    rwa [List.append_nil] at h
  have htaken := hwrites.isTaken gap' (2 * (gap ++ (c :: v ++ gap')).length + 1) hends (by
    simp only [List.length_append]
    omega)
  rw [read_eq, List.cons_append, skip_append_cons hgap hc.space]
  exact htaken.bind (.inl (if_pos (skip_eq_nil_iff.2 hgap')))

theorem BreaksOff.isBroken_read (h : BreaksOff t) : IsBroken (read t) := by
  obtain ⟨gap, u, rfl, hgap, hbreaks⟩ := h
  obtain ⟨c, v, rfl, hc⟩ := hbreaks.exists_cons
  have hbroken := hbreaks.isBroken (2 * (gap ++ c :: v).length + 1) (by
    simp only [List.length_append]
    omega)
  rw [read_eq, skip_append_cons hgap hc.space]
  exact hbroken.bind _

/-- The reader breaks off just where it comes to an integer of too many digits. -/
theorem isBroken_read_iff : IsBroken (read t) ↔ BreaksOff t :=
  ⟨fun ⟨_, h⟩ => breaksOff_of_read h, BreaksOff.isBroken_read⟩

/-- Of all texts where it does not break off the reader takes those that the grammar derives, for what they write. -/
theorem read_eq_ok_iff : read t = .ok y ↔ IsText t y ∧ ¬ BreaksOff t := by
  constructor
  · refine fun h => ⟨isText_of_read h, fun hbreaks => ?_⟩
    obtain ⟨n, hn⟩ := hbreaks.isBroken_read
    rw [h] at hn
    cases hn
  · rintro ⟨htext, hbreaks⟩
    exact htext.takes_read.resolve_right fun h => hbreaks (isBroken_read_iff.1 h)

theorem IsText.unique {z : Value} (hy : IsText t y) (hz : IsText t z) (hbreaks : ¬ BreaksOff t) : y = z :=
  Except.ok.inj ((read_eq_ok_iff.2 ⟨hy, hbreaks⟩).symm.trans (read_eq_ok_iff.2 ⟨hz, hbreaks⟩))

end MdxSafe.Json
