-- SUMMARY: Where the backup of a file is: beside it.
import MdxSafe.Proofs.Disk.Route
import MdxSafe.Proofs.Text.Lines

/-!
# Beside a file

The backup of a file is beside it: nothing is new on the way to it but its goal (`Path.route_of_backup`). Files with
different goals have backups with different goals (`Path.goal_eq_of_backup`).
-/

namespace MdxSafe

-- ---------------------------------------------------------------------------
-- The names of a path
-- ---------------------------------------------------------------------------

/-- The names that an anchor stands for. -/
def Anchor.names : Anchor → List Text
  | here => []
  | root => [[]]
  | doubleRoot => [[], []]

namespace Path

variable {here : Spot} {p p' q q' : Path} {suffix : Text}

/-- Whether a text can be a part of a path: it leads somewhere, and holds no slash. -/
def isPart (t : Text) : Bool := t ≠ [] ∧ t ≠ ['.'] ∧ '/' ∉ t

/-- Whether a path is one that can be read. -/
def isNormal (p : Path) : Bool := p.parts.all isPart

theorem isNormal_ofText (t : Text) : (ofText t).isNormal = true := by
  unfold isNormal
  rw [List.all_eq_true]
  intro part hpart
  obtain ⟨hsplit, hkept⟩ := List.mem_filter.1 hpart
  obtain ⟨hempty, hdot⟩ := of_decide_eq_true hkept
  exact decide_eq_true ⟨hempty, hdot, Text.notMem_of_mem_splitOn hsplit⟩

theorem splitOn_anchor_append (anchor : Anchor) (t : Text) :
    Text.splitOn '/' (anchor.toText ++ t) = anchor.names ++ Text.splitOn '/' t := by
  cases anchor <;> rfl

theorem names_eq_append (anchor : Anchor) (dir : List Text) {name : Text} (hname : name ≠ []) :
    names ⟨anchor, dir ++ [name]⟩ = anchor.names ++ dir.flatMap (Text.splitOn '/') ++ Text.splitOn '/' name := by
  have hjoin : Text.join ['/'] (dir ++ [name]) ≠ [] := by
    cases dir with
    | nil => simpa using hname
    | cons d dir =>
      rw [Text.join_append _ (List.cons_ne_nil d dir) (List.cons_ne_nil name [])]
      simp
  have htext : toText ⟨anchor, dir ++ [name]⟩ = anchor.toText ++ Text.join ['/'] (dir ++ [name]) := by
    unfold toText
    split
    · next hnil => exact absurd (List.append_eq_nil_iff.1 hnil).2 hjoin
    · rfl
  unfold names
  rw [htext, splitOn_anchor_append, Text.splitOn_join_eq_flatMap _ (by simp), List.flatMap_append, List.append_assoc]
  simp

-- ---------------------------------------------------------------------------
-- Backups
-- ---------------------------------------------------------------------------

/-- Names that lead nowhere keep the spot. -/
theorem follow_stays {names : List Text} (h : ∀ name ∈ names, name = [] ∨ name = ['.']) (s : Spot) :
    names.foldl Spot.follow s = s ∧ ∀ t ∈ names.scanl Spot.follow s, t = s := by
  induction names with
  | nil => simp
  | cons name names ih =>
    obtain ⟨hname, hnames⟩ := List.forall_mem_cons.1 h
    rw [List.foldl_cons, List.scanl_cons, List.forall_mem_cons, Spot.follow_stay s hname]
    exact ⟨(ih hnames).1, rfl, (ih hnames).2⟩

/-- The end of the name of a backup: its suffix up to the first slash, after which nothing leads anywhere. -/
def ending (suffix : Text) : Text := (Text.splitOn '/' suffix).headD []

theorem parts_eq_append (h : p.name ≠ []) : p.parts = p.parts.dropLast ++ [p.name] := by
  unfold name at h ⊢
  have hparts : p.parts ≠ [] := by
    intro hnil
    rw [hnil] at h
    exact h rfl
  rw [List.getLastD_eq_getLast?, List.getLast?_eq_some_getLast hparts, Option.getD_some, List.dropLast_concat_getLast]

theorem isPart_name (hp : p.isNormal = true) (h : p.name ≠ []) : isPart p.name = true := by
  apply List.all_eq_true.1 hp
  rw [parts_eq_append h]
  exact List.mem_append_right _ List.mem_cons_self

/-- The name of a path with a backup, and the names of the backup from there on. -/
theorem splitOn_of_backup (hp : p.isNormal = true) (h : p.backup suffix = .ok q) :
    p.name ≠ [] ∧ p.name ≠ ['.'] ∧ '/' ∉ p.name ∧ p.parts = p.parts.dropLast ++ [p.name]
      ∧ q = ⟨p.anchor, p.parts.dropLast ++ [p.name ++ suffix]⟩
      ∧ ∃ rest, Text.splitOn '/' (p.name ++ suffix) = (p.name ++ ending suffix) :: rest
          ∧ ∀ name ∈ rest, name = [] ∨ name = ['.'] := by
  unfold backup withName at h
  by_cases hempty : p.name = []
  · rw [if_pos hempty] at h
    cases h
  rw [if_neg hempty] at h
  by_cases hbad : (p.name ++ suffix).getLast? = some '/' ∨ anchorOf (p.name ++ suffix) ≠ .here
      ∨ (partsOf (p.name ++ suffix)).length ≠ 1
  · rw [if_pos hbad] at h
    cases h
  rw [if_neg hbad] at h
  have hlength : (partsOf (p.name ++ suffix)).length = 1 := not_not.1 fun hne => hbad (.inr (.inr hne))
  obtain ⟨-, hdot, hslash⟩ := of_decide_eq_true (isPart_name hp hempty)
  refine ⟨hempty, hdot, hslash, parts_eq_append hempty, (Except.ok.inj h).symm, ?_⟩
  unfold partsOf at hlength
  rw [Text.splitOn_append_of_notMem hslash] at hlength ⊢
  unfold ending
  cases hs : Text.splitOn '/' suffix with
  | nil => exact absurd hs (Text.splitOn_ne_nil '/' suffix)
  | cons first rest =>
    rw [hs, List.modifyHead_cons, List.filter_cons_of_pos] at hlength
    · refine ⟨rest, rfl, fun name hmem => ?_⟩
      have hnil := List.filter_eq_nil_iff.1 (List.length_eq_zero_iff.1 (Nat.succ.inj hlength)) name hmem
      simpa [or_iff_not_imp_left] using hnil
    · rw [decide_eq_true_eq]
      refine ⟨fun hnil => hempty (List.append_eq_nil_iff.1 hnil).1, fun hperiod => ?_⟩
      cases hn : p.name with
      | nil => exact hempty hn
      | cons c cs =>
        rw [hn] at hperiod hdot
        obtain ⟨rfl, hcs⟩ := List.cons_eq_cons.1 hperiod
        rw [(List.append_eq_nil_iff.1 hcs).1] at hdot
        exact hdot rfl

theorem names_of_backup (hp : p.isNormal = true) (h : p.backup suffix = .ok q) :
    q.anchor = p.anchor ∧ ∃ lead rest, p.names = lead ++ [p.name] ∧ q.names = lead ++ (p.name ++ ending suffix) :: rest
      ∧ ∀ name ∈ rest, name = [] ∨ name = ['.'] := by
  obtain ⟨hempty, -, hslash, hsplit, rfl, rest, hrest, hstay⟩ := splitOn_of_backup hp h
  have hext : p.name ++ suffix ≠ [] := fun hnil => hempty (List.append_eq_nil_iff.1 hnil).1
  have hown : p = ⟨p.anchor, p.parts.dropLast ++ [p.name]⟩ := congrArg (Path.mk p.anchor) hsplit
  have hnames := (congrArg names hown).trans (names_eq_append p.anchor p.parts.dropLast hempty)
  rw [Text.splitOn_of_notMem hslash] at hnames
  refine ⟨rfl, p.anchor.names ++ p.parts.dropLast.flatMap (Text.splitOn '/'), rest, hnames, ?_, hstay⟩
  rw [names_eq_append p.anchor p.parts.dropLast hext, hrest]

/-- A backup is beside its file, and nothing is new on the way to it but its goal. -/
theorem route_of_backup (hp : p.isNormal = true) (h : p.backup suffix = .ok q) (here : Spot) :
    ∃ dir, p.goal here = Spot.follow dir p.name ∧ q.goal here = Spot.follow dir (p.name ++ ending suffix)
      ∧ ∀ t ∈ q.route here, t ∈ p.route here ∨ t = q.goal here := by
  obtain ⟨hanchor, lead, rest, hpnames, hqnames, hstay⟩ := names_of_backup hp h
  have horigin : q.origin here = p.origin here := by
    unfold origin isAbsolute
    rw [hanchor]
  unfold goal route
  rw [horigin, hpnames, hqnames]
  have hrest := follow_stays hstay (Spot.follow (lead.foldl Spot.follow (p.origin here)) (p.name ++ ending suffix))
  refine ⟨lead.foldl Spot.follow (p.origin here), ?_, ?_, ?_⟩
  · rw [List.foldl_append]
    rfl
  · rw [List.foldl_append, List.foldl_cons, hrest.1]
  · intro t ht
    rw [List.scanl_append, List.scanl_cons, List.tail_cons] at ht
    rw [List.foldl_append, List.foldl_cons, hrest.1, List.scanl_append]
    rcases List.mem_append.1 ht with hlead | hend
    · exact .inl (List.mem_append_left _ hlead)
    · exact .inr (hrest.2 t hend)

/-- A name that is lengthened is looked up, even if it led up before. -/
theorem follow_append {name tail : Text} (hempty : name ≠ []) (hdot : name ≠ ['.']) (htail : tail ≠ []) (dir : Spot) :
    Spot.follow dir (name ++ tail) = dir ++ [name ++ tail] := by
  apply Spot.follow_down
  · rintro (hnil | hperiod)
    · exact hempty (List.append_eq_nil_iff.1 hnil).1
    · rcases List.append_eq_singleton_iff.1 hperiod with ⟨hnil, -⟩ | ⟨-, hnil⟩
      · exact hempty hnil
      · exact htail hnil
  · intro hperiods
    rcases List.append_eq_cons_iff.1 hperiods with ⟨hnil, -⟩ | ⟨first, hfirst, hrest⟩
    · exact hempty hnil
    · rcases List.append_eq_singleton_iff.1 hrest.symm with ⟨hnil, -⟩ | ⟨-, hnil⟩
      · rw [hnil] at hfirst
        exact hdot hfirst
      · exact htail hnil

/-- Files whose backups have one goal have one goal themselves. -/
theorem goal_eq_of_backup (hp : p.isNormal = true) (hp' : p'.isNormal = true) (h : p.backup suffix = .ok q)
    (h' : p'.backup suffix = .ok q') (hgoal : q.goal here = q'.goal here) : p.goal here = p'.goal here := by
  obtain ⟨hempty, hdot, -⟩ := splitOn_of_backup hp h
  obtain ⟨hempty', hdot', -⟩ := splitOn_of_backup hp' h'
  obtain ⟨dir, hown, hbackup, -⟩ := route_of_backup hp h here
  obtain ⟨dir', hown', hbackup', -⟩ := route_of_backup hp' h' here
  rw [hbackup, hbackup'] at hgoal
  rw [hown, hown']
  by_cases hending : ending suffix = []
  · rwa [hending, List.append_nil, List.append_nil] at hgoal
  · -- The name of the backup leads down, so that it tells the directory and the name of the file.
    rw [follow_append hempty hdot hending, follow_append hempty' hdot' hending] at hgoal
    obtain ⟨rfl, hname⟩ := List.append_inj' hgoal rfl
    rw [List.append_cancel_right (List.cons.inj hname).1]

theorem anchorOf_of_notMem {t : Text} (h : '/' ∉ t) : anchorOf t = .here := by
  have hnone : t.takeWhile (· = '/') = [] := by
    cases t with
    | nil => rfl
    | cons c t => exact List.takeWhile_cons_of_neg (by simpa using fun heq : c = '/' => h (by simp [heq]))
  unfold anchorOf
  rw [hnone]
  rfl

/-- A file whose name leads down has a backup in the same directory, if the suffix holds no slash. -/
theorem exists_backup (hp : p.isNormal = true) (hname : p.name ≠ []) (hup : p.name ≠ ['.', '.'])
    (hsuffix : '/' ∉ suffix) (hne : suffix ≠ []) (here : Spot) :
    ∃ q dir, p.backup suffix = .ok q ∧ p.goal here = dir ++ [p.name] ∧ q.goal here = dir ++ [p.name ++ suffix] := by
  obtain ⟨-, hdot, hslash⟩ := of_decide_eq_true (isPart_name hp hname)
  have hnone : '/' ∉ p.name ++ suffix := by
    rw [List.mem_append]
    rintro (h | h)
    · exact hslash h
    · exact hsuffix h
  have hparts : partsOf (p.name ++ suffix) = [p.name ++ suffix] := by
    unfold partsOf
    rw [Text.splitOn_of_notMem hnone, List.filter_cons_of_pos, List.filter_nil]
    refine decide_eq_true ⟨fun hnil => hname (List.append_eq_nil_iff.1 hnil).1, fun hperiod => ?_⟩
    rcases List.append_eq_singleton_iff.1 hperiod with ⟨hnil, -⟩ | ⟨-, hnil⟩
    · exact hname hnil
    · exact hne hnil
  have hbackup : p.backup suffix = .ok ⟨p.anchor, p.parts.dropLast ++ [p.name ++ suffix]⟩ := by
    unfold backup withName
    rw [if_neg hname, if_neg]
    rintro (hlast | hanchor | hlength)
    · exact hnone (List.mem_of_getLast? hlast)
    · exact hanchor (anchorOf_of_notMem hnone)
    · rw [hparts] at hlength
      exact hlength rfl
  have hending : ending suffix = suffix := by
    unfold ending
    rw [Text.splitOn_of_notMem hsuffix]
    rfl
  obtain ⟨dir, hown, hgoal, -⟩ := route_of_backup hp hbackup here
  refine ⟨_, dir, hbackup, ?_, ?_⟩
  · rw [hown, Spot.follow_down dir (not_or.2 ⟨hname, hdot⟩) hup]
  · rw [hgoal, hending, follow_append hname hdot hne]

end Path
end MdxSafe
