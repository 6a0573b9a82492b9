import PlateVault.Projects.Writes

/-!
# Goals kept hidden

`Sound` is what every write keeps of a Project's subjects and goals: a goal is shown or hidden, never
both, and hidden only while its Target is no subject. Hiding and restoring move the goals a Target
has without changing them or their order.
-/

namespace PlateVault.Projects

open View (Host)

variable {P : Platform}

/-! ## Inserts -/

theorem insertGoal_eq_ok {goals out : List (GoalRow P)} {row : GoalRow P} :
    insertGoal goals row = .ok out ↔ row.id ∉ goals.map (·.id) ∧ out = goals ++ [row] := by
  unfold insertGoal
  by_cases h : goals.any (·.id = row.id) = true
  · have hmem : row.id ∈ goals.map (·.id) := by
      obtain ⟨other, hother, hid⟩ := List.any_eq_true.mp h
      exact List.mem_map.mpr ⟨other, hother, by simpa using hid⟩
    rw [if_pos h]
    constructor
    · intro h
      cases h
    · exact fun hnot => absurd hmem hnot.1
  · have hmem : row.id ∉ goals.map (·.id) := by
      intro hmem
      obtain ⟨other, hother, hid⟩ := List.mem_map.mp hmem
      exact h (List.any_eq_true.mpr ⟨other, hother, by simpa using hid⟩)
    rw [if_neg h]
    constructor
    · intro h
      cases h
      exact ⟨hmem, rfl⟩
    · rintro ⟨-, rfl⟩
      rfl

theorem column_eq_ok {value stored : Nat} :
    column value = .ok stored ↔ value < 2 ^ 63 ∧ stored = value := by
  unfold column
  split
  · rename_i h
    constructor
    · intro hok
      cases hok
      exact ⟨h, rfl⟩
    · rintro ⟨-, rfl⟩
      rfl
  · rename_i h
    constructor
    · intro hok
      cases hok
    · exact fun hlt => absurd hlt.1 h

theorem foldlM_insertGoal {ρ : Type} (step : List (GoalRow P) → ρ → Result (List (GoalRow P)))
    (make : ρ → GoalRow P) (allowed : ρ → Prop)
    (hstep : ∀ goals row out,
      step goals row = .ok out ↔ allowed row ∧ insertGoal goals (make row) = .ok out)
    (rows : List ρ) (init out : List (GoalRow P)) :
    rows.foldlM step init = .ok out ↔ (∀ row ∈ rows, allowed row) ∧ out = init ++ rows.map make ∧
      (rows.map fun row => (make row).id).Nodup ∧
        ∀ row ∈ rows, (make row).id ∉ init.map (·.id) := by
  induction rows generalizing init with
  | nil =>
    rw [List.foldlM_nil]
    constructor
    · intro h
      cases h
      simp
    · rintro ⟨-, rfl, -⟩
      simp [pure, Except.pure]
  | cons row rest ih =>
    rw [List.foldlM_cons, Result.bind_eq_ok]
    constructor
    · rintro ⟨mid, hmid, hrest⟩
      obtain ⟨hallowed, hinsert⟩ := (hstep _ _ _).mp hmid
      obtain ⟨hnew, rfl⟩ := insertGoal_eq_ok.mp hinsert
      obtain ⟨hall, rfl, hnodup, hfresh⟩ := (ih _).mp hrest
      refine ⟨List.forall_mem_cons.mpr ⟨hallowed, hall⟩, by simp, ?_, ?_⟩
      · rw [List.map_cons, List.nodup_cons]
        refine ⟨fun hmem => ?_, hnodup⟩
        obtain ⟨other, hother, hid⟩ := List.mem_map.mp hmem
        exact hfresh other hother (by simp [hid])
      · refine List.forall_mem_cons.mpr ⟨hnew, fun other hother hmem => hfresh other hother ?_⟩
        rw [List.map_append]
        exact List.mem_append_left _ hmem
    · rintro ⟨hall, rfl, hnodup, hfresh⟩
      obtain ⟨hallowed, hall⟩ := List.forall_mem_cons.mp hall
      obtain ⟨hnew, hfresh⟩ := List.forall_mem_cons.mp hfresh
      rw [List.map_cons, List.nodup_cons] at hnodup
      refine ⟨init ++ [make row], (hstep _ _ _).mpr ⟨hallowed, insertGoal_eq_ok.mpr ⟨hnew, rfl⟩⟩,
        (ih _).mpr ⟨hall, by simp, hnodup.2, fun other hother hmem => ?_⟩⟩
      rw [List.map_append, List.mem_append] at hmem
      rcases hmem with hmem | hmem
      · exact hfresh other hother hmem
      · have hid : (make other).id = (make row).id := by simpa using hmem
        exact hnodup.1 (List.mem_map.mpr ⟨other, hother, hid⟩)

/-! ## The goals of a Target -/

def Rows.subjectKeys (s : Rows P) : List (Uuid × Uuid) :=
  s.subjects.map fun row => (row.id, row.targetId)

def Present (s : Rows P) (target : Uuid) : Prop := target ∈ s.subjectKeys.map (·.2)

def GoalRow.value (row : GoalRow P) : Uuid × Option Uuid × GoalSpec P :=
  (row.id, row.groupId, row.goal)

/-- The goals a Target has, shown or hidden, in order: their ids, groups and values. -/
def goalsOf (s : Rows P) (target : Uuid) : List (Uuid × Option Uuid × GoalSpec P) :=
  let rows : List (GoalRow P) := match s.subjectKeys.find? fun key => key.2 = target with
    | some key => s.goals.filter fun row => row.owner = key.1
    | none => s.hidden.filter fun row => row.owner = target
  (rows.mergeSort byPosition).map GoalRow.value

/-- What every write keeps: subjects with ids and Targets of their own, goals of subjects in the
order of their positions, and hidden goals of other Targets, in their order. -/
structure Sound (s : Rows P) : Prop where
  subjects : (s.subjectKeys.map (·.1)).Nodup
  targets : (s.subjectKeys.map (·.2)).Nodup
  owners : ∀ row ∈ s.goals, row.owner ∈ s.subjectKeys.map (·.1)
  ids : ((s.goals ++ s.hidden).map (·.id)).Nodup
  sorted : s.goals.Pairwise fun a b => a.position < b.position
  hiddenSorted : ∀ target,
    (s.hidden.filter (·.owner = target)).Pairwise fun a b => a.position < b.position
  apart : ∀ row ∈ s.hidden, ¬ Present s row.owner

variable {s s' : Rows P}

theorem mergeSort_byPosition {rows : List (GoalRow P)}
    (h : rows.Pairwise fun a b => a.position < b.position) : rows.mergeSort byPosition = rows :=
  List.mergeSort_of_pairwise (h.imp fun hlt => by simpa [byPosition] using hlt.le)

theorem find?_subjectKeys {subject target : Uuid} (hs : (s.subjectKeys.map (·.2)).Nodup)
    (h : (subject, target) ∈ s.subjectKeys) :
    s.subjectKeys.find? (·.2 = target) = some (subject, target) := by
  cases hfind : s.subjectKeys.find? (·.2 = target) with
  | none => exact absurd (by simp) (List.find?_eq_none.mp hfind _ h)
  | some found =>
    have htarget : found.2 = target := by simpa using List.find?_some hfind
    rw [List.inj_on_of_nodup_map hs (List.mem_of_find?_eq_some hfind) h htarget]

theorem goalsOf_shown (hs : Sound s) {subject target : Uuid}
    (h : (subject, target) ∈ s.subjectKeys) :
    goalsOf s target = (s.goals.filter (·.owner = subject)).map GoalRow.value := by
  rw [goalsOf, find?_subjectKeys hs.targets h]
  simp only
  rw [mergeSort_byPosition (hs.sorted.filter _)]

theorem goalsOf_hidden (hs : Sound s) {target : Uuid} (h : ¬ Present s target) :
    goalsOf s target = (s.hidden.filter (·.owner = target)).map GoalRow.value := by
  have hnone : s.subjectKeys.find? (·.2 = target) = none := by
    refine List.find?_eq_none.mpr fun key hkey heq => h ?_
    exact List.mem_map.mpr ⟨key, hkey, by simpa using heq⟩
  rw [goalsOf, hnone]
  simp only
  rw [mergeSort_byPosition (hs.hiddenSorted target)]

/-- Two states with the same subjects, goals and hidden goals. -/
structure SameGoals (s s' : Rows P) : Prop where
  subjects : s'.subjectKeys = s.subjectKeys
  goals : s'.goals = s.goals
  hidden : s'.hidden = s.hidden

namespace SameGoals

theorem refl (s : Rows P) : SameGoals s s := ⟨rfl, rfl, rfl⟩

theorem trans {s'' : Rows P} (h : SameGoals s s') (h' : SameGoals s' s'') : SameGoals s s'' :=
  ⟨h'.subjects.trans h.subjects, h'.goals.trans h.goals, h'.hidden.trans h.hidden⟩

theorem present (h : SameGoals s s') (target : Uuid) : Present s' target ↔ Present s target := by
  unfold Present
  rw [h.subjects]

theorem goalsOf_eq (h : SameGoals s s') (target : Uuid) : goalsOf s' target = goalsOf s target := by
  unfold goalsOf
  rw [h.subjects, h.goals, h.hidden]

theorem sound (h : SameGoals s s') (hs : Sound s) : Sound s' where
  subjects := h.subjects ▸ hs.subjects
  targets := h.subjects ▸ hs.targets
  owners := by
    rw [h.goals, h.subjects]
    exact hs.owners
  ids := by
    rw [h.goals, h.hidden]
    exact hs.ids
  sorted := h.goals ▸ hs.sorted
  hiddenSorted := h.hidden ▸ hs.hiddenSorted
  apart := by
    rw [h.hidden]
    exact fun row hrow hpresent => hs.apart row hrow ((h.present _).mp hpresent)

end SameGoals

/-! ## Hiding -/

def GoalRow.ownedBy (owner : Uuid) (row : GoalRow P) : GoalRow P := { row with owner }

theorem hideGoals_eq_ok {subject target : Uuid} :
    hideGoals s subject target = .ok s' ↔
      s' = { s with
        hidden := s.hidden ++ (s.goals.filter (·.owner = subject)).map (·.ownedBy target)
        goals := s.goals.filter (·.owner ≠ subject) } ∧
      ((s.goals.filter (·.owner = subject)).map (·.id)).Nodup ∧
      ∀ row ∈ s.goals.filter (·.owner = subject), row.id ∉ s.hidden.map (·.id) := by
  have hfold := fun out => foldlM_insertGoal (P := P)
    (fun hidden row => insertGoal hidden (row.ownedBy target)) (·.ownedBy target) (fun _ => True)
    (fun _ _ _ => ⟨fun h => ⟨trivial, h⟩, And.right⟩) (s.goals.filter (·.owner = subject)) s.hidden out
  unfold hideGoals
  rw [Result.bind_eq_ok]
  constructor
  · rintro ⟨hidden, hhidden, h⟩
    cases h
    obtain ⟨-, rfl, hnodup, hfresh⟩ := (hfold hidden).mp hhidden
    exact ⟨rfl, hnodup, hfresh⟩
  · rintro ⟨rfl, hnodup, hfresh⟩
    exact ⟨_, (hfold _).mpr ⟨fun _ _ => trivial, rfl, hnodup, hfresh⟩, rfl⟩

theorem mem_of_subjectKeys_filter {subject : Uuid} {key : Uuid × Uuid} :
    key ∈ s.subjectKeys.filter (·.1 ≠ subject) ↔ key ∈ s.subjectKeys ∧ key.1 ≠ subject := by
  simp

section Hide

variable {subject target : Uuid}

def Rows.without (s : Rows P) (subject target : Uuid) : Rows P :=
  { s with
    hidden := s.hidden ++ (s.goals.filter (·.owner = subject)).map (·.ownedBy target)
    goals := s.goals.filter (·.owner ≠ subject)
    subjects := s.subjects.filter (·.id ≠ subject) }

theorem subjectKeys_without :
    (s.without subject target).subjectKeys = s.subjectKeys.filter (·.1 ≠ subject) := by
  rw [Rows.subjectKeys, Rows.subjectKeys, List.filter_map]
  rfl

theorem present_without (hs : Sound s) (hkey : (subject, target) ∈ s.subjectKeys) (other : Uuid) :
    Present (s.without subject target) other ↔ Present s other ∧ other ≠ target := by
  unfold Present
  rw [subjectKeys_without]
  constructor
  · intro h
    obtain ⟨key, hmem, rfl⟩ := List.mem_map.mp h
    obtain ⟨hmem, hne⟩ := mem_of_subjectKeys_filter.mp hmem
    refine ⟨List.mem_map_of_mem hmem, fun heq => hne ?_⟩
    rw [List.inj_on_of_nodup_map hs.targets hmem hkey heq]
  · rintro ⟨h, hne⟩
    obtain ⟨key, hmem, rfl⟩ := List.mem_map.mp h
    refine List.mem_map_of_mem (mem_of_subjectKeys_filter.mpr ⟨hmem, fun heq => hne ?_⟩)
    rw [List.inj_on_of_nodup_map hs.subjects hmem hkey heq]

theorem hidden_without (hs : Sound s) (hkey : (subject, target) ∈ s.subjectKeys) (other : Uuid) :
    (s.without subject target).hidden.filter (·.owner = other) =
      if other = target then (s.goals.filter (·.owner = subject)).map (·.ownedBy target)
      else s.hidden.filter (·.owner = other) := by
  rw [Rows.without, List.filter_append]
  split
  · rename_i heq
    have hnone : s.hidden.filter (·.owner = other) = [] := by
      refine List.filter_eq_nil_iff.mpr fun row hrow howner => hs.apart row hrow ?_
      rw [of_decide_eq_true howner, heq]
      exact List.mem_map_of_mem hkey
    rw [hnone, List.nil_append, List.filter_eq_self]
    intro row hrow
    obtain ⟨goal, -, rfl⟩ := List.mem_map.mp hrow
    simp [GoalRow.ownedBy, heq]
  · rename_i hne
    have hnone : ((s.goals.filter (·.owner = subject)).map (·.ownedBy target)).filter
        (·.owner = other) = [] := by
      refine List.filter_eq_nil_iff.mpr fun row hrow howner => ?_
      obtain ⟨goal, -, rfl⟩ := List.mem_map.mp hrow
      exact hne (of_decide_eq_true howner).symm
    rw [hnone, List.append_nil]

theorem Sound.without (hs : Sound s) (hkey : (subject, target) ∈ s.subjectKeys) :
    Sound (s.without subject target) where
  subjects := by
    rw [subjectKeys_without]
    exact hs.subjects.sublist (List.filter_sublist.map _)
  targets := by
    rw [subjectKeys_without]
    exact hs.targets.sublist (List.filter_sublist.map _)
  owners := by
    intro row hrow
    obtain ⟨hrow, hne⟩ := List.mem_filter.mp hrow
    obtain ⟨key, hmem, howner⟩ := List.mem_map.mp (hs.owners row hrow)
    rw [subjectKeys_without]
    refine List.mem_map.mpr ⟨key, mem_of_subjectKeys_filter.mpr ⟨hmem, ?_⟩, howner⟩
    rw [howner]
    exact of_decide_eq_true hne
  ids := by
    have hmap : ((s.goals.filter (·.owner = subject)).map (·.ownedBy target)).map GoalRow.id =
        (s.goals.filter (·.owner = subject)).map GoalRow.id := by
      rw [List.map_map]
      rfl
    have hperm : ((s.without subject target).goals ++ (s.without subject target).hidden).map
        (·.id) |>.Perm ((s.goals ++ s.hidden).map (·.id)) := by
      rw [Rows.without, List.map_append, List.map_append, List.map_append, hmap]
      have hsplit := (List.filter_append_perm (fun row => decide (row.owner = subject))
        s.goals).map GoalRow.id
      rw [List.map_append] at hsplit
      refine (List.perm_append_comm_assoc _ _ _).trans ?_
      refine (List.Perm.append_left _ ?_).trans List.perm_append_comm
      refine List.perm_append_comm.trans ?_
      simpa using hsplit
    exact hperm.nodup_iff.mpr hs.ids
  sorted := hs.sorted.filter _
  hiddenSorted := by
    intro other
    rw [hidden_without hs hkey]
    split
    · exact List.pairwise_map.mpr (hs.sorted.filter _)
    · exact hs.hiddenSorted other
  apart := by
    intro row hrow hpresent
    obtain ⟨hpresent, hne⟩ := (present_without hs hkey _).mp hpresent
    rcases List.mem_append.mp hrow with hrow | hrow
    · exact hs.apart row hrow hpresent
    · obtain ⟨goal, -, rfl⟩ := List.mem_map.mp hrow
      exact hne rfl

theorem goalsOf_without (hs : Sound s) (hkey : (subject, target) ∈ s.subjectKeys) (other : Uuid) :
    goalsOf (s.without subject target) other = goalsOf s other := by
  have hs' := hs.without hkey
  by_cases hpresent : Present (s.without subject target) other
  · obtain ⟨⟨owner, other'⟩, hother, rfl⟩ := List.mem_map.mp hpresent
    rw [subjectKeys_without] at hother
    obtain ⟨hmem, hne⟩ := mem_of_subjectKeys_filter.mp hother
    rw [goalsOf_shown hs' (subjectKeys_without ▸ hother), goalsOf_shown hs hmem, Rows.without,
      List.filter_filter]
    congr 1
    refine List.filter_congr fun row _ => ?_
    by_cases howner : row.owner = owner
    · simp [howner, hne]
    · simp [howner]
  · rw [goalsOf_hidden hs' hpresent, hidden_without hs hkey]
    split
    · rename_i heq
      rw [heq, goalsOf_shown hs hkey, List.map_map]
      rfl
    · rename_i hne
      have hnot : ¬ Present s other := fun h =>
        hpresent ((present_without hs hkey other).mpr ⟨h, hne⟩)
      rw [goalsOf_hidden hs hnot]

end Hide

theorem removeSubject_eq_ok {L : LibraryReads P} (hs : Sound s) {row : SubjectRow} :
    removeSubject L s row = .ok s' ↔
      s.sessions.countP (·.targetId = row.targetId) = 0 ∧ s' = s.without row.id row.targetId := by
  have hnodup : ((s.goals.filter (·.owner = row.id)).map (·.id)).Nodup :=
    ((List.nodup_append.mp (List.map_append ▸ hs.ids)).1).sublist (List.filter_sublist.map _)
  have hfresh : ∀ goal ∈ s.goals.filter (·.owner = row.id), goal.id ∉ s.hidden.map (·.id) := by
    intro goal hgoal hmem
    refine (List.nodup_append.mp (List.map_append ▸ hs.ids)).2.2 goal.id ?_ goal.id hmem rfl
    exact List.mem_map_of_mem (List.mem_filter.mp hgoal).1
  unfold removeSubject
  simp only
  split
  · rename_i hheld
    constructor
    · intro h
      obtain ⟨designation, -, h⟩ := Result.bind_eq_ok.mp h
      cases h
    · rintro ⟨hnone, -⟩
      omega
  · rename_i hnone
    rw [Result.bind_eq_ok]
    constructor
    · rintro ⟨mid, hmid, h⟩
      cases h
      rw [(hideGoals_eq_ok.mp hmid).1]
      exact ⟨by omega, rfl⟩
    · rintro ⟨-, rfl⟩
      exact ⟨_, hideGoals_eq_ok.mpr ⟨rfl, hnodup, hfresh⟩, rfl⟩

/-! ## Restoring -/

section Restore

variable {row : SubjectRow}

/-- The hidden goals a Target gets back: those of no group or of a panel of the Project. -/
def Rows.returning (s : Rows P) (target : Uuid) : List (GoalRow P) :=
  s.hidden.filter fun goal => goal.owner = target && panelGroup s.groups goal.groupId

def Rows.goalsEnd (s : Rows P) : Nat := endOf (s.goals.map (·.position))

def GoalRow.restoredTo (subject : Uuid) (next : Nat) (goal : GoalRow P) : GoalRow P :=
  { goal with owner := subject, position := next + goal.position }

/-- The state after a subject is added and its Target's hidden goals are restored. -/
def Rows.adding (s : Rows P) (row : SubjectRow) : Rows P :=
  { s with
    subjects := s.subjects ++ [row]
    goals := s.goals ++ (s.returning row.targetId).map (·.restoredTo row.id s.goalsEnd)
    hidden := s.hidden.filter (·.owner ≠ row.targetId) }

/-- Whether the goals a Target would get back have positions in the column. -/
def Returnable (s : Rows P) (target : Uuid) : Prop :=
  s.goalsEnd < 2 ^ 63 ∧ ∀ goal ∈ s.returning target, s.goalsEnd + goal.position < 2 ^ 63

theorem returning_eq (target : Uuid) : s.returning target =
    (s.hidden.filter (·.owner = target)).filter fun goal => panelGroup s.groups goal.groupId := by
  rw [Rows.returning, List.filter_filter]
  refine List.filter_congr fun goal _ => ?_
  rw [Bool.and_comm]

theorem lt_endOf {positions : List Nat} {position : Nat} (h : position ∈ positions) :
    position < endOf positions := by
  induction positions with
  | nil => cases h
  | cons first rest ih =>
    rw [endOf, List.foldr_cons, ← endOf]
    rcases List.mem_cons.mp h with rfl | h
    · omega
    · have := ih h
      omega

theorem endOf_le {positions : List Nat} {bound : Nat} (h : ∀ position ∈ positions, position < bound) :
    endOf positions ≤ bound := by
  induction positions with
  | nil => exact Nat.zero_le bound
  | cons first rest ih =>
    rw [endOf, List.foldr_cons, ← endOf]
    have hfirst := h first List.mem_cons_self
    have hrest := ih fun position hposition => h position (List.mem_cons_of_mem _ hposition)
    omega

theorem insertSubject_eq_ok : insertSubject s row = .ok s' ↔
    row.id ∉ s.subjectKeys.map (·.1) ∧ ¬ Present s row.targetId ∧
      s' = { s with subjects := s.subjects ++ [row] } := by
  have hany : (s.subjects.any fun other => other.id = row.id || other.targetId = row.targetId) =
      true ↔ row.id ∈ s.subjectKeys.map (·.1) ∨ Present s row.targetId := by
    unfold Present Rows.subjectKeys
    rw [List.map_map, List.map_map, List.mem_map, List.mem_map, List.any_eq_true]
    simp only [Bool.or_eq_true, decide_eq_true_eq, Function.comp_apply]
    constructor
    · rintro ⟨other, hother, heq | heq⟩
      · exact .inl ⟨other, hother, heq⟩
      · exact .inr ⟨other, hother, heq⟩
    · rintro (⟨other, hother, heq⟩ | ⟨other, hother, heq⟩)
      · exact ⟨other, hother, .inl heq⟩
      · exact ⟨other, hother, .inr heq⟩
  unfold insertSubject
  by_cases h : row.id ∈ s.subjectKeys.map (·.1) ∨ Present s row.targetId
  · rw [if_pos (hany.mpr h)]
    constructor
    · intro hok
      cases hok
    · rintro ⟨hid, htarget, -⟩
      exact absurd h (not_or.mpr ⟨hid, htarget⟩)
  · rw [if_neg (hany.not.mpr h)]
    obtain ⟨hid, htarget⟩ := not_or.mp h
    constructor
    · intro hok
      cases hok
      exact ⟨hid, htarget, rfl⟩
    · rintro ⟨-, -, rfl⟩
      rfl

theorem restoreHiddenGoals_eq_ok (hs : Sound s) (habsent : ¬ Present s row.targetId) :
    restoreHiddenGoals { s with subjects := s.subjects ++ [row] } row.targetId = .ok s' ↔
      Returnable s row.targetId ∧ s' = s.adding row := by
  have hfind : (s.subjects ++ [row]).find? (·.targetId = row.targetId) = some row := by
    rw [List.find?_append, List.find?_eq_none.mpr ?_]
    · simp
    · intro other hother heq
      refine habsent (List.mem_map.mpr ⟨(other.id, other.targetId), ?_, of_decide_eq_true heq⟩)
      exact List.mem_map_of_mem hother
  have hsorted : (s.returning row.targetId).mergeSort byPosition = s.returning row.targetId := by
    rw [returning_eq]
    exact mergeSort_byPosition ((hs.hiddenSorted _).filter _)
  have hids := List.nodup_append.mp (List.map_append ▸ hs.ids)
  have hnodup : ((s.returning row.targetId).map (·.id)).Nodup :=
    hids.2.1.sublist (List.filter_sublist.map _)
  have hfresh : ∀ goal ∈ s.returning row.targetId, goal.id ∉ s.goals.map (·.id) := fun goal hgoal hmem =>
    hids.2.2 goal.id hmem goal.id (List.mem_map_of_mem (List.mem_filter.mp hgoal).1) rfl
  have hfold := fun next out => foldlM_insertGoal (P := P)
    (fun goals goal => do
      let position ← column (next + goal.position)
      insertGoal goals { goal with owner := row.id, position })
    (·.restoredTo row.id next) (fun goal => next + goal.position < 2 ^ 63)
    (fun goals goal out => by
      rw [Result.bind_eq_ok]
      constructor
      · rintro ⟨position, hposition, hinsert⟩
        obtain ⟨hlt, rfl⟩ := column_eq_ok.mp hposition
        exact ⟨hlt, hinsert⟩
      · rintro ⟨hlt, hinsert⟩
        exact ⟨_, column_eq_ok.mpr ⟨hlt, rfl⟩, hinsert⟩)
    (s.returning row.targetId) s.goals out
  unfold restoreHiddenGoals
  simp only [hfind]
  rw [Result.bind_eq_ok]
  constructor
  · rintro ⟨next, hnext, h⟩
    obtain ⟨hlt, rfl⟩ := column_eq_ok.mp hnext
    obtain ⟨goals, hgoals, h⟩ := Result.bind_eq_ok.mp h
    cases h
    change ((s.returning row.targetId).mergeSort byPosition).foldlM _ _ = _ at hgoals
    rw [hsorted] at hgoals
    obtain ⟨hall, rfl, -⟩ := (hfold _ goals).mp hgoals
    exact ⟨⟨hlt, hall⟩, rfl⟩
  · rintro ⟨⟨hlt, hall⟩, rfl⟩
    refine ⟨_, column_eq_ok.mpr ⟨hlt, rfl⟩, Result.bind_eq_ok.mpr ⟨_, ?_, rfl⟩⟩
    change ((s.returning row.targetId).mergeSort byPosition).foldlM _ _ = _
    rw [hsorted]
    exact (hfold _ _).mpr ⟨hall, rfl, hnodup, hfresh⟩

theorem subjectKeys_adding : (s.adding row).subjectKeys = s.subjectKeys ++ [(row.id, row.targetId)] :=
  List.map_append

theorem present_adding (target : Uuid) :
    Present (s.adding row) target ↔ Present s target ∨ target = row.targetId := by
  unfold Present
  rw [subjectKeys_adding, List.map_append, List.mem_append]
  simp

theorem Sound.adding (hs : Sound s) (hid : row.id ∉ s.subjectKeys.map (·.1))
    (habsent : ¬ Present s row.targetId) : Sound (s.adding row) where
  subjects := by
    rw [subjectKeys_adding, List.map_append]
    exact List.nodup_append.mpr ⟨hs.subjects, by simp, fun a ha b hb heq => hid (by simp_all)⟩
  targets := by
    rw [subjectKeys_adding, List.map_append]
    refine List.nodup_append.mpr ⟨hs.targets, by simp, fun a ha b hb heq => habsent ?_⟩
    obtain rfl : b = row.targetId := by simpa using hb
    exact heq ▸ ha
  owners := by
    intro goal hgoal
    rw [subjectKeys_adding, List.map_append]
    rcases List.mem_append.mp hgoal with hgoal | hgoal
    · exact List.mem_append_left _ (hs.owners goal hgoal)
    · obtain ⟨hidden, -, rfl⟩ := List.mem_map.mp hgoal
      exact List.mem_append_right _ (List.mem_singleton.mpr rfl)
  ids := by
    have hback : (((s.returning row.targetId).map (·.restoredTo row.id s.goalsEnd)).map
        GoalRow.id).Sublist ((s.hidden.filter (·.owner = row.targetId)).map GoalRow.id) := by
      rw [List.map_map, returning_eq]
      exact List.filter_sublist.map GoalRow.id
    have hsplit := (List.filter_append_perm (fun goal => decide (goal.owner = row.targetId))
      s.hidden).map GoalRow.id
    have hall := hs.ids
    rw [List.map_append] at hall hsplit
    have hnodup := ((hsplit.append_left (s.goals.map GoalRow.id)).nodup_iff).mpr hall
    rw [Rows.adding, List.map_append, List.map_append, List.append_assoc]
    refine hnodup.sublist ((List.Sublist.refl _).append (hback.append ?_))
    simp
  sorted := by
    refine List.pairwise_append.mpr ⟨hs.sorted, ?_, fun goal hgoal new hnew => ?_⟩
    · rw [List.pairwise_map, returning_eq]
      refine ((hs.hiddenSorted row.targetId).filter _).imp fun hlt => ?_
      exact Nat.add_lt_add_left hlt _
    · obtain ⟨hidden, -, rfl⟩ := List.mem_map.mp hnew
      have hlt := lt_endOf (List.mem_map_of_mem (f := fun goal : GoalRow P => goal.position) hgoal)
      exact Nat.lt_of_lt_of_le hlt (Nat.le_add_right _ _)
  hiddenSorted target := (hs.hiddenSorted target).sublist (List.filter_sublist.filter _)
  apart := by
    intro goal hgoal hpresent
    obtain ⟨hgoal, hne⟩ := List.mem_filter.mp hgoal
    rcases (present_adding _).mp hpresent with hpresent | heq
    · exact hs.apart goal hgoal hpresent
    · exact of_decide_eq_true hne heq

theorem goalsOf_adding_self (hs : Sound s) (hid : row.id ∉ s.subjectKeys.map (·.1))
    (habsent : ¬ Present s row.targetId) : goalsOf (s.adding row) row.targetId =
      (goalsOf s row.targetId).filter fun goal => panelGroup s.groups goal.2.1 := by
  have hkey : (row.id, row.targetId) ∈ (s.adding row).subjectKeys := by
    rw [subjectKeys_adding]
    exact List.mem_append_right _ (List.mem_singleton.mpr rfl)
  have hnone : s.goals.filter (·.owner = row.id) = [] := by
    refine List.filter_eq_nil_iff.mpr fun goal hgoal howner => hid ?_
    exact of_decide_eq_true howner ▸ hs.owners goal hgoal
  have hnew : ((s.returning row.targetId).map (·.restoredTo row.id s.goalsEnd)).filter
      (·.owner = row.id) = (s.returning row.targetId).map (·.restoredTo row.id s.goalsEnd) := by
    refine List.filter_eq_self.mpr fun goal hgoal => ?_
    obtain ⟨hidden, -, rfl⟩ := List.mem_map.mp hgoal
    exact decide_eq_true rfl
  rw [goalsOf_shown (hs.adding hid habsent) hkey, goalsOf_hidden hs habsent, Rows.adding,
    List.filter_append, hnone, hnew, List.nil_append, List.map_map, returning_eq, List.filter_map]
  rfl

theorem goalsOf_adding_other (hs : Sound s) (hid : row.id ∉ s.subjectKeys.map (·.1))
    (habsent : ¬ Present s row.targetId) {other : Uuid} (hne : other ≠ row.targetId) :
    goalsOf (s.adding row) other = goalsOf s other := by
  have hs' := hs.adding hid habsent
  by_cases hpresent : Present s other
  · obtain ⟨⟨owner, other⟩, hkey, rfl⟩ := List.mem_map.mp hpresent
    have hkey' : (owner, other) ∈ (s.adding row).subjectKeys := by
      rw [subjectKeys_adding]
      exact List.mem_append_left _ hkey
    have hnew : ((s.returning row.targetId).map (·.restoredTo row.id s.goalsEnd)).filter
        (·.owner = owner) = [] := by
      refine List.filter_eq_nil_iff.mpr fun goal hgoal howner => hid ?_
      obtain ⟨hidden, -, rfl⟩ := List.mem_map.mp hgoal
      rw [show row.id = owner from of_decide_eq_true howner]
      exact List.mem_map_of_mem hkey
    rw [goalsOf_shown hs' hkey', goalsOf_shown hs hkey, Rows.adding, List.filter_append, hnew,
      List.append_nil]
  · have hpresent' : ¬ Present (s.adding row) other := fun h =>
      ((present_adding _).mp h).elim hpresent hne
    rw [goalsOf_hidden hs' hpresent', goalsOf_hidden hs hpresent, Rows.adding, List.filter_filter]
    congr 1
    refine List.filter_congr fun goal _ => ?_
    by_cases howner : goal.owner = other
    · simp [howner, hne]
    · simp [howner]

end Restore

end PlateVault.Projects
