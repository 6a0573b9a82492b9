import Mathlib.Algebra.Order.BigOperators.Group.Finset
import PlateVault.Lib.Runs
import Mathlib.Tactic.NormNum.NatFib
import PlateVault.Projects.HiddenWrites
import PlateVault.View.Entries

/-!
# Hidden goals over runs of writes

A run of writes keeps a goal from being shown and hidden at once. A Target removed and added again
has the goals it had. The write that adds it is taken as long as the positions of the goals it
restores fit their column: each is placed after the Project's last, from where it was.
-/

namespace PlateVault.Projects

open View (Host)

variable {P : Platform} {s s' : Rows P}

/-! ## Every write -/

/-- The ids a goal write gives new goals are no hidden goal's. -/
def Write.Fresh (s : Rows P) : Write P → Prop
  | .setGoals _ fresh | .applyTemplate _ _ _ fresh => ∀ n, fresh n ∉ s.hidden.map (·.id)
  | _ => True

theorem SameGoals.foldlM {ρ : Type} {step : Rows P → ρ → Result (Rows P)} {rows : List ρ}
    (hstep : ∀ row s s', step s row = .ok s' → SameGoals s s') {s s' : Rows P}
    (h : rows.foldlM step s = .ok s') : SameGoals s s' := by
  induction rows generalizing s with
  | nil =>
    cases h
    exact .refl _
  | cons row rest ih =>
    rw [List.foldlM_cons, Result.bind_eq_ok] at h
    obtain ⟨mid, hmid, hrest⟩ := h
    exact (hstep row _ _ hmid).trans (ih hrest)

theorem moveSessions_same {sessions : List Uuid} {group : Uuid}
    (h : moveSessions s sessions group = .ok s') : SameGoals s s' := by
  obtain ⟨rig, -, h⟩ := Result.bind_eq_ok.mp h
  refine SameGoals.foldlM (fun session s s' h => ?_) h
  obtain ⟨source, -, h⟩ := Result.bind_eq_ok.mp h
  obtain ⟨sourceRig, -, h⟩ := Result.bind_eq_ok.mp h
  obtain ⟨-, -, h⟩ := Result.bind_eq_ok.mp h
  cases h
  exact ⟨rfl, rfl, rfl⟩

theorem rename_same {H : Host} {group : Uuid} {name : GroupName}
    (h : rename H s group name = .ok s') : SameGoals s s' := by
  obtain ⟨-, -, h⟩ := Result.bind_eq_ok.mp h
  cases h
  exact ⟨rfl, rfl, rfl⟩

theorem insertGroup_same {H : Host} {L : LibraryReads P} {group : NewGroup P}
    (h : insertGroup H L s group = .ok s') : SameGoals s s' := by
  obtain ⟨-, -, h⟩ := Result.bind_eq_ok.mp h
  obtain ⟨-, -, h⟩ := Result.bind_eq_ok.mp h
  obtain ⟨-, -, h⟩ := Result.bind_eq_ok.mp h
  cases h
  exact ⟨rfl, rfl, rfl⟩

theorem drop_same (s : Rows P) : SameGoals s (dropEmptyFramingGroups s) := ⟨rfl, rfl, rfl⟩

theorem perform_spec {H : Host} {L : LibraryReads P} {write : Write P} (hs : Sound s)
    (hfresh : write.Fresh s) (h : write.perform H L s = .ok s') : Sound s' ∧ Moves s s' := by
  cases write with
  | setSubjects subjects fresh => exact writeSubjects_spec hs h
  | setGoals goals fresh => exact writeGoals_spec hs hfresh h
  | applyTemplate template targetId groupId fresh =>
    obtain ⟨-, -, h⟩ := Result.bind_eq_ok.mp h
    obtain ⟨-, -, h⟩ := Result.bind_eq_ok.mp h
    exact writeGoals_spec hs hfresh h
  | addSessions groups adds fresh =>
    obtain ⟨hs', hgrows⟩ := addMembers_spec hs h
    exact ⟨hs', hgrows.moves⟩
  | removeSessions sessions =>
    obtain ⟨mid, hmid, h⟩ := Result.bind_eq_ok.mp h
    have hsame : SameGoals s mid := SameGoals.foldlM (fun session s s' h => by
      obtain ⟨-, -, h⟩ := Result.bind_eq_ok.mp h
      cases h
      exact ⟨rfl, rfl, rfl⟩) hmid
    cases h
    have hlast := hsame.trans (drop_same mid)
    exact ⟨hlast.sound hs, hlast.moves⟩
  | moveSessions sessions groupId =>
    obtain ⟨mid, hmid, h⟩ := Result.bind_eq_ok.mp h
    cases h
    have hlast := (moveSessions_same hmid).trans (drop_same mid)
    exact ⟨hlast.sound hs, hlast.moves⟩
  | createGroup group sessions =>
    obtain ⟨first, hfirst, h⟩ := Result.bind_eq_ok.mp h
    obtain ⟨mid, hmid, h⟩ := Result.bind_eq_ok.mp h
    cases h
    have hlast := ((insertGroup_same hfirst).trans (moveSessions_same hmid)).trans (drop_same mid)
    exact ⟨hlast.sound hs, hlast.moves⟩
  | removeGroup groupId =>
    obtain ⟨rig, -, h⟩ := Result.bind_eq_ok.mp h
    obtain ⟨-, -, h⟩ := Result.bind_eq_ok.mp h
    obtain ⟨-, -, h⟩ := Result.bind_eq_ok.mp h
    cases h
    have hlast : SameGoals s { s with groups := s.groups.filter (·.id ≠ groupId) } := ⟨rfl, rfl, rfl⟩
    exact ⟨hlast.sound hs, hlast.moves⟩
  | renameGroup groupId name =>
    obtain ⟨rig, -, h⟩ := Result.bind_eq_ok.mp h
    have hlast := rename_same h
    exact ⟨hlast.sound hs, hlast.moves⟩
  | setPanel groupId panel name =>
    obtain ⟨rig, -, h⟩ := Result.bind_eq_ok.mp h
    obtain ⟨-, -, h⟩ := Result.bind_eq_ok.mp h
    have hpanel : SameGoals s (s.updateGroup groupId fun row => { row with panel }) :=
      ⟨rfl, rfl, rfl⟩
    have hlast : SameGoals s s' := by
      cases name with
      | none =>
        cases h
        exact hpanel
      | some name => exact hpanel.trans (rename_same h)
    exact ⟨hlast.sound hs, hlast.moves⟩

/-- A write at a revision, over what the Library then reads. -/
structure Commit (H : Host) where
  library : LibraryReads H.toPlatform
  expected : Nat
  write : Write H.toPlatform

def Step (H : Host) (s : Rows H.toPlatform) (commit : Commit H) (s' : Rows H.toPlatform) : Prop :=
  commit.write.commit H commit.library s commit.expected = .ok s' ∧ commit.write.Fresh s

section Runs

variable {H : Host} {s s' : Rows H.toPlatform}

theorem Step.spec {commit : Commit H} (h : Step H s commit s') (hs : Sound s) :
    Sound s' ∧ Moves s s' := by
  obtain ⟨h, hfresh⟩ := h
  obtain ⟨-, -, h⟩ := Result.bind_eq_ok.mp h
  obtain ⟨-, -, h⟩ := Result.bind_eq_ok.mp h
  obtain ⟨mid, hmid, h⟩ := Result.bind_eq_ok.mp h
  cases h
  obtain ⟨hmidSound, hmoves⟩ := perform_spec hs hfresh hmid
  have hsame : SameGoals mid { mid with revision := s.revision + 1 } := ⟨rfl, rfl, rfl⟩
  exact ⟨hsame.sound hmidSound, hmoves.kept, hmoves.added⟩

theorem sound_of_run {commits : List (Commit H)} (hrun : Run (Step H) s commits s') (hs : Sound s) :
    Sound s' :=
  hrun.invariant (fun _ _ _ hs hstep => (hstep.spec hs).1) hs

def StepWithout (H : Host) (target : Uuid) (s : Rows H.toPlatform) (commit : Commit H)
    (s' : Rows H.toPlatform) : Prop :=
  Step H s commit s' ∧ ¬ Present s' target

theorem goalsOf_of_run {target : Uuid} {commits : List (Commit H)}
    (hrun : Run (StepWithout H target) s commits s') (hs : Sound s) :
    goalsOf s' target = goalsOf s target :=
  hrun.relates (I := Sound) (R := fun s s' => goalsOf s' target = goalsOf s target)
    (fun _ => rfl) (fun _ _ _ h h' => h'.trans h) (fun _ _ _ hs hstep => (hstep.1.spec hs).1)
    (fun _ _ _ hs hstep => (hstep.1.spec hs).2.kept target hstep.2) hs

end Runs

/-! ## Room for the goals restored -/

/-- One more than the last position of a Target's hidden goals. -/
def Rows.hiddenEnd (s : Rows P) (target : Uuid) : Nat :=
  endOf ((s.hidden.filter (·.owner = target)).map (·.position))

/-- How far the positions of a Project's goals reach once these Targets have theirs again. -/
def Rows.reach (s : Rows P) (targets : List Uuid) : Nat :=
  s.goalsEnd + ∑ target ∈ targets.toFinset, s.hiddenEnd target

section Reach

theorem endOf_mono {some all : List Nat} (h : some ⊆ all) : endOf some ≤ endOf all :=
  endOf_le fun _ hposition => lt_endOf (h hposition)

theorem reach_mono {some all : List Uuid} (h : some ⊆ all) : s.reach some ≤ s.reach all := by
  refine Nat.add_le_add_left (Finset.sum_le_sum_of_subset fun target htarget => ?_) _
  exact List.mem_toFinset.mpr (h (List.mem_toFinset.mp htarget))

variable {row : SubjectRow}

theorem returnable_of_reach {targets : List Uuid} (hmem : row.targetId ∈ targets)
    (h : s.reach targets < 2 ^ 63) : Returnable s row.targetId := by
  have hone : s.hiddenEnd row.targetId ≤ ∑ target ∈ targets.toFinset, s.hiddenEnd target :=
    Finset.single_le_sum (f := s.hiddenEnd) (fun _ _ => Nat.zero_le _) (List.mem_toFinset.mpr hmem)
  unfold Rows.reach at h
  refine ⟨by omega, fun goal hgoal => ?_⟩
  rw [returning_eq] at hgoal
  have hposition : goal.position < s.hiddenEnd row.targetId :=
    lt_endOf (List.mem_map_of_mem (List.mem_filter.mp hgoal).1)
  omega

theorem reach_adding {targets : List Uuid} :
    (s.adding row).reach targets ≤ s.reach (row.targetId :: targets) := by
  have hend : (s.adding row).goalsEnd ≤ s.goalsEnd + s.hiddenEnd row.targetId := by
    refine endOf_le fun position hposition => ?_
    obtain ⟨goal, hgoal, rfl⟩ := List.mem_map.mp hposition
    rcases List.mem_append.mp hgoal with hgoal | hgoal
    · have hlt : goal.position < s.goalsEnd := lt_endOf (List.mem_map_of_mem hgoal)
      omega
    · obtain ⟨hidden, hhidden, rfl⟩ := List.mem_map.mp hgoal
      rw [returning_eq] at hhidden
      have hlt : hidden.position < s.hiddenEnd row.targetId :=
        lt_endOf (List.mem_map_of_mem (List.mem_filter.mp hhidden).1)
      exact Nat.add_lt_add_left hlt _
  have hself : (s.adding row).hiddenEnd row.targetId = 0 := by
    have hnone : (s.adding row).hidden.filter (·.owner = row.targetId) = [] := by
      refine List.filter_eq_nil_iff.mpr fun goal hgoal howner => ?_
      exact of_decide_eq_true (List.mem_filter.mp hgoal).2 (of_decide_eq_true howner)
    rw [Rows.hiddenEnd, hnone]
    rfl
  have hother : ∀ target, (s.adding row).hiddenEnd target ≤ s.hiddenEnd target := fun target =>
    endOf_mono ((List.filter_sublist.filter _).map _).subset
  have hsum : ∑ target ∈ targets.toFinset, (s.adding row).hiddenEnd target ≤
      ∑ target ∈ targets.toFinset.erase row.targetId, s.hiddenEnd target := by
    rw [← Finset.sum_erase targets.toFinset hself]
    exact Finset.sum_le_sum fun target _ => hother target
  have hsplit := Finset.add_sum_erase (row.targetId :: targets).toFinset s.hiddenEnd
    (List.mem_toFinset.mpr List.mem_cons_self)
  rw [List.toFinset_cons, Finset.erase_insert_eq_erase] at hsplit
  unfold Rows.reach
  rw [List.toFinset_cons]
  omega

theorem reach_without {subject target : Uuid} {targets : List Uuid} (hs : Sound s)
    (hkey : (subject, target) ∈ s.subjectKeys) (hnot : target ∉ targets) :
    (s.without subject target).reach targets ≤ s.reach targets := by
  refine Nat.add_le_add (endOf_mono (List.filter_sublist.map _).subset)
    (Finset.sum_le_sum fun other hother => ?_)
  rw [Rows.hiddenEnd, hidden_without hs hkey, if_neg]
  · exact Nat.le_refl _
  · rintro rfl
    exact hnot (List.mem_toFinset.mp hother)

theorem reach_withoutAll {rows : List SubjectRow} {targets : List Uuid} (hs : Sound s)
    (hrows : Removable s rows) (hnot : ∀ row ∈ rows, row.targetId ∉ targets) :
    (s.withoutAll rows).reach targets ≤ s.reach targets := by
  induction rows generalizing s with
  | nil => exact Nat.le_refl _
  | cons row rest ih =>
    have hkey := hrows.keys row List.mem_cons_self
    have hrest := ih (hs.without hkey) hrows.tail fun other hother =>
      hnot other (List.mem_cons_of_mem _ hother)
    exact hrest.trans (reach_without hs hkey (hnot row List.mem_cons_self))

end Reach

/-! ## Goals never stand in a write's way -/

def Rows.holding (s : Rows P) (goals hidden : List (GoalRow P)) : Rows P := { s with goals, hidden }

def Rows.bare (s : Rows P) : Rows P := s.holding [] []

def Blind {ρ : Type} (step : Rows P → ρ → Result (Rows P)) : Prop :=
  ∀ b x b' goals hidden, step b x = .ok b' → step (b.holding goals hidden) x = .ok (b'.holding goals hidden)

section Bare

variable {b b' : Rows P}

theorem Blind.all {ρ : Type} {step : Rows P → ρ → Result (Rows P)} (hstep : Blind step) :
    Blind fun b (xs : List ρ) => xs.foldlM step b := by
  intro b xs b' goals hidden h
  induction xs generalizing b with
  | nil =>
    cases h
    rfl
  | cons x rest ih =>
    simp only [List.foldlM_cons, Result.bind_eq_ok] at h ⊢
    obtain ⟨mid, hmid, hrest⟩ := h
    exact ⟨_, hstep _ _ _ goals hidden hmid, ih mid hrest⟩

theorem blind_insertGroup (H : Host) (L : LibraryReads P) : Blind (insertGroup H L) := by
  intro b group b' goals hidden h
  obtain ⟨⟨⟩, hvalid, h⟩ := Result.bind_eq_ok.mp h
  obtain ⟨⟨⟩, hname, h⟩ := Result.bind_eq_ok.mp h
  obtain ⟨⟨⟩, hid, h⟩ := Result.bind_eq_ok.mp h
  cases h
  exact Result.bind_eq_ok.mpr ⟨(), hvalid, Result.bind_eq_ok.mpr ⟨(), hname,
    Result.bind_eq_ok.mpr ⟨(), hid, rfl⟩⟩⟩

theorem blind_insertCapture : Blind (P := P) insertCapture := by
  intro b capture b' goals hidden h
  have hcaptures : (b.holding goals hidden).captures = b.captures := rfl
  unfold insertCapture at h ⊢
  simp only at h ⊢
  rw [hcaptures]
  split at h
  · cases h
  · obtain ⟨⟨⟩, hkey, h⟩ := Result.bind_eq_ok.mp h
    obtain ⟨⟨⟩, hcopies, h⟩ := Result.bind_eq_ok.mp h
    cases h
    exact Result.bind_eq_ok.mpr ⟨(), hkey, Result.bind_eq_ok.mpr ⟨(), hcopies, rfl⟩⟩

theorem Blind.taken {ρ : Type} {step : Rows P → ρ → Result (Rows P)} (hstep : Blind step) {x : ρ}
    (h : step s.bare x = .ok b') :
    ∃ s', step s x = .ok s' ∧ s'.bare = b' ∧ s'.goals = s.goals ∧ s'.hidden = s.hidden := by
  have hbare : b'.bare = b' := by
    have hself := hstep _ _ _ [] [] h
    exact Except.ok.inj (hself.symm.trans h)
  have htaken := hstep s.bare x b' s.goals s.hidden h
  exact ⟨b'.holding s.goals s.hidden, htaken, hbare, rfl, rfl⟩

theorem Sound.bare (hs : Sound s) : Sound s.bare where
  subjects := hs.subjects
  targets := hs.targets
  owners _ h := absurd h List.not_mem_nil
  ids := List.nodup_nil
  sorted := List.Pairwise.nil
  hiddenSorted _ := List.Pairwise.nil
  apart _ h := absurd h List.not_mem_nil

theorem reach_congr {targets : List Uuid} (hgoals : s'.goals = s.goals)
    (hhidden : s'.hidden = s.hidden) : s'.reach targets = s.reach targets := by
  unfold Rows.reach Rows.goalsEnd Rows.hiddenEnd
  rw [hgoals, hhidden]

/-- A step that adds these Targets is taken where it is without goals and theirs have room. -/
def Ready {ρ : Type} (step : Rows P → ρ → Result (Rows P)) (targets : ρ → List Uuid) : Prop :=
  ∀ s x b' rest, Sound s → s.reach (targets x ++ rest) < 2 ^ 63 → step s.bare x = .ok b' →
    ∃ s', step s x = .ok s' ∧ s'.bare = b' ∧ Sound s' ∧ s'.reach rest < 2 ^ 63

theorem Ready.foldlM {ρ : Type} {step : Rows P → ρ → Result (Rows P)} {targets : ρ → List Uuid}
    (hstep : Ready step targets) {xs : List ρ} (hs : Sound s)
    (hroom : s.reach (xs.flatMap targets) < 2 ^ 63) (h : xs.foldlM step s.bare = .ok b') :
    ∃ s', xs.foldlM step s = .ok s' ∧ s'.bare = b' := by
  induction xs generalizing s with
  | nil =>
    cases h
    exact ⟨s, rfl, rfl⟩
  | cons x rest ih =>
    rw [List.foldlM_cons, Result.bind_eq_ok] at h
    obtain ⟨mid, hmid, hrest⟩ := h
    rw [List.flatMap_cons] at hroom
    obtain ⟨mid, htaken, rfl, hmidSound, hmidRoom⟩ := hstep s x _ _ hs hroom hmid
    obtain ⟨last, hlast, hbare⟩ := ih hmidSound hmidRoom hrest
    refine ⟨last, ?_, hbare⟩
    rw [List.foldlM_cons, Result.bind_eq_ok]
    exact ⟨mid, htaken, hlast⟩

theorem addSubject_taken (row : SubjectRow) {rest : List Uuid} (hs : Sound s)
    (hroom : s.reach (row.targetId :: rest) < 2 ^ 63)
    (h : (insertSubject s.bare row >>= fun s => restoreHiddenGoals s row.targetId) = .ok b') :
    ∃ s', (insertSubject s row >>= fun s => restoreHiddenGoals s row.targetId) = .ok s' ∧
      s'.bare = b' ∧ s'.reach rest < 2 ^ 63 := by
  obtain ⟨mid, hinsert, hrestore⟩ := Result.bind_eq_ok.mp h
  obtain ⟨hid, habsent, rfl⟩ := insertSubject_eq_ok.mp hinsert
  obtain ⟨-, rfl⟩ := (restoreHiddenGoals_eq_ok hs.bare habsent).mp hrestore
  refine ⟨s.adding row, Result.bind_eq_ok.mpr ⟨_, insertSubject_eq_ok.mpr ⟨hid, habsent, rfl⟩, ?_⟩,
    rfl, reach_adding.trans_lt hroom⟩
  exact (restoreHiddenGoals_eq_ok hs habsent).mpr
    ⟨returnable_of_reach List.mem_cons_self hroom, rfl⟩

theorem ready_putSubject (fresh : Uuid → Uuid) (stored : List SubjectRow) :
    Ready (P := P) (putSubject fresh stored) fun listed => [listed.1.targetId] := by
  intro s listed b' rest hs hroom h
  suffices htaken : ∃ s', putSubject fresh stored s listed = .ok s' ∧ s'.bare = b' ∧
      s'.reach rest < 2 ^ 63 by
    obtain ⟨s', htaken, hbare, hreach⟩ := htaken
    exact ⟨s', htaken, hbare, (putSubject_spec hs htaken).1, hreach⟩
  unfold putSubject at h ⊢
  simp only at h ⊢
  split at h
  · cases h
    exact ⟨_, rfl, rfl, (reach_mono (List.subset_append_right _ _)).trans_lt hroom⟩
  · exact addSubject_taken _ hs hroom h

theorem appendTarget_taken {fresh : Uuid → Uuid} {target : Uuid} {rest : List Uuid} (hs : Sound s)
    (hroom : s.reach (target :: rest) < 2 ^ 63) (h : appendTarget fresh s.bare target = .ok b') :
    ∃ s', appendTarget fresh s target = .ok s' ∧ s'.bare = b' ∧ s'.reach rest < 2 ^ 63 := by
  have hsubjects : s.bare.subjects = s.subjects := rfl
  unfold appendTarget at h ⊢
  rw [hsubjects] at h
  split at h
  · rename_i hany
    cases h
    rw [if_pos hany]
    exact ⟨s, rfl, rfl, (reach_mono (List.subset_cons_self _ _)).trans_lt hroom⟩
  · rename_i hany
    rw [if_neg hany]
    exact addSubject_taken ⟨fresh target, target, none, _⟩ hs hroom h

def LibraryReads.targets (L : LibraryReads P) (add : SessionAdd) : List Uuid :=
  match L.basis add.sessionId with
  | .ok basis => [basis.1]
  | .error _ => []

theorem ready_addSession (L : LibraryReads P) (fresh : Uuid → Uuid) :
    Ready (addSession L fresh) L.targets := by
  intro s add b' rest hs hroom h
  obtain ⟨⟨⟩, hheld, h⟩ := Result.bind_eq_ok.mp h
  obtain ⟨basis, hbasis, h⟩ := Result.bind_eq_ok.mp h
  obtain ⟨joined, hjoined, h⟩ := Result.bind_eq_ok.mp h
  obtain ⟨captures, hcaptures, h⟩ := Result.bind_eq_ok.mp h
  obtain ⟨found, hfound, hjoined⟩ := Result.bind_eq_ok.mp hjoined
  obtain ⟨added, hadded, hjoined⟩ := Result.bind_eq_ok.mp hjoined
  obtain ⟨mid, hmid, hjoined⟩ := Result.bind_eq_ok.mp hjoined
  cases hjoined
  have htargets : L.targets add = [found.1] := by
    rw [LibraryReads.targets, hfound]
  rw [htargets] at hroom
  obtain ⟨mid, htaken, rfl, hmidRoom⟩ := appendTarget_taken hs hroom hmid
  let member : MemberRow := ⟨add.sessionId, add.groupId, add.placement, found.1, basis⟩
  obtain ⟨last, hlast, hbare, hgoals, hhidden⟩ :=
    blind_insertCapture.all.taken (s := insertMember (appendRig mid added) member) h
  have hadd : addSession L fresh s add = .ok last := by
    refine Result.bind_eq_ok.mpr ⟨(), hheld, Result.bind_eq_ok.mpr ⟨basis, hbasis,
      Result.bind_eq_ok.mpr ⟨(appendRig mid added, found.1), ?_,
        Result.bind_eq_ok.mpr ⟨captures, hcaptures, hlast⟩⟩⟩⟩
    exact Result.bind_eq_ok.mpr ⟨found, hfound, Result.bind_eq_ok.mpr ⟨added, hadded,
      Result.bind_eq_ok.mpr ⟨mid, htaken, rfl⟩⟩⟩
  refine ⟨last, hadd, hbare, (addSession_spec hs hadd).1, ?_⟩
  rw [reach_congr hgoals hhidden]
  exact hmidRoom

theorem addMembers_taken {H : Host} {L : LibraryReads P} {fresh : Uuid → Uuid}
    {groups : List (NewGroup P)} {adds : List SessionAdd} (hs : Sound s)
    (hroom : s.reach (adds.flatMap L.targets) < 2 ^ 63)
    (h : addMembers H L fresh s.bare groups adds = .ok b') :
    ∃ s', addMembers H L fresh s groups adds = .ok s' ∧ s'.bare = b' := by
  obtain ⟨⟨⟩, hsome, h⟩ := Result.bind_eq_ok.mp h
  obtain ⟨⟨⟩, hdistinct, h⟩ := Result.bind_eq_ok.mp h
  obtain ⟨⟨⟩, hused, h⟩ := Result.bind_eq_ok.mp h
  obtain ⟨mid, hmid, h⟩ := Result.bind_eq_ok.mp h
  obtain ⟨mid, hgroups, rfl, hgoals, hhidden⟩ :=
    (blind_insertGroup H L).all.taken hmid
  have hmidSound := (Sound.foldlM (fun _ _ _ _ => insertGroup_spec) hs hgroups).1
  obtain ⟨last, hlast, hbare⟩ := (ready_addSession L fresh).foldlM hmidSound
    (by rwa [reach_congr hgoals hhidden]) h
  exact ⟨last, Result.bind_eq_ok.mpr ⟨(), hsome, Result.bind_eq_ok.mpr ⟨(), hdistinct,
    Result.bind_eq_ok.mpr ⟨(), hused, Result.bind_eq_ok.mpr ⟨mid, hgroups, hlast⟩⟩⟩⟩, hbare⟩

theorem bare_withoutAll (s : Rows P) (rows : List SubjectRow) :
    (s.withoutAll rows).bare = s.bare.withoutAll rows := by
  induction rows generalizing s with
  | nil => rfl
  | cons row rest ih => exact ih (s.without row.id row.targetId)

theorem writeSubjects_taken {L : LibraryReads P} {fresh : Uuid → Uuid}
    {subjects : List SubjectInput} (hs : Sound s)
    (hroom : s.reach (subjects.map (·.targetId)) < 2 ^ 63)
    (h : writeSubjects L fresh s.bare subjects = .ok b') :
    ∃ s', writeSubjects L fresh s subjects = .ok s' ∧ s'.bare = b' := by
  obtain ⟨⟨⟩, htargets, h⟩ := Result.bind_eq_ok.mp h
  obtain ⟨mid, hmid, h⟩ := Result.bind_eq_ok.mp h
  let left := fun row : SubjectRow => decide (row.targetId ∉ subjects.map (·.targetId))
  have hrows : Removable s (s.subjects.filter left) := hs.removable left
  have hrowsBare : Removable s.bare (s.subjects.filter left) := ⟨hrows.keys, hrows.nodup⟩
  obtain ⟨hheld, rfl⟩ := (removeSubjects_eq_ok hs.bare hrowsBare).mp hmid
  rw [← bare_withoutAll] at h
  have hroomMid : (s.withoutAll (s.subjects.filter left)).reach (subjects.map (·.targetId)) < 2 ^ 63 :=
    (reach_withoutAll hs hrows fun row hrow =>
      of_decide_eq_true (List.mem_filter.mp hrow).2).trans_lt hroom
  have hlisted : subjects.zipIdx.flatMap (fun listed => [listed.1.targetId]) =
      subjects.map (·.targetId) := by
    rw [← List.map_eq_flatMap, ← Function.comp_def (fun subject : SubjectInput => subject.targetId),
      ← List.map_map, List.zipIdx_map_fst]
  obtain ⟨last, hlast, hbare⟩ := (ready_putSubject fresh s.subjects).foldlM
    (hs.withoutAll hrows).1 (by rwa [hlisted]) h
  exact ⟨last, Result.bind_eq_ok.mpr ⟨(), htargets, Result.bind_eq_ok.mpr
    ⟨_, (removeSubjects_eq_ok hs hrows).mpr ⟨hheld, rfl⟩, hlast⟩⟩, hbare⟩

end Bare

def Write.Adds : Write P → Prop
  | .setSubjects .. | .addSessions .. => True
  | _ => False

def Write.targets (L : LibraryReads P) : Write P → List Uuid
  | .setSubjects subjects _ => subjects.map (·.targetId)
  | .addSessions _ adds _ => adds.flatMap L.targets
  | _ => []

theorem commit_taken {H : Host} {L : LibraryReads P} {write : Write P} {expected : Nat} {b' : Rows P}
    (hs : Sound s) (hadds : write.Adds) (hroom : s.reach (write.targets L) < 2 ^ 63)
    (h : write.commit H L s.bare expected = .ok b') :
    ∃ s', write.commit H L s expected = .ok s' ∧ s'.bare = b' := by
  obtain ⟨⟨⟩, hvalid, h⟩ := Result.bind_eq_ok.mp h
  obtain ⟨⟨⟩, hrevision, h⟩ := Result.bind_eq_ok.mp h
  obtain ⟨mid, hmid, h⟩ := Result.bind_eq_ok.mp h
  cases h
  obtain ⟨mid, htaken, rfl⟩ : ∃ s', write.perform H L s = .ok s' ∧ s'.bare = mid := by
    cases write with
    | setSubjects subjects fresh => exact writeSubjects_taken hs hroom hmid
    | addSessions groups adds fresh => exact addMembers_taken hs hroom hmid
    | _ => exact hadds.elim
  exact ⟨_, Result.bind_eq_ok.mpr ⟨(), hvalid, Result.bind_eq_ok.mpr ⟨(), hrevision,
    Result.bind_eq_ok.mpr ⟨mid, htaken, rfl⟩⟩⟩, rfl⟩

/-! ## A new Project -/

theorem sound_newRows (id : Uuid) : Sound (newRows P id) where
  subjects := List.nodup_nil
  targets := List.nodup_nil
  owners _ h := absurd h List.not_mem_nil
  ids := List.nodup_nil
  sorted := List.Pairwise.nil
  hiddenSorted _ := List.Pairwise.nil
  apart _ h := absurd h List.not_mem_nil

theorem removeRig_same {L : LibraryReads P} {rig : Uuid} (h : removeRig L s rig = .ok s') :
    SameGoals s s' := by
  unfold removeRig at h
  simp only at h
  split at h
  · obtain ⟨name, -, h⟩ := Result.bind_eq_ok.mp h
    cases h
  · cases h
    exact ⟨rfl, rfl, rfl⟩

theorem writeRigs_same {L : LibraryReads P} {rigs : List Uuid} (h : writeRigs L s rigs = .ok s') :
    SameGoals s s' := by
  obtain ⟨-, -, h⟩ := Result.bind_eq_ok.mp h
  obtain ⟨mid, hmid, h⟩ := Result.bind_eq_ok.mp h
  have hremoved : SameGoals s mid := SameGoals.foldlM (fun _ _ _ => removeRig_same) hmid
  have hput (listed : List (Uuid × Nat)) (s : Rows P) : SameGoals s (listed.foldl putRig s) := by
    induction listed generalizing s with
    | nil => exact .refl s
    | cons rig rest ih =>
      have hone : SameGoals s (putRig s rig) := by
        unfold putRig
        simp only
        split <;> exact ⟨rfl, rfl, rfl⟩
      exact hone.trans (ih _)
  cases h
  exact hremoved.trans (hput _ _)

theorem insertProject_sound {L : LibraryReads P} {id : Uuid} {freshSubject : Uuid → Uuid}
    {freshGoal : Nat → Uuid} {input : ProjectInput P}
    (h : insertProject L id freshSubject freshGoal input = .ok s) : Sound s := by
  obtain ⟨-, -, h⟩ := Result.bind_eq_ok.mp h
  obtain ⟨withSubjects, hsubjects, h⟩ := Result.bind_eq_ok.mp h
  obtain ⟨withRigs, hrigs, h⟩ := Result.bind_eq_ok.mp h
  have hsame := writeRigs_same hrigs
  have hsound := (writeSubjects_spec (sound_newRows id) hsubjects).1
  -- rows without goals stay without
  have hhidden : withSubjects.hidden = [] := by
    have hroom : (newRows P id).reach (input.subjects.map (·.targetId)) < 2 ^ 63 := by
      have hzero : ∀ target, (newRows P id).hiddenEnd target = 0 := fun _ => rfl
      have hend : (newRows P id).goalsEnd = 0 := rfl
      rw [Rows.reach, hend, Finset.sum_congr rfl fun target _ => hzero target]
      simp
    obtain ⟨_, htaken, hbare⟩ := writeSubjects_taken (s := newRows P id) (sound_newRows id) hroom
      hsubjects
    rw [← hbare]
    rfl
  refine (writeGoals_spec (hsame.sound hsound) (fun n hmem => ?_) h).1
  rw [hsame.hidden, hhidden] at hmem
  exact absurd hmem List.not_mem_nil

/-- In any run of writes of a new Project no goal is shown and hidden at once, goals are hidden only
for Targets that are no subjects, and a Target that is removed and then added again has the goals it
had, less those of a group that is no panel then. The write that adds it is taken where it would be
of the Project without goals, as long as the positions of the goals it restores fit. -/
theorem hidden_goals_return {H : Host} (L : LibraryReads H.toPlatform) (id : Uuid)
    (freshSubject : Uuid → Uuid) (freshGoal : Nat → Uuid) (input : ProjectInput H.toPlatform)
    (start s : Rows H.toPlatform) (commits : List (Commit H))
    (hstart : insertProject L id freshSubject freshGoal input = .ok start)
    (hrun : Run (Step H) start commits s) :
    (∀ shown ∈ s.goals, ∀ hidden ∈ s.hidden, shown.id ≠ hidden.id) ∧
    (∀ hidden ∈ s.hidden, ¬ Present s hidden.owner) ∧
    ∀ (target : Uuid) (removal : Commit H) (gone : Rows H.toPlatform) (later : List (Commit H))
      (away : Rows H.toPlatform) (adding : Commit H) (bare : Rows H.toPlatform),
      Present s target → StepWithout H target s removal gone →
      Run (StepWithout H target) gone later away → adding.write.Adds →
      adding.write.commit H adding.library away.bare adding.expected = .ok bare →
      Present bare target →
      away.reach (adding.write.targets adding.library) < 2 ^ 63 →
      ∃ back, adding.write.commit H adding.library away adding.expected = .ok back ∧
        Present back target ∧ goalsOf back target =
          (goalsOf s target).filter fun goal => panelGroup away.groups goal.2.1 := by
  have hs := sound_of_run hrun (insertProject_sound hstart)
  refine ⟨fun shown hshown hidden hhidden => ?_, hs.apart, ?_⟩
  · exact (List.nodup_append.mp (List.map_append ▸ hs.ids)).2.2 shown.id
      (List.mem_map_of_mem hshown) hidden.id (List.mem_map_of_mem hhidden)
  · intro target removal gone later away adding bare hpresent hremoval hlater hadds hbare
      hbarePresent hroom
    obtain ⟨hgone, hremoved⟩ := hremoval.1.spec hs
    have haway := hlater.invariant (I := Sound) (fun _ _ _ hs hstep => (hstep.1.spec hs).1) hgone
    have habsent : ¬ Present away target :=
      hlater.invariant (I := fun s => ¬ Present s target) (fun _ _ _ _ hstep => hstep.2) hremoval.2
    obtain ⟨back, hback, hlike⟩ := commit_taken haway hadds hroom hbare
    have hbackPresent : Present back target := by
      rw [← hlike] at hbarePresent
      exact hbarePresent
    have hstep : Step H away adding back := by
      refine ⟨hback, ?_⟩
      match hwrite : adding.write, hadds with
      | .setSubjects .., _ => trivial
      | .addSessions .., _ => trivial
    refine ⟨back, hback, hbackPresent, ?_⟩
    rw [(hstep.spec haway).2.added target habsent hbackPresent, goalsOf_of_run hlater hgone,
      hremoved.kept target hremoval.2]

/-! ## Positions that no longer fit -/

section Alternating

def savedLibrary : LibraryReads View.wholeHost.toPlatform where
  target _ := .ok "T".toList
  equipment _ := .ok "Rig".toList
  basis _ := .error (.notFound "session")
  admission _ _ _ := .error (.notFound "session")
  captures _ := .error (.notFound "session")
  validOptics _ := .ok ()
  validFraming _ := .ok ()

def frameGoal (id : Uuid) (position : Nat) : GoalRow View.wholeHost.toPlatform :=
  ⟨id, id, none, .frameCount none 1, position⟩

def pairRows (revision : Nat) (x y : Uuid) (lo hi : Nat) : Rows View.wholeHost.toPlatform where
  id := 0
  revision
  subjects := [⟨x, x, none, 0⟩, ⟨y, y, none, 1⟩]
  rigs := [⟨5, 0⟩]
  goals := [frameGoal x lo, frameGoal y hi]
  hidden := []
  groups := []
  sessions := []
  captures := []

def aloneRows (revision : Nat) (x y : Uuid) (lo hi : Nat) : Rows View.wholeHost.toPlatform where
  id := 0
  revision
  subjects := [⟨y, y, none, 0⟩]
  rigs := [⟨5, 0⟩]
  goals := [frameGoal y hi]
  hidden := [frameGoal x lo]
  groups := []
  sessions := []
  captures := []

def leave (revision : Nat) (y : Uuid) : Commit View.wholeHost :=
  ⟨savedLibrary, revision, .setSubjects [⟨y, none⟩] id⟩

def rejoin (revision : Nat) (x y : Uuid) : Commit View.wholeHost :=
  ⟨savedLibrary, revision, .setSubjects [⟨y, none⟩, ⟨x, none⟩] id⟩

variable {revision : Nat} {x y : Uuid} {lo hi : Nat}

theorem leave_eq (hne : x ≠ y) :
    (leave revision y).write.commit View.wholeHost savedLibrary (pairRows revision x y lo hi)
      revision = .ok (aloneRows (revision + 1) x y lo hi) := by
  simp [leave, Write.commit, Write.validate, Write.perform, validateSubjects, validateSubjectsFrom,
    Result.require, pairRows, writeSubjects, savedLibrary, removeSubject, hideGoals, frameGoal,
    insertGoal, putSubject, aloneRows, hne, hne.symm, SubjectInput.label, bind, Except.bind, pure,
    Except.pure]

theorem rejoin_eq (hne : x ≠ y) (hfits : hi + 1 + lo < 2 ^ 63) :
    (rejoin revision x y).write.commit View.wholeHost savedLibrary (aloneRows revision x y lo hi)
      revision = .ok (pairRows (revision + 1) y x hi (hi + 1 + lo)) := by
  have hend : hi + 1 < 2 ^ 63 := by omega
  simp only [Nat.reducePow] at hfits hend
  simp [rejoin, Write.commit, Write.validate, Write.perform, validateSubjects, validateSubjectsFrom,
    Result.require, pairRows, writeSubjects, savedLibrary, frameGoal, insertGoal, putSubject,
    aloneRows, hne, hne.symm, SubjectInput.label, bind, Except.bind, pure, Except.pure,
    insertSubject, restoreHiddenGoals, endOf, column, panelGroup, hend, hfits]

theorem rejoin_refused (hne : x ≠ y) (hend : hi + 1 < 2 ^ 63) (hfull : 2 ^ 63 ≤ hi + 1 + lo) :
    (rejoin revision x y).write.commit View.wholeHost savedLibrary (aloneRows revision x y lo hi)
      revision = .error (refused "an integer column") := by
  have hnot : ¬ hi + 1 + lo < 2 ^ 63 := by omega
  simp only [Nat.reducePow] at hnot hend
  simp [rejoin, Write.commit, Write.validate, Write.perform, validateSubjects, validateSubjectsFrom,
    Result.require, writeSubjects, savedLibrary, frameGoal, insertGoal, putSubject, aloneRows, hne,
    hne.symm, SubjectInput.label, bind, Except.bind, pure, Except.pure, insertSubject,
    restoreHiddenGoals, endOf, column, panelGroup, hend, hnot]

theorem rejoin_bare (hne : x ≠ y) :
    ∃ bare, (rejoin revision x y).write.commit View.wholeHost savedLibrary
      (aloneRows revision x y lo hi).bare revision = .ok bare ∧ Present bare x := by
  simp [rejoin, Write.commit, Write.validate, Write.perform, validateSubjects, validateSubjectsFrom,
    Result.require, writeSubjects, savedLibrary, frameGoal, putSubject, aloneRows, hne, hne.symm,
    SubjectInput.label, bind, Except.bind, pure, Except.pure, insertSubject, restoreHiddenGoals,
    endOf, column, panelGroup, Rows.bare, Rows.holding, Present, Rows.subjectKeys]

def pairInput : ProjectInput View.wholeHost.toPlatform where
  name := "M 81".toList
  subjects := [⟨1, none⟩, ⟨2, none⟩]
  rigIds := [5]
  goals := [⟨1, none, .frameCount none 1⟩, ⟨2, none, .frameCount none 1⟩]

def pairGoalId (n : Nat) : Uuid := if n = 0 then 1 else 2

theorem insert_pair :
    insertProject savedLibrary 0 id pairGoalId pairInput = .ok (pairRows 1 1 2 0 1) := by
  have hname : trim ['M', ' ', '8', '1'] ≠ [] := by decide
  simp [insertProject, pairInput, ProjectInput.validate, validateProjectName, validateSubjects,
    validateSubjectsFrom, validateRigs, validateRigsFrom, validateGoals, validateGoalsFrom,
    GoalSpec.validate, GoalSpec.channel, GoalSpec.inRange, Result.require, Except.mapError,
    writeSubjects, savedLibrary, newRows, putSubject, insertSubject, restoreHiddenGoals, endOf,
    column, SubjectInput.label, writeRigs, putRig, writeGoals, resolveGoal, requirePanelGroup,
    Result.orElse, GoalSpec.normalized, GoalSpec.dbCounts, dbCount, insertGoal, pairGoalId,
    pairRows, frameGoal, bind, Except.bind, pure, Except.pure, hname]

/-- The goal of a Target that left and is added again is back. -/
theorem pair_goals_return :
    ∃ back, (rejoin 2 1 2).write.commit View.wholeHost (rejoin 2 1 2).library
        (aloneRows 2 1 2 0 1) (rejoin 2 1 2).expected = .ok back ∧ Present back 1 ∧
      goalsOf back 1 = (goalsOf (pairRows 1 1 2 0 1) 1).filter fun goal =>
        panelGroup (aloneRows 2 1 2 0 1).groups goal.2.1 := by
  have hne : (1 : Uuid) ≠ 2 := by decide
  obtain ⟨bare, hbare, hpresent⟩ := @rejoin_bare 2 1 2 0 1 hne
  refine (hidden_goals_return savedLibrary 0 id pairGoalId pairInput _ _ [] insert_pair
    (.nil _)).2.2 1 (leave 1 2) _ [] _ (rejoin 2 1 2) bare ?_ ⟨⟨leave_eq hne, trivial⟩, ?_⟩ (.nil _)
    trivial hbare hpresent ?_
  · simp [Present, Rows.subjectKeys, pairRows]
  · simp [Present, Rows.subjectKeys, aloneRows]
  · decide

theorem spread (k : Nat) (hk : Nat.fib (k + 3) ≤ 2 ^ 63) :
    ∃ commits revision x y, x ≠ y ∧ Run (Step View.wholeHost) (pairRows 1 1 2 0 1) commits
      (pairRows revision x y (Nat.fib (k + 2) - 1) (Nat.fib (k + 3) - 1)) := by
  induction k with
  | zero => exact ⟨[], 1, 1, 2, by decide, .nil _⟩
  | succ k ih =>
    have hadd : Nat.fib (k + 4) = Nat.fib (k + 2) + Nat.fib (k + 3) := Nat.fib_add_two
    have hk : Nat.fib (k + 4) ≤ 2 ^ 63 := hk
    have hlo : 0 < Nat.fib (k + 2) := Nat.fib_pos.mpr (by omega)
    have hhi : 0 < Nat.fib (k + 3) := Nat.fib_pos.mpr (by omega)
    obtain ⟨commits, revision, x, y, hne, hrun⟩ := ih (by omega)
    have hnext : Nat.fib (k + 3) - 1 + 1 + (Nat.fib (k + 2) - 1) = Nat.fib (k + 4) - 1 := by omega
    have hrejoin := @rejoin_eq (revision + 1) x y (Nat.fib (k + 2) - 1) (Nat.fib (k + 3) - 1) hne
      (by omega)
    rw [hnext] at hrejoin
    refine ⟨commits ++ [leave revision y, rejoin (revision + 1) x y], _, y, x, hne.symm,
      hrun.append (.cons ⟨leave_eq hne, trivial⟩ (.cons ⟨hrejoin, trivial⟩ (.nil _)))⟩

/-- After some ninety turns a write that adds a Target again is refused for its goals' positions. -/
theorem target_never_added_again :
    ∃ (start s away bare : Rows View.wholeHost.toPlatform) (commits : List (Commit View.wholeHost))
      (removal adding : Commit View.wholeHost) (target : Uuid),
      insertProject savedLibrary 0 id pairGoalId pairInput = .ok start ∧
      Run (Step View.wholeHost) start commits s ∧ Present s target ∧
      StepWithout View.wholeHost target s removal away ∧ adding.write.Adds ∧
      adding.write.commit View.wholeHost adding.library away.bare adding.expected = .ok bare ∧
      Present bare target ∧
      adding.write.commit View.wholeHost adding.library away adding.expected =
        .error (refused "an integer column") := by
  have hlast : Nat.fib 92 < 2 ^ 63 ∧ 2 ^ 63 < Nat.fib 93 := by norm_num
  have hadd : Nat.fib 93 = Nat.fib 91 + Nat.fib 92 := Nat.fib_add_two
  have hlo : 0 < Nat.fib 91 := Nat.fib_pos.mpr (by decide)
  obtain ⟨commits, revision, x, y, hne, hrun⟩ := spread 89 hlast.1.le
  obtain ⟨bare, hbare, hpresent⟩ := @rejoin_bare (revision + 1) x y (Nat.fib 91 - 1)
    (Nat.fib 92 - 1) hne
  refine ⟨_, _, aloneRows (revision + 1) x y (Nat.fib 91 - 1) (Nat.fib 92 - 1), bare, commits,
    leave revision y, rejoin (revision + 1) x y, x, insert_pair, hrun, ?_, ⟨⟨leave_eq hne, trivial⟩, ?_⟩,
    trivial, hbare, hpresent, rejoin_refused hne (by omega) (by omega)⟩
  · simp [Present, Rows.subjectKeys, pairRows]
  · simpa [Present, Rows.subjectKeys, aloneRows] using hne

end Alternating

/-! ## Goal rows -/

/-- Over every sequence of writes to a Project: a Target is a subject once, every goal shown is of a
subject, no two goals have an id in common, and the goals shown, and those hidden of a Target, stand at
positions of their own, in order. -/
theorem goal_rows_sound (L : LibraryReads H.toPlatform) (id : Uuid) (freshSubject : Uuid → Uuid)
    (freshGoal : Nat → Uuid) (input : ProjectInput H.toPlatform) (start s : Rows H.toPlatform)
    (commits : List (Commit H)) (hstart : insertProject L id freshSubject freshGoal input = .ok start)
    (hrun : Run (Step H) start commits s) :
    (s.subjectKeys.map (·.1)).Nodup ∧ (s.subjectKeys.map (·.2)).Nodup ∧
      (∀ goal ∈ s.goals, goal.owner ∈ s.subjectKeys.map (·.1)) ∧
      ((s.goals ++ s.hidden).map (·.id)).Nodup ∧
      (s.goals.Pairwise fun a b => a.position < b.position) ∧
      ∀ target, (s.hidden.filter (·.owner = target)).Pairwise fun a b => a.position < b.position := by
  have hsound := sound_of_run hrun (insertProject_sound hstart)
  exact ⟨hsound.subjects, hsound.targets, hsound.owners, hsound.ids, hsound.sorted,
    hsound.hiddenSorted⟩

/-- The goals of two Targets, once one of the Targets left. -/
theorem goal_rows_sound_pair : (((aloneRows 2 1 2 0 1).goals ++ (aloneRows 2 1 2 0 1).hidden).map
    (·.id)).Nodup ∧ (aloneRows 2 1 2 0 1).hidden ≠ [] := by
  have hleft : Step View.wholeHost (pairRows 1 1 2 0 1) (leave 1 2) (aloneRows 2 1 2 0 1) :=
    ⟨leave_eq (by decide), trivial⟩
  exact ⟨(goal_rows_sound savedLibrary 0 id pairGoalId pairInput _ _ _ insert_pair
    (.cons hleft (.nil _))).2.2.2.1, by simp [aloneRows]⟩

end PlateVault.Projects
