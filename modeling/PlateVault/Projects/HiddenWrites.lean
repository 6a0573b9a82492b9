import PlateVault.Projects.HiddenGoals

/-!
# What writes do to hidden goals

A write hides the goals of the Targets it removes and restores those of the Targets it adds; a Target
that is no subject before and after keeps its hidden goals.
-/

namespace PlateVault.Projects

open View (Host)

variable {P : Platform} {s s' s'' : Rows P}

/-! ## Adding subjects -/

/-- What a write that removes no subject does: a Target that is added has its goals again, less those
of a group that is no panel; every other has the goals it had. -/
structure Grows (s s' : Rows P) : Prop where
  panels : ∀ group, panelGroup s'.groups group = panelGroup s.groups group
  kept : ∀ target, Present s target → Present s' target ∧ goalsOf s' target = goalsOf s target
  away : ∀ target, ¬ Present s' target → goalsOf s' target = goalsOf s target
  added : ∀ target, ¬ Present s target → Present s' target →
    goalsOf s' target = (goalsOf s target).filter fun goal => panelGroup s.groups goal.2.1

namespace Grows

theorem refl (s : Rows P) : Grows s s :=
  ⟨fun _ => rfl, fun _ h => ⟨h, rfl⟩, fun _ _ => rfl, fun _ h h' => absurd h' h⟩

theorem trans (h : Grows s s') (h' : Grows s' s'') : Grows s s'' where
  panels group := (h'.panels group).trans (h.panels group)
  kept target hpresent := by
    obtain ⟨hmid, heq⟩ := h.kept target hpresent
    obtain ⟨hlast, heq'⟩ := h'.kept target hmid
    exact ⟨hlast, heq'.trans heq⟩
  away target habsent := by
    have hmid : ¬ Present s' target := fun hmid => habsent (h'.kept target hmid).1
    exact (h'.away target habsent).trans (h.away target hmid)
  added target habsent hpresent := by
    by_cases hmid : Present s' target
    · rw [(h'.kept target hmid).2, h.added target habsent hmid]
    · rw [h'.added target hmid hpresent, h.away target hmid]
      simp only [h.panels]

end Grows

theorem SameGoals.grows (h : SameGoals s s')
    (hpanels : ∀ group, panelGroup s'.groups group = panelGroup s.groups group) : Grows s s' where
  panels := hpanels
  kept target hpresent := ⟨(h.present target).mpr hpresent, h.goalsOf_eq target⟩
  away target _ := h.goalsOf_eq target
  added target habsent hpresent := absurd ((h.present target).mp hpresent) habsent

theorem Sound.addSubject (hs : Sound s) (row : SubjectRow)
    (h : (insertSubject s row >>= fun s => restoreHiddenGoals s row.targetId) = .ok s') :
    Sound s' ∧ Grows s s' ∧ Present s' row.targetId := by
  obtain ⟨mid, hinsert, hrestore⟩ := Result.bind_eq_ok.mp h
  obtain ⟨hid, habsent, rfl⟩ := insertSubject_eq_ok.mp hinsert
  obtain ⟨-, rfl⟩ := (restoreHiddenGoals_eq_ok hs habsent).mp hrestore
  refine ⟨hs.adding hid habsent, ⟨fun _ => rfl, fun target hpresent => ?_, fun target hout => ?_,
    fun target hout hpresent => ?_⟩, (present_adding _).mpr (.inr rfl)⟩
  · refine ⟨(present_adding _).mpr (.inl hpresent), goalsOf_adding_other hs hid habsent ?_⟩
    rintro rfl
    exact habsent hpresent
  · exact goalsOf_adding_other hs hid habsent fun heq => hout ((present_adding _).mpr (.inr heq))
  · rcases (present_adding _).mp hpresent with hpresent | rfl
    · exact absurd hpresent hout
    · exact goalsOf_adding_self hs hid habsent

theorem Sound.foldlM {ρ : Type} {step : Rows P → ρ → Result (Rows P)} {rows : List ρ}
    (hstep : ∀ row ∈ rows, ∀ s s', Sound s → step s row = .ok s' → Sound s' ∧ Grows s s')
    {s s' : Rows P} (hs : Sound s) (h : rows.foldlM step s = .ok s') : Sound s' ∧ Grows s s' := by
  induction rows generalizing s with
  | nil =>
    cases h
    exact ⟨hs, .refl _⟩
  | cons row rest ih =>
    rw [List.foldlM_cons, Result.bind_eq_ok] at h
    obtain ⟨mid, hmid, hrest⟩ := h
    obtain ⟨hmidSound, hgrows⟩ := hstep row List.mem_cons_self _ _ hs hmid
    obtain ⟨hlast, hgrows'⟩ :=
      ih (fun other hother => hstep other (List.mem_cons_of_mem _ hother)) hmidSound hrest
    exact ⟨hlast, hgrows.trans hgrows'⟩

theorem putSubject_spec {fresh : Uuid → Uuid} {stored : List SubjectRow} {listed : SubjectInput × Nat}
    (hs : Sound s) (h : putSubject fresh stored s listed = .ok s') : Sound s' ∧ Grows s s' := by
  unfold putSubject at h
  simp only at h
  split at h
  · rename_i row hfind
    cases h
    have hsame : SameGoals s { s with subjects := s.subjects.map fun other =>
        if other.id = row.id then { other with name := listed.1.label, position := listed.2 }
        else other } := by
      refine ⟨?_, rfl, rfl⟩
      rw [Rows.subjectKeys, Rows.subjectKeys, List.map_map]
      refine List.map_congr_left fun other _ => ?_
      rw [Function.comp_apply]
      split <;> rfl
    exact ⟨hsame.sound hs, hsame.grows fun _ => rfl⟩
  · obtain ⟨hs', hgrows, -⟩ := hs.addSubject _ h
    exact ⟨hs', hgrows⟩

/-! ## Adding sessions -/

theorem insertGroup_spec {H : Host} {L : LibraryReads P} {group : NewGroup P}
    (hs : Sound s) (h : insertGroup H L s group = .ok s') : Sound s' ∧ Grows s s' := by
  unfold insertGroup at h
  obtain ⟨-, -, h⟩ := Result.bind_eq_ok.mp h
  obtain ⟨-, -, h⟩ := Result.bind_eq_ok.mp h
  obtain ⟨-, -, h⟩ := Result.bind_eq_ok.mp h
  have hsame : SameGoals s s' := by
    cases h
    exact ⟨rfl, rfl, rfl⟩
  refine ⟨hsame.sound hs, hsame.grows fun id => ?_⟩
  cases h
  cases id with
  | none => rfl
  | some id => simp [panelGroup]

theorem insertCapture_eq_ok {capture : ProjectCapture} (h : insertCapture s capture = .ok s') :
    s' = { s with captures := s.captures ++ [capture] } := by
  unfold insertCapture at h
  simp only at h
  split at h
  · cases h
  · obtain ⟨-, -, h⟩ := Result.bind_eq_ok.mp h
    obtain ⟨-, -, h⟩ := Result.bind_eq_ok.mp h
    cases h
    rfl

theorem insertCapture_spec {capture : ProjectCapture} (hs : Sound s)
    (h : insertCapture s capture = .ok s') : Sound s' ∧ Grows s s' := by
  have hsame : SameGoals s s' := by
    rw [insertCapture_eq_ok h]
    exact ⟨rfl, rfl, rfl⟩
  exact ⟨hsame.sound hs, hsame.grows fun _ => by rw [insertCapture_eq_ok h]⟩

theorem appendTarget_spec {fresh : Uuid → Uuid} {target : Uuid} (hs : Sound s)
    (h : appendTarget fresh s target = .ok s') : Sound s' ∧ Grows s s' ∧ Present s' target := by
  unfold appendTarget at h
  split at h
  · rename_i hany
    cases h
    obtain ⟨row, hrow, htarget⟩ := List.any_eq_true.mp hany
    refine ⟨hs, .refl s, List.mem_map.mpr ⟨(row.id, row.targetId), List.mem_map_of_mem hrow, ?_⟩⟩
    exact of_decide_eq_true htarget
  · exact hs.addSubject ⟨fresh target, target, none, _⟩ h

theorem appendTargetAndRig_spec {L : LibraryReads P} {fresh : Uuid → Uuid} {session target : Uuid}
    (hs : Sound s) (h : appendTargetAndRig L fresh s session = .ok (s', target)) :
    Sound s' ∧ Grows s s' := by
  obtain ⟨basis, -, h⟩ := Result.bind_eq_ok.mp h
  obtain ⟨added, -, h⟩ := Result.bind_eq_ok.mp h
  obtain ⟨mid, hmid, h⟩ := Result.bind_eq_ok.mp h
  obtain ⟨hmidSound, hgrows, -⟩ := appendTarget_spec hs hmid
  cases h
  have hrig : SameGoals mid (appendRig mid added) := ⟨rfl, rfl, rfl⟩
  exact ⟨hrig.sound hmidSound, hgrows.trans (hrig.grows fun _ => rfl)⟩

theorem addSession_spec {L : LibraryReads P} {fresh : Uuid → Uuid} {add : SessionAdd} (hs : Sound s)
    (h : addSession L fresh s add = .ok s') : Sound s' ∧ Grows s s' := by
  unfold addSession at h
  obtain ⟨-, -, h⟩ := Result.bind_eq_ok.mp h
  obtain ⟨basis, -, h⟩ := Result.bind_eq_ok.mp h
  obtain ⟨⟨mid, target⟩, hmid, h⟩ := Result.bind_eq_ok.mp h
  obtain ⟨captures, -, h⟩ := Result.bind_eq_ok.mp h
  obtain ⟨hmidSound, hgrows⟩ := appendTargetAndRig_spec hs hmid
  have hmember : SameGoals mid (insertMember mid
      ⟨add.sessionId, add.groupId, add.placement, target, basis⟩) := ⟨rfl, rfl, rfl⟩
  obtain ⟨hlast, hgrows'⟩ := Sound.foldlM (fun _ _ _ _ => insertCapture_spec)
    (hmember.sound hmidSound) h
  exact ⟨hlast, hgrows.trans ((hmember.grows fun _ => rfl).trans hgrows')⟩

theorem addMembers_spec {H : Host} {L : LibraryReads P} {fresh : Uuid → Uuid}
    {groups : List (NewGroup P)} {adds : List SessionAdd} (hs : Sound s)
    (h : addMembers H L fresh s groups adds = .ok s') : Sound s' ∧ Grows s s' := by
  unfold addMembers at h
  obtain ⟨-, -, h⟩ := Result.bind_eq_ok.mp h
  obtain ⟨-, -, h⟩ := Result.bind_eq_ok.mp h
  obtain ⟨-, -, h⟩ := Result.bind_eq_ok.mp h
  obtain ⟨mid, hmid, h⟩ := Result.bind_eq_ok.mp h
  obtain ⟨hmidSound, hgrows⟩ := Sound.foldlM (fun _ _ _ _ => insertGroup_spec) hs hmid
  obtain ⟨hlast, hgrows'⟩ := Sound.foldlM (fun _ _ _ _ => addSession_spec) hmidSound h
  exact ⟨hlast, hgrows.trans hgrows'⟩

/-! ## Removing subjects -/

/-- What a write that adds no subject does: every Target has the goals it had. -/
structure Shrinks (s s' : Rows P) : Prop where
  groups : s'.groups = s.groups
  goals : ∀ target, goalsOf s' target = goalsOf s target
  present : ∀ target, Present s' target → Present s target

/-- The state after subjects are removed one after the other. -/
def Rows.withoutAll (s : Rows P) (rows : List SubjectRow) : Rows P :=
  rows.foldl (fun s row => s.without row.id row.targetId) s

theorem key_without {row other : SubjectRow} (hkey : (other.id, other.targetId) ∈ s.subjectKeys)
    (hne : other.id ≠ row.id) :
    (other.id, other.targetId) ∈ (s.without row.id row.targetId).subjectKeys := by
  rw [subjectKeys_without]
  exact mem_of_subjectKeys_filter.mpr ⟨hkey, hne⟩

/-- What is removed are subjects of the Project, each once. -/
structure Removable (s : Rows P) (rows : List SubjectRow) : Prop where
  keys : ∀ row ∈ rows, (row.id, row.targetId) ∈ s.subjectKeys
  nodup : (rows.map (·.id)).Nodup

theorem Removable.tail {row : SubjectRow} {rows : List SubjectRow} (h : Removable s (row :: rows)) :
    Removable (s.without row.id row.targetId) rows := by
  obtain ⟨hkeys, hnodup⟩ := h
  rw [List.map_cons, List.nodup_cons] at hnodup
  refine ⟨fun other hother => key_without (hkeys other (List.mem_cons_of_mem _ hother)) ?_, hnodup.2⟩
  exact fun heq => hnodup.1 (List.mem_map.mpr ⟨other, hother, heq⟩)

theorem removeSubjects_eq_ok {L : LibraryReads P} {rows : List SubjectRow} (hs : Sound s)
    (hrows : Removable s rows) :
    rows.foldlM (removeSubject L) s = .ok s' ↔
      (∀ row ∈ rows, s.sessions.countP (·.targetId = row.targetId) = 0) ∧
        s' = s.withoutAll rows := by
  induction rows generalizing s with
  | nil =>
    rw [List.foldlM_nil]
    constructor
    · intro h
      cases h
      exact ⟨fun _ h => absurd h List.not_mem_nil, rfl⟩
    · rintro ⟨-, rfl⟩
      rfl
  | cons row rest ih =>
    have hkey := hrows.keys row List.mem_cons_self
    rw [List.foldlM_cons, Result.bind_eq_ok]
    constructor
    · rintro ⟨mid, hmid, hrest⟩
      obtain ⟨hheld, rfl⟩ := (removeSubject_eq_ok hs).mp hmid
      obtain ⟨hall, rfl⟩ := (ih (hs.without hkey) hrows.tail).mp hrest
      exact ⟨List.forall_mem_cons.mpr ⟨hheld, hall⟩, rfl⟩
    · rintro ⟨hall, rfl⟩
      obtain ⟨hheld, hall⟩ := List.forall_mem_cons.mp hall
      exact ⟨_, (removeSubject_eq_ok hs).mpr ⟨hheld, rfl⟩,
        (ih (hs.without hkey) hrows.tail).mpr ⟨hall, rfl⟩⟩

theorem Sound.withoutAll {rows : List SubjectRow} (hs : Sound s) (hrows : Removable s rows) :
    Sound (s.withoutAll rows) ∧ Shrinks s (s.withoutAll rows) := by
  induction rows generalizing s with
  | nil => exact ⟨hs, rfl, fun _ => rfl, fun _ h => h⟩
  | cons row rest ih =>
    have hkey := hrows.keys row List.mem_cons_self
    obtain ⟨hlast, hshrinks⟩ := ih (hs.without hkey) hrows.tail
    refine ⟨hlast, hshrinks.groups, fun target => ?_, fun target hpresent => ?_⟩
    · exact (hshrinks.goals target).trans (goalsOf_without hs hkey target)
    · exact ((present_without hs hkey target).mp (hshrinks.present target hpresent)).1

theorem Sound.removable (hs : Sound s) (p : SubjectRow → Bool) :
    Removable s (s.subjects.filter p) where
  keys row hrow := List.mem_map_of_mem (List.mem_filter.mp hrow).1
  nodup := by
    have hids : s.subjectKeys.map (·.1) = s.subjects.map (·.id) := List.map_map
    exact (hids ▸ hs.subjects).sublist (List.filter_sublist.map _)

/-! ## Any write -/

/-- What any write does: a Target that is no subject after it has the goals it had; one that is added
has them again, less those of a group that is no panel. -/
structure Moves (s s' : Rows P) : Prop where
  kept : ∀ target, ¬ Present s' target → goalsOf s' target = goalsOf s target
  added : ∀ target, ¬ Present s target → Present s' target →
    goalsOf s' target = (goalsOf s target).filter fun goal => panelGroup s.groups goal.2.1

theorem Grows.moves (h : Grows s s') : Moves s s' := ⟨h.away, h.added⟩

theorem SameGoals.moves (h : SameGoals s s') : Moves s s' where
  kept target _ := h.goalsOf_eq target
  added target habsent hpresent := absurd ((h.present target).mp hpresent) habsent

theorem Shrinks.moves (h : Shrinks s s') (h' : Grows s' s'') : Moves s s'' where
  kept target habsent := (h'.away target habsent).trans (h.goals target)
  added target habsent hpresent := by
    have hmid : ¬ Present s' target := fun hmid => habsent (h.present target hmid)
    rw [h'.added target hmid hpresent, h.goals, h.groups]

theorem writeSubjects_spec {L : LibraryReads P} {fresh : Uuid → Uuid} {subjects : List SubjectInput}
    (hs : Sound s) (h : writeSubjects L fresh s subjects = .ok s') : Sound s' ∧ Moves s s' := by
  unfold writeSubjects at h
  obtain ⟨-, -, h⟩ := Result.bind_eq_ok.mp h
  obtain ⟨mid, hmid, h⟩ := Result.bind_eq_ok.mp h
  have hrows := hs.removable fun row => row.targetId ∉ subjects.map (·.targetId)
  obtain ⟨-, rfl⟩ := (removeSubjects_eq_ok hs hrows).mp hmid
  obtain ⟨hmidSound, hshrinks⟩ := hs.withoutAll hrows
  obtain ⟨hlast, hgrows⟩ := Sound.foldlM (fun _ _ _ _ => putSubject_spec) hmidSound h
  exact ⟨hlast, hshrinks.moves hgrows⟩

/-! ## Goal writes -/

section WriteGoals

variable {fresh : Nat → Uuid} {goals : List (GoalInput P)}

theorem resolveGoal_eq_ok {listed : GoalInput P × Nat} {row : GoalRow P}
    (h : resolveGoal fresh s listed = .ok row) :
    row.position = listed.2 ∧ row.owner ∈ s.subjectKeys.map (·.1) ∧
      (row.id ∈ s.goals.map (·.id) ∨ row.id = fresh listed.2) := by
  unfold resolveGoal at h
  simp only at h
  obtain ⟨subject, hsubject, h⟩ := Result.bind_eq_ok.mp h
  obtain ⟨-, -, h⟩ := Result.bind_eq_ok.mp h
  cases h
  have hmem := List.mem_of_find?_eq_some (Result.orElse_eq_ok.mp hsubject)
  refine ⟨rfl, ?_, ?_⟩
  · exact List.mem_map.mpr ⟨(subject.id, subject.targetId), List.mem_map_of_mem hmem, rfl⟩
  · simp only
    split
    · rename_i row hfind
      refine .inl (List.mem_map_of_mem ?_)
      exact List.mem_mergeSort.mp (List.mem_reverse.mp (List.mem_of_find?_eq_some hfind))
    · exact .inr rfl

theorem map_position_mapM {listed : List (GoalInput P × Nat)} {rows : List (GoalRow P)}
    (h : listed.mapM (resolveGoal fresh s) = .ok rows) :
    rows.map (·.position) = listed.map (·.2) := by
  induction listed generalizing rows with
  | nil =>
    cases h
    rfl
  | cons first rest ih =>
    simp only [List.mapM_cons, Result.bind_eq_ok, Result.pure_eq_ok] at h
    obtain ⟨row, hrow, rows, hrows, rfl⟩ := h
    rw [List.map_cons, List.map_cons, ih hrows, (resolveGoal_eq_ok hrow).1]

theorem writeGoals_spec (hs : Sound s) (hfresh : ∀ n, fresh n ∉ s.hidden.map (·.id))
    (h : writeGoals fresh s goals = .ok s') : Sound s' ∧ Moves s s' := by
  unfold writeGoals at h
  obtain ⟨rows, hrows, h⟩ := Result.bind_eq_ok.mp h
  obtain ⟨written, hwritten, h⟩ := Result.bind_eq_ok.mp h
  obtain ⟨-, rfl, hnodup, -⟩ := (foldlM_insertGoal _ id
    (fun row => row.goal.dbCounts = .ok ()) (fun goals row out => by
      rw [Result.bind_eq_ok]
      constructor
      · rintro ⟨⟨⟩, hcounts, hinsert⟩
        exact ⟨hcounts, hinsert⟩
      · rintro ⟨hcounts, hinsert⟩
        exact ⟨(), hcounts, hinsert⟩) rows [] written).mp hwritten
  cases h
  rw [List.nil_append, List.map_id]
  have hresolved := fun row hrow => Result.mem_mapM hrows (b := row) hrow
  have hpositions := map_position_mapM hrows
  rw [List.zipIdx_map_snd] at hpositions
  refine ⟨⟨hs.subjects, hs.targets, ?_, ?_, ?_, hs.hiddenSorted, hs.apart⟩, ⟨?_, ?_⟩⟩
  · intro row hrow
    obtain ⟨listed, -, hrow⟩ := hresolved row hrow
    exact (resolveGoal_eq_ok hrow).2.1
  · have hids := List.nodup_append.mp (List.map_append ▸ hs.ids)
    rw [List.map_append]
    refine List.nodup_append.mpr ⟨hnodup, hids.2.1, ?_⟩
    rintro _ hid other hother rfl
    obtain ⟨row, hrow, rfl⟩ := List.mem_map.mp hid
    obtain ⟨listed, -, hrow⟩ := hresolved row hrow
    rcases (resolveGoal_eq_ok hrow).2.2 with hold | hnew
    · exact hids.2.2 row.id hold row.id hother rfl
    · exact hfresh _ (hnew ▸ hother)
  · have hlt := List.pairwise_lt_range' (s := 0) (n := goals.length)
    rw [← hpositions, List.pairwise_map] at hlt
    exact hlt
  · intro target habsent
    have hnone : s.subjectKeys.find? (fun key => key.2 = target) = none := by
      refine List.find?_eq_none.mpr fun key hkey heq => habsent ?_
      exact List.mem_map.mpr ⟨key, hkey, of_decide_eq_true heq⟩
    have hnone' : ({ s with goals := rows } : Rows P).subjectKeys.find?
        (fun key => key.2 = target) = none := hnone
    rw [goalsOf, goalsOf, hnone, hnone']
  · exact fun target habsent hpresent => absurd hpresent habsent

end WriteGoals

end PlateVault.Projects
