import PlateVault.Rigs.Versions

/-!
# What is recorded

Each write of the recorded versions touches one session, and leaves it with a version of the rig it
was written for, unless that rig has none for its night.
-/

namespace PlateVault.Rigs

open Library

variable {P : Platform} {R : Reader}

theorem foldl_mem {α : Type} {f : α → α → α} (hf : ∀ a b, f a b = a ∨ f a b = b) (first : α)
    (rest : List α) : rest.foldl f first ∈ first :: rest := by
  induction rest generalizing first with
  | nil => exact List.mem_singleton_self _
  | cons a rest ih =>
    rw [List.foldl_cons]
    rcases List.mem_cons.mp (ih (f first a)) with heq | hmem
    · rw [heq]
      rcases hf first a with h | h <;> simp [h]
    · exact List.mem_cons_of_mem _ (List.mem_cons_of_mem _ hmem)

theorem mem_maxBy {α : Type} {cmp : α → α → Ordering} {as : List α} {a : α}
    (h : Ordered.maxBy cmp as = some a) : a ∈ as := by
  cases as with
  | nil => cases h
  | cons first rest =>
    cases h
    exact foldl_mem (fun best a => by split <;> simp) first rest

theorem mem_minBy {α : Type} {cmp : α → α → Ordering} {as : List α} {a : α}
    (h : Ordered.minBy cmp as = some a) : a ∈ as := by
  cases as with
  | nil => cases h
  | cons first rest =>
    cases h
    exact foldl_mem (fun best a => by split <;> simp) first rest

theorem mapM_id_eq_some {α : Type} {frames : List (Option α)} {found : List α} :
    frames.mapM id = some found ↔ frames = found.map some := by
  induction frames generalizing found with
  | nil => cases found <;> simp
  | cons frame frames ih =>
    cases frame with
    | none => cases found <;> simp
    | some a =>
      cases hfound : frames.mapM id with
      | none =>
        cases found with
        | nil => simp [hfound]
        | cons b found =>
          have hother : frames ≠ found.map some := fun heq => by simp [ih.mpr heq] at hfound
          simp [hfound, hother]
      | some rest =>
        obtain rfl := ih.mp hfound
        cases found with
        | nil => simp [hfound]
        | cons b found =>
          simp [hfound, (Option.some_injective α).list_map.eq_iff]

theorem RigVersion.forNight_mem {versions : List RigVersion} {night : Option Int}
    {version : RigVersion} (h : forNight versions night = some version) : version ∈ versions := by
  unfold forNight at h
  split at h
  · split at h
    · cases h
      exact List.mem_singleton_self _
    · cases h
  · rcases Option.or_eq_some_iff.mp h with hlatest | ⟨-, hfirst⟩
    · exact (List.mem_filter.mp (mem_maxBy hlatest)).1
    · exact mem_minBy hfirst

namespace Versions

variable {s s' : Versions} {night : Uuid → Option Int} {rig session other : Uuid}

theorem mem_loadRigVersions {version : RigVersion} :
    version ∈ s.loadRigVersions rig ↔ version ∈ s.rows.rows ∧ version.rigId = rig := by
  simp [loadRigVersions]

theorem find?_of_loadRigVersions {version : RigVersion} (h : version ∈ s.loadRigVersions rig) :
    s.rows.find? version.id = some version :=
  Table.find?_of_mem (mem_loadRigVersions.mp h).1

theorem loadSessionRigVersion_congr (hrows : s'.rows = s.rows)
    (hrecorded : s'.recorded session = s.recorded session) :
    s'.loadSessionRigVersion session = s.loadSessionRigVersion session := by
  rw [loadSessionRigVersion, loadSessionRigVersion, hrows, hrecorded]

/-- What a session confirmed to a rig has recorded: a version of that rig, or none where the rig has
none for its night. -/
structure Versioned (s : Versions) (night : Uuid → Option Int) (rig session : Uuid) : Prop where
  own : ∀ version, s.loadSessionRigVersion session = some version → version.rigId = rig
  waits : s.loadSessionRigVersion session = none →
    RigVersion.forNight (s.loadRigVersions rig) (night session) = none

theorem Versioned.congr (h : s.Versioned night rig session) (hrows : s'.rows = s.rows)
    (hrecorded : s'.recorded session = s.recorded session) : s'.Versioned night rig session where
  own := by
    rw [loadSessionRigVersion_congr hrows hrecorded]
    exact h.own
  waits := by
    rw [loadSessionRigVersion_congr hrows hrecorded, loadRigVersions, hrows]
    exact h.waits

theorem write_versioned {version : RigVersion} (hfind : s.rows.find? version.id = some version)
    (hrig : version.rigId = rig) :
    (s.writeSessionRigVersion session version.id).Versioned night rig session := by
  have hload : (s.writeSessionRigVersion session version.id).loadSessionRigVersion session =
      some version := by
    simp [writeSessionRigVersion, loadSessionRigVersion, hfind]
  constructor
  · intro other hother
    rw [hload] at hother
    cases hother
    exact hrig
  · intro hnone
    rw [hload] at hnone
    cases hnone

def Held (s : Versions) : Prop :=
  ∀ session version, s.recorded session = some version → s.rows.find? version ≠ none

theorem Held.write {version : RigVersion} (h : s.Held)
    (hfind : s.rows.find? version.id = some version) :
    (s.writeSessionRigVersion session version.id).Held := by
  intro id recorded hrecorded
  simp only [writeSessionRigVersion] at hrecorded ⊢
  split at hrecorded
  · cases hrecorded
    simp [hfind]
  · exact h id recorded hrecorded

/-! ## One record -/

@[simp] theorem recordSessionRigVersion_rows :
    (s.recordSessionRigVersion night rig session).rows = s.rows := by
  simp only [recordSessionRigVersion]
  split
  · rfl
  · split
    · rfl
    · split <;> rfl

theorem recordSessionRigVersion_other (h : other ≠ session) :
    (s.recordSessionRigVersion night rig session).recorded other = s.recorded other := by
  simp only [recordSessionRigVersion]
  split
  · rfl
  · split
    · exact if_neg h
    · split
      · exact if_neg h
      · rfl

theorem recordSessionRigVersion_keeps {version : RigVersion}
    (h : s.loadSessionRigVersion session = some version) (hrig : version.rigId = rig) :
    s.recordSessionRigVersion night rig session = s := by
  simp only [recordSessionRigVersion, h]
  exact if_pos (by simp [hrig])

theorem recordSessionRigVersion_versioned :
    (s.recordSessionRigVersion night rig session).Versioned night rig session := by
  by_cases hown : (s.loadSessionRigVersion session).any (·.rigId = rig) = true
  · obtain ⟨version, hload, hrig⟩ := (Option.any_eq_true _ _).mp hown
    rw [recordSessionRigVersion_keeps hload (of_decide_eq_true hrig)]
    constructor
    · intro other hother
      rw [hload] at hother
      cases hother
      exact of_decide_eq_true hrig
    · intro hnone
      rw [hload] at hnone
      cases hnone
  simp only [recordSessionRigVersion]
  rw [if_neg hown]
  split
  · next version hnight =>
    have hmem := RigVersion.forNight_mem hnight
    exact write_versioned (find?_of_loadRigVersions hmem) (mem_loadRigVersions.mp hmem).2
  · next hnight =>
    have hload : (if (s.loadSessionRigVersion session).isSome then
        s.deleteSessionRigVersion session else s).loadSessionRigVersion session = none := by
      split
      · simp [deleteSessionRigVersion, loadSessionRigVersion]
      · next hnone => simpa using hnone
    constructor
    · intro version hversion
      rw [hload] at hversion
      cases hversion
    · intro _
      split <;> exact hnight

theorem Held.record (h : s.Held) : (s.recordSessionRigVersion night rig session).Held := by
  simp only [recordSessionRigVersion]
  split
  · exact h
  · split
    · next version hnight => exact h.write (find?_of_loadRigVersions (RigVersion.forNight_mem hnight))
    · split
      · intro id recorded hrecorded
        simp only [deleteSessionRigVersion] at hrecorded ⊢
        split at hrecorded
        · cases hrecorded
        · exact h id recorded hrecorded
      · exact h

theorem Versioned.record (h : s.Versioned night rig other) :
    (s.recordSessionRigVersion night rig session).Versioned night rig other := by
  by_cases heq : other = session
  · subst heq
    exact recordSessionRigVersion_versioned
  · exact h.congr recordSessionRigVersion_rows (recordSessionRigVersion_other heq)

/-! ## Records of one rig -/

section

variable {sessions : List Uuid}

@[simp] theorem recordSessions_rows : (s.recordSessions night rig sessions).rows = s.rows := by
  induction sessions generalizing s with
  | nil => rfl
  | cons session sessions ih => exact ih.trans recordSessionRigVersion_rows

theorem recordSessions_other (h : other ∉ sessions) :
    (s.recordSessions night rig sessions).recorded other = s.recorded other := by
  induction sessions generalizing s with
  | nil => rfl
  | cons session sessions ih =>
    obtain ⟨hne, hrest⟩ := List.ne_and_not_mem_of_not_mem_cons h
    exact (ih hrest).trans (recordSessionRigVersion_other hne)

theorem Held.records (h : s.Held) : (s.recordSessions night rig sessions).Held := by
  induction sessions generalizing s with
  | nil => exact h
  | cons session sessions ih => exact ih h.record

theorem Versioned.records (h : s.Versioned night rig other) :
    (s.recordSessions night rig sessions).Versioned night rig other := by
  induction sessions generalizing s with
  | nil => exact h
  | cons session sessions ih => exact ih h.record

theorem recordSessions_versioned (h : other ∈ sessions) :
    (s.recordSessions night rig sessions).Versioned night rig other := by
  induction sessions generalizing s with
  | nil => cases h
  | cons session sessions ih =>
    by_cases heq : other = session
    · subst heq
      exact (recordSessionRigVersion_versioned (s := s)).records
    · exact ih ((List.mem_cons.mp h).resolve_left heq)

theorem recordSessions_keeps {version : RigVersion} (h : s.loadSessionRigVersion other = some version)
    (hrig : version.rigId = rig) :
    (s.recordSessions night rig sessions).loadSessionRigVersion other = some version := by
  induction sessions generalizing s with
  | nil => exact h
  | cons session sessions ih =>
    refine ih ?_
    by_cases heq : other = session
    · subst heq
      exact (congrArg (·.loadSessionRigVersion other) (recordSessionRigVersion_keeps h hrig)).trans h
    · exact (loadSessionRigVersion_congr recordSessionRigVersion_rows
        (recordSessionRigVersion_other heq)).trans h

end

/-! ## A new session -/

theorem sharedVersion_eq_some {shared : Option Uuid} {predecessors : List Uuid} {version : Uuid}
    (h : s.sharedVersion rig shared predecessors = some version) :
    shared.all (· = version) = true ∧ (predecessors = [] → shared = some version) ∧
      ∀ predecessor ∈ predecessors, ∃ recorded,
        s.loadSessionRigVersion predecessor = some recorded ∧ recorded.rigId = rig ∧
          recorded.id = version := by
  induction predecessors generalizing shared with
  | nil =>
    cases h
    simp
  | cons predecessor predecessors ih =>
    rw [sharedVersion] at h
    split at h
    · next recorded hload =>
      split at h
      · next hagrees =>
        obtain ⟨hid, -, hrest⟩ := ih h
        have hid : recorded.id = version := by simpa using hid
        refine ⟨hid ▸ hagrees.2, nofun, ?_⟩
        intro other hother
        rcases List.mem_cons.mp hother with rfl | hother
        · exact ⟨recorded, hload, hagrees.1, hid⟩
        · exact hrest other hother
      · cases h
    · cases h

theorem sharedVersion_of_all {shared : Option Uuid} {predecessors : List Uuid}
    {version : RigVersion} (hrig : version.rigId = rig)
    (hshared : shared.all (· = version.id) = true) (hne : predecessors ≠ [] ∨ shared.isSome)
    (hall : ∀ predecessor ∈ predecessors, s.loadSessionRigVersion predecessor = some version) :
    s.sharedVersion rig shared predecessors = some version.id := by
  induction predecessors generalizing shared with
  | nil =>
    obtain ⟨id, rfl⟩ := Option.isSome_iff_exists.mp (hne.resolve_left fun h => h rfl)
    simpa [sharedVersion] using hshared
  | cons predecessor predecessors ih =>
    rw [sharedVersion, hall predecessor List.mem_cons_self]
    simp only
    rw [if_pos ⟨hrig, hshared⟩]
    exact ih (by simp) (.inr rfl) fun other hother => hall other (List.mem_cons_of_mem _ hother)

section

variable {confirmed : Option Uuid} {frameSessions : List (Option Uuid)}

@[simp] theorem inheritSuccessor_rows :
    (s.inheritSuccessor night confirmed session frameSessions).rows = s.rows := by
  unfold inheritSuccessor
  split
  · rfl
  · split
    · rfl
    · split
      · rfl
      · exact recordSessionRigVersion_rows

theorem inheritSuccessor_other (h : other ≠ session) :
    (s.inheritSuccessor night confirmed session frameSessions).recorded other = s.recorded other := by
  unfold inheritSuccessor
  split
  · rfl
  · split
    · rfl
    · split
      · exact if_neg h
      · exact recordSessionRigVersion_other h

theorem shared_recorded {version : Uuid}
    (h : ((frameSessions.mapM id).bind fun predecessors =>
      s.sharedVersion rig none (Ordered.ascending predecessors)) = some version) :
    ∃ recorded : RigVersion, s.rows.find? recorded.id = some recorded ∧ recorded.rigId = rig ∧
      recorded.id = version := by
  obtain ⟨predecessors, hpredecessors, hshared⟩ := Option.bind_eq_some_iff.mp h
  obtain ⟨-, hempty, hall⟩ := sharedVersion_eq_some hshared
  cases hlist : Ordered.ascending predecessors with
  | nil => cases hempty hlist
  | cons predecessor rest =>
    obtain ⟨recorded, hload, hrig, hid⟩ := hall predecessor (hlist ▸ List.mem_cons_self)
    obtain ⟨id, -, hfind⟩ := Option.bind_eq_some_iff.mp hload
    obtain rfl := Table.find?_key hfind
    exact ⟨recorded, hfind, hrig, hid⟩

theorem inheritSuccessor_versioned (hframes : frameSessions.all Option.isNone = false) :
    (s.inheritSuccessor night (some rig) session frameSessions).Versioned night rig session := by
  unfold inheritSuccessor
  simp only [hframes, Bool.false_eq_true, if_false]
  split
  · next version hshared =>
    obtain ⟨recorded, hfind, hrig, rfl⟩ := shared_recorded hshared
    exact write_versioned hfind hrig
  · exact recordSessionRigVersion_versioned

theorem Held.inherit (h : s.Held) :
    (s.inheritSuccessor night confirmed session frameSessions).Held := by
  unfold inheritSuccessor
  split
  · exact h
  · split
    · exact h
    · split
      · next version hshared =>
        obtain ⟨recorded, hfind, -, rfl⟩ := shared_recorded hshared
        exact h.write hfind
      · exact h.record

theorem inheritSuccessor_shared {version : RigVersion} (hrig : version.rigId = rig)
    (hne : frameSessions ≠ []) (hall : ∀ frame ∈ frameSessions, ∃ old, frame = some old ∧
      s.loadSessionRigVersion old = some version) :
    (s.inheritSuccessor night (some rig) session frameSessions).loadSessionRigVersion session =
      some version := by
  obtain ⟨predecessors, rfl⟩ : ∃ predecessors : List Uuid, frameSessions = predecessors.map some := by
    refine ⟨frameSessions.filterMap id, ?_⟩
    clear hne
    induction frameSessions with
    | nil => rfl
    | cons frame frames ih =>
      obtain ⟨old, rfl, -⟩ := hall frame List.mem_cons_self
      have hrest := ih fun frame hframe => hall frame (List.mem_cons_of_mem _ hframe)
      exact congrArg (some old :: ·) hrest
  have hloads : ∀ predecessor ∈ predecessors, s.loadSessionRigVersion predecessor = some version := by
    intro predecessor hpredecessor
    obtain ⟨old, hold, hload⟩ := hall (some predecessor) (List.mem_map_of_mem hpredecessor)
    cases hold
    exact hload
  have hpredecessors : predecessors ≠ [] := by simpa using hne
  obtain ⟨first, hfirst⟩ := List.exists_mem_of_ne_nil _ hpredecessors
  have hshared : s.sharedVersion rig none (Ordered.ascending predecessors) = some version.id :=
    sharedVersion_of_all hrig rfl (.inl (by simpa using hpredecessors)) fun predecessor hmem =>
      hloads predecessor (Ordered.mem_ascending.mp hmem)
  have hfind : s.rows.find? version.id = some version := by
    obtain ⟨id, -, hfind⟩ := Option.bind_eq_some_iff.mp (hloads first hfirst)
    rwa [Table.find?_key hfind]
  have hsome : (predecessors.map some).all Option.isNone = false := by
    refine Bool.eq_false_iff.mpr fun htrue => ?_
    simpa using List.all_eq_true.mp htrue (some first) (List.mem_map_of_mem hfirst)
  unfold inheritSuccessor
  simp only [hsome, Bool.false_eq_true, if_false, mapM_id_eq_some.mpr rfl, Option.bind_some, hshared]
  simp [writeSessionRigVersion, loadSessionRigVersion, hfind]

end

end Versions

end PlateVault.Rigs
