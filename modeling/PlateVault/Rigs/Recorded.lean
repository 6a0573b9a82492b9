import PlateVault.Rigs.Confirmed
import PlateVault.Rigs.Laws

/-!
# Recorded versions over runs

A current session whose rig is confirmed has recorded a version of that rig, or the rig has none for
its night; and what a session recorded stays until it is confirmed to another rig.
-/

namespace PlateVault.Rigs

open Library

variable {P : Platform} {R : Reader}

/-! ## Sessions as the records read them -/

theorem nightIn_eq (dates : Dates) (s : Sessions P) (id : Uuid) :
    nightIn dates s id = ((s.identity id).map Prod.fst).bind (sessionNight dates) := by
  unfold nightIn Sessions.identity
  cases s.rows.find? id <;> rfl

theorem nightIn_changes {dates : Dates} {s s' : Sessions P} (h : Sessions.Changes s s') {id : Uuid}
    (hid : s.identity id ≠ none) : nightIn dates s' id = nightIn dates s id := by
  rw [nightIn_eq, nightIn_eq, h.key hid]

theorem confirmedEquipment_eq {s : Sessions P} {id rig : Uuid}
    (hkind : ∀ id kind, ∀ association ∈ s.associations id kind, association.kind = kind)
    (h : ConfirmedOn (some rig) (s.associations id .equipment)) :
    confirmedEquipment s id = some rig := by
  obtain ⟨association, hassociation, hstate, hsubject⟩ := h
  have hequipment := hkind id .equipment association hassociation
  rw [Option.mem_def] at hassociation
  simp [confirmedEquipment, Sessions.loadAssociations, hassociation, hequipment, hstate, hsubject]

theorem mem_membersOf {s : Sessions P} {id asset : Uuid} :
    asset ∈ s.membersOf id ↔ (id, asset) ∈ s.members := by
  simp only [Sessions.membersOf, List.mem_map, List.mem_filter, decide_eq_true_eq]
  constructor
  · rintro ⟨⟨_, _⟩, ⟨hmem, rfl⟩, rfl⟩
    exact hmem
  · exact fun hmem => ⟨(id, asset), ⟨hmem, rfl⟩, rfl⟩

theorem identity_eq_none {s : Sessions P} {id : Uuid} :
    s.identity id = none ↔ s.rows.find? id = none := by
  simp [Sessions.identity]

namespace Versions

/-! ## The sessions a call created -/

section

variable {v : Versions} {dates : Dates} {s s' : Sessions P} {id : Uuid}

/-- `inherit_successor` of some of the sessions created. -/
def inheritAll (v : Versions) (dates : Dates) (s' : Sessions P)
    (created : List (Uuid × List (Option Uuid))) : Versions :=
  created.foldl (fun v created =>
    v.inheritSuccessor (nightIn dates s') (confirmedEquipment s' created.1) created.1 created.2) v

variable {created : List (Uuid × List (Option Uuid))}

theorem inheritAll_rows : (v.inheritAll dates s' created).rows = v.rows := by
  induction created generalizing v with
  | nil => rfl
  | cons one created ih => exact ih.trans inheritSuccessor_rows

theorem inheritAll_other (h : id ∉ created.map Prod.fst) :
    (v.inheritAll dates s' created).recorded id = v.recorded id := by
  induction created generalizing v with
  | nil => rfl
  | cons one created ih =>
    obtain ⟨hne, hrest⟩ := List.ne_and_not_mem_of_not_mem_cons h
    exact (ih hrest).trans (inheritSuccessor_other hne)

theorem Held.inheritAll (h : v.Held) : (v.inheritAll dates s' created).Held := by
  induction created generalizing v with
  | nil => exact h
  | cons one created ih => exact ih h.inherit

@[simp] theorem inheritSuccessors_rows : (v.inheritSuccessors dates s s').rows = v.rows :=
  inheritAll_rows

theorem mem_created : id ∈ (createdSessions s s').map Prod.fst ↔
    s.identity id = none ∧ s'.identity id ≠ none := by
  simp only [createdSessions, List.map_map, List.mem_map, List.mem_filter, Function.comp_apply,
    Option.isNone_iff_eq_none, identity_eq_none, ne_eq]
  constructor
  · rintro ⟨row, ⟨hrow, hnone⟩, rfl⟩
    exact ⟨hnone, by rw [Table.find?_of_mem hrow]; simp⟩
  · rintro ⟨hnone, hsome⟩
    obtain ⟨row, hrow⟩ := Option.ne_none_iff_exists'.mp hsome
    obtain ⟨hmem, rfl⟩ := Table.find?_eq_some.mp hrow
    exact ⟨row, ⟨hmem, hnone⟩, rfl⟩

theorem created_nodup : ((createdSessions s s').map Prod.fst).Nodup := by
  rw [createdSessions, List.map_map]
  exact s'.rows.nodup.sublist (List.filter_sublist.map _)

theorem inheritSuccessors_other (h : s.identity id ≠ none) :
    (v.inheritSuccessors dates s s').recorded id = v.recorded id :=
  inheritAll_other fun hmem => h (mem_created.mp hmem).1

theorem inheritSuccessors_created (hfresh : s.identity id = none) (hknown : s'.identity id ≠ none) :
    ∃ v₁ : Versions, v₁.rows = v.rows ∧
      (∀ old, s.identity old ≠ none → v₁.recorded old = v.recorded old) ∧
      (v.inheritSuccessors dates s s').recorded id =
        (v₁.inheritSuccessor (nightIn dates s') (confirmedEquipment s' id) id
          ((s'.membersOf id).map s.sessionOf)).recorded id := by
  have hmem : (id, (s'.membersOf id).map s.sessionOf) ∈ createdSessions s s' := by
    obtain ⟨⟨_, frames⟩, hmem, rfl⟩ := List.mem_map.mp (mem_created.mpr ⟨hfresh, hknown⟩)
    obtain ⟨row, -, heq⟩ := List.mem_map.mp hmem
    cases heq
    exact hmem
  obtain ⟨front, back, hsplit⟩ := List.append_of_mem hmem
  have hnodup : ((createdSessions s s').map Prod.fst).Nodup := created_nodup
  rw [hsplit, List.map_append, List.map_cons, List.nodup_append, List.nodup_cons] at hnodup
  obtain ⟨-, ⟨hback, -⟩, -⟩ := hnodup
  have hfront : ∀ old, s.identity old ≠ none → old ∉ front.map Prod.fst := by
    intro old hold hmem
    have hcreated : old ∈ (createdSessions s s').map Prod.fst := by
      rw [hsplit, List.map_append]
      exact List.mem_append_left _ hmem
    exact hold (mem_created.mp hcreated).1
  refine ⟨v.inheritAll dates s' front, inheritAll_rows, fun old hold =>
    inheritAll_other (hfront old hold), ?_⟩
  unfold inheritSuccessors
  rw [hsplit, List.foldl_append, List.foldl_cons]
  exact inheritAll_other hback

end

end Versions

/-! ## The invariant -/

namespace RigVault

structure Sound (dates : Dates) (l : RigVault P R) : Prop where
  vault : l.watched.vault.Sound fun _ => False
  keyed : l.watched.Keyed fun _ => False
  known : ∀ id, l.versions.recorded id ≠ none → l.watched.vault.sessions.identity id ≠ none
  held : l.versions.Held
  versioned : ∀ id rig, l.watched.vault.sessions.IsCurrent id →
    ConfirmedOn (some rig) (l.watched.vault.sessions.associations id .equipment) →
    l.versions.Versioned (nightIn dates l.watched.vault.sessions) rig id

variable {dates : Dates} {l l' : RigVault P R}

theorem Sound.loaded (h : l.Sound dates) {id version : Uuid}
    (hrecorded : l.versions.recorded id = some version) :
    ∃ found, l.versions.loadSessionRigVersion id = some found := by
  obtain ⟨found, hfound⟩ := Option.ne_none_iff_exists'.mp (h.held id version hrecorded)
  exact ⟨found, by simp [Versions.loadSessionRigVersion, hrecorded, hfound]⟩

theorem Sound.created {w : Watched P R} {call : Call R} {correctionId : Uuid}
    {given : Regrouping P R} (h : l.Sound dates)
    (hstep : l.watched.Step (.catalog call correctionId given) w) {id rig : Uuid}
    (hfresh : l.watched.vault.sessions.identity id = none) (hcurrent : w.vault.sessions.IsCurrent id)
    (hconfirmed : ConfirmedOn (some rig) (w.vault.sessions.associations id .equipment)) :
    ∃ (v : Versions) (frames : List (Option Uuid)), v.rows = l.versions.rows ∧
      (∀ old, l.watched.vault.sessions.identity old ≠ none →
        v.recorded old = l.versions.recorded old) ∧
      (∀ frame ∈ frames, ∃ asset, w.vault.sessions.sessionOf asset = some id ∧
        frame = l.watched.vault.sessions.sessionOf asset) ∧
      frames ≠ [] ∧ frames.all Option.isNone = false ∧
      (l.versions.inheritSuccessors dates l.watched.vault.sessions w.vault.sessions).recorded id =
        (v.inheritSuccessor (nightIn dates w.vault.sessions) (some rig) id frames).recorded id := by
  have hkeeps := hstep.keeps h.vault h.keyed
  obtain ⟨members, hmembers, hinherits⟩ := hkeeps.changes.inherits id hfresh hcurrent .equipment
  obtain ⟨hne, hall⟩ := (hinherits.confirmed (some rig)).mp hconfirmed
  obtain ⟨asset, hasset⟩ := List.exists_mem_of_ne_nil _ hne
  have hheld : ∀ asset, asset ∈ w.vault.sessions.membersOf id ↔
      w.vault.sessions.sessionOf asset = some id := fun asset =>
    mem_membersOf.trans (hkeeps.sound.member id hcurrent asset)
  obtain ⟨key, hkey⟩ := hcurrent
  have hknown : w.vault.sessions.identity id ≠ none := by simp [hkey]
  obtain ⟨v, hrows, hothers, hrecorded⟩ : ∃ v : Versions, v.rows = l.versions.rows ∧ _ ∧
      (l.versions.inheritSuccessors dates l.watched.vault.sessions w.vault.sessions).recorded id =
        _ := Versions.inheritSuccessors_created hfresh hknown
  rw [confirmedEquipment_eq hkeeps.sound.kind hconfirmed] at hrecorded
  have hmem : asset ∈ w.vault.sessions.membersOf id := (hheld asset).mpr ((hmembers asset).mp hasset)
  refine ⟨v, _, hrows, hothers, fun frame hframe => ?_, ?_, ?_, hrecorded⟩
  · obtain ⟨asset, hasset, rfl⟩ := List.mem_map.mp hframe
    exact ⟨asset, (hheld asset).mp hasset, rfl⟩
  · simpa using List.ne_nil_of_mem hmem
  · refine Bool.eq_false_iff.mpr fun hnone => ?_
    have hold := List.all_eq_true.mp hnone _ (List.mem_map_of_mem hmem)
    obtain ⟨_, hprior, -⟩ := hall asset hasset
    rw [Option.isNone_iff_eq_none.mp hold] at hprior
    cases hprior

/-! ## One call -/

theorem Sound.catalog {w : Watched P R} {call : Call R} {correctionId : Uuid}
    {given : Regrouping P R} (h : l.Sound dates)
    (hstep : l.watched.Step (.catalog call correctionId given) w) :
    RigVault.Sound dates ⟨w, l.versions.inheritSuccessors dates l.watched.vault.sessions
      w.vault.sessions⟩ := by
  have hkeeps := hstep.keeps h.vault h.keyed
  refine ⟨hkeeps.sound, hkeeps.keyed, fun id hid => ?_, h.held.inheritAll,
    fun id rig hcurrent hconfirmed => ?_⟩
  · by_cases hknown : l.watched.vault.sessions.identity id = none
    · intro hnone
      have hother : id ∉ (createdSessions l.watched.vault.sessions w.vault.sessions).map Prod.fst :=
        fun hmem => (Versions.mem_created.mp hmem).2 hnone
      exact h.known id ((Versions.inheritAll_other hother) ▸ hid) hknown
    · exact hkeeps.changes.known hknown
  · by_cases hfresh : l.watched.vault.sessions.identity id = none
    · obtain ⟨v, frames, hrows, -, -, -, hframes, hrecorded⟩ :=
        h.created hstep hfresh hcurrent hconfirmed
      refine Versions.Versioned.congr (Versions.inheritSuccessor_versioned (s := v) hframes) ?_
        hrecorded
      rw [Versions.inheritSuccessors_rows, Versions.inheritSuccessor_rows, hrows]
    · have hbefore := hstep.confirms h.vault (fun hcall => hcall) id hfresh .equipment
        (some rig) hconfirmed
      have hold := h.versioned id rig (hkeeps.changes.current_before hfresh hcurrent) hbefore
      have hsame : (l.versions.inheritSuccessors dates l.watched.vault.sessions
          w.vault.sessions).Versioned (nightIn dates l.watched.vault.sessions) rig id :=
        hold.congr Versions.inheritSuccessors_rows (Versions.inheritSuccessors_other hfresh)
      refine ⟨hsame.own, fun hnone => ?_⟩
      rw [nightIn_changes hkeeps.changes hfresh]
      exact hsame.waits hnone

theorem Sound.settles {w : Watched P R} {call : VaultCall P R} {versions : Versions}
    (h : l.Sound dates) (hstep : l.watched.Step call w) (hheld : versions.Held)
    (hknown : ∀ id, versions.recorded id ≠ none → l.watched.vault.sessions.identity id ≠ none)
    (hcreated : ∀ id, w.vault.sessions.IsCurrent id → l.watched.vault.sessions.identity id ≠ none)
    (hversioned : ∀ id rig, l.watched.vault.sessions.IsCurrent id →
      ConfirmedOn (some rig) (w.vault.sessions.associations id .equipment) →
      versions.Versioned (nightIn dates l.watched.vault.sessions) rig id) :
    Sound dates ⟨w, versions⟩ := by
  have hkeeps := hstep.keeps h.vault h.keyed
  refine ⟨hkeeps.sound, hkeeps.keyed, fun id hid => hkeeps.changes.known (hknown id hid), hheld,
    fun id rig hcurrent hconfirmed => ?_⟩
  have hfresh := hcreated id hcurrent
  have hold := hversioned id rig (hkeeps.changes.current_before hfresh hcurrent) hconfirmed
  refine ⟨hold.own, fun hnone => ?_⟩
  rw [nightIn_changes hkeeps.changes hfresh]
  exact hold.waits hnone

theorem known_of_reassociates {s s' : Sessions P} (h : Sessions.Reassociates s s') {id : Uuid}
    (hcurrent : s'.IsCurrent id) : s.identity id ≠ none := by
  obtain ⟨key, hkey⟩ := hcurrent
  rw [h.identity] at hkey
  simp [hkey]

theorem Sound.confirm {w : Watched P R} {expected : List ExpectedSession} {kind : AssociationKind}
    {subject : Uuid} {found : Result Unit} {recorded : Uuid → Result Unit} (h : l.Sound dates)
    (hstep : l.watched.Step (.confirm expected kind subject found recorded) w) :
    Sound dates ⟨w, l.versions.recordCall dates l.watched.vault.sessions w.vault.sessions
      (.confirm expected kind subject found recorded : VaultCall P R)⟩ := by
  obtain ⟨-, hre⟩ := Vault.confirmAssociation_still hstep.1
  obtain ⟨hnamed, hconfirms⟩ := Vault.confirmAssociation_confirms hstep.1
  cases kind with
  | target =>
    refine h.settles hstep h.held h.known (fun id => known_of_reassociates hre)
      fun id rig hcurrent hconfirmed => ?_
    rcases hconfirms id .equipment _ hconfirmed with ⟨hkind, -⟩ | ⟨-, hbefore⟩
    · cases hkind
    · exact h.versioned id rig hcurrent hbefore
  | equipment =>
    refine h.settles hstep h.held.records (fun id hid => ?_) (fun id => known_of_reassociates hre)
      fun id rig hcurrent hconfirmed => ?_
    · by_cases hmem : id ∈ expected.map ExpectedSession.sessionId
      · obtain ⟨item, hitem, rfl⟩ := List.mem_map.mp hmem
        exact hnamed item hitem
      · exact h.known id (Versions.recordSessions_other hmem ▸ hid)
    · rcases hconfirms id .equipment _ hconfirmed with ⟨-, hmem, hsubject⟩ | ⟨hnot, hbefore⟩
      · cases hsubject
        exact Versions.recordSessions_versioned hmem
      · exact (h.versioned id rig hcurrent hbefore).congr Versions.recordSessions_rows
          (Versions.recordSessions_other fun hmem => hnot ⟨rfl, hmem⟩)

theorem addRigVersion_eq_ok {v v' : Versions} {s : Sessions P} {night : Uuid → Option Int}
    {around : Versions.Surroundings} {version added : RigVersion}
    (h : v.addRigVersion s dates night around version = .ok (v', added)) :
    v' = v ∨ ∃ rows, v.rows.insert? version = some rows ∧
      v' = ({ v with rows } : Versions).recordSessions night version.rigId
        (({ v with rows } : Versions).unversionedSessions s version.rigId) := by
  simp only [Versions.addRigVersion, Result.bind_eq_ok] at h
  obtain ⟨-, -, name, -, -, -, h⟩ := h
  split at h
  · split at h
    · cases h
      exact .inl rfl
    · cases h
  · simp only [Result.bind_eq_ok, Result.orElse_eq_ok, Result.pure_eq_ok, Prod.mk.injEq] at h
    obtain ⟨-, -, rows, hrows, -, -, rfl, -⟩ := h
    exact .inr ⟨rows, hrows, rfl⟩

theorem mem_unversionedSessions {v : Versions} {s : Sessions P} {rig id : Uuid} :
    id ∈ v.unversionedSessions s rig ↔ s.IsCurrent id ∧ v.recorded id = none ∧
      ConfirmedOn (some rig) (s.associations id .equipment) := by
  simp only [Versions.unversionedSessions, Ordered.mem_ascending, List.mem_map, List.mem_filter,
    Bool.and_eq_true, Option.isNone_iff_eq_none, Option.any_eq_true, decide_eq_true_eq]
  constructor
  · rintro ⟨row, ⟨hrow, ⟨hcurrent, hnone⟩, association, hassociation, hstate, hsubject⟩, rfl⟩
    refine ⟨⟨row.key, ?_⟩, hnone, association, hassociation, hstate, hsubject⟩
    rw [Sessions.identity, Table.find?_of_mem hrow, Option.map_some, hcurrent]
  · rintro ⟨⟨key, hkey⟩, hnone, association, hassociation, hstate, hsubject⟩
    obtain ⟨row, hrow, heq⟩ := Option.map_eq_some_iff.mp hkey
    obtain ⟨hmem, rfl⟩ := Table.find?_eq_some.mp hrow
    exact ⟨row, ⟨hmem, ⟨(Prod.mk.inj heq).2, hnone⟩, association, hassociation, hstate, hsubject⟩, rfl⟩

section

variable {rows : Table Uuid RigVersion RigVersion.id} {version : RigVersion} {v : Versions}

theorem find?_of_added (hrows : v.rows.insert? version = some rows) {id : Uuid} {found : RigVersion}
    (h : v.rows.find? id = some found) : rows.find? id = some found := by
  rw [Table.find?_insert? hrows]
  split
  · next heq =>
    rw [heq, (Table.insert?_eq_some hrows).1] at h
    cases h
  · exact h

theorem loadSessionRigVersion_of_added (hrows : v.rows.insert? version = some rows) {id : Uuid}
    {found : RigVersion} (h : v.loadSessionRigVersion id = some found) :
    ({ v with rows } : Versions).loadSessionRigVersion id = some found := by
  obtain ⟨recorded, hrecorded, hfind⟩ := Option.bind_eq_some_iff.mp h
  simp only [Versions.loadSessionRigVersion, hrecorded, Option.bind_some]
  exact find?_of_added hrows hfind

theorem recorded_of_added {night : Uuid → Option Int} {rig id : Uuid} {sessions : List Uuid}
    (h : id ∉ sessions) :
    (({ v with rows } : Versions).recordSessions night rig sessions).recorded id = v.recorded id :=
  Versions.recordSessions_other h

theorem loadRigVersions_of_added (hrows : v.rows.insert? version = some rows) {rig : Uuid}
    (hrig : version.rigId ≠ rig) :
    ({ v with rows } : Versions).loadRigVersions rig = v.loadRigVersions rig := by
  simp [Versions.loadRigVersions, (Table.insert?_eq_some hrows).2, List.filter_append, hrig]

end

theorem Sound.added {rows : Table Uuid RigVersion RigVersion.id} {version : RigVersion}
    (h : l.Sound dates) (hrows : l.versions.rows.insert? version = some rows) :
    Sound dates { l with
      versions := ({ l.versions with rows } : Versions).recordSessions
        (nightIn dates l.watched.vault.sessions) version.rigId
        (({ l.versions with rows } : Versions).unversionedSessions l.watched.vault.sessions
          version.rigId) } := by
  have hheld : ({ l.versions with rows } : Versions).Held := by
    intro id recorded hrecorded
    obtain ⟨found, hfound⟩ := Option.ne_none_iff_exists'.mp (h.held id recorded hrecorded)
    simp [find?_of_added hrows hfound]
  refine ⟨h.vault, h.keyed, fun id hid => ?_, hheld.records, fun id rig hcurrent hconfirmed => ?_⟩
  · by_cases hmem : id ∈ ({ l.versions with rows } : Versions).unversionedSessions
        l.watched.vault.sessions version.rigId
    · obtain ⟨⟨key, hkey⟩, -⟩ := mem_unversionedSessions.mp hmem
      simp [hkey]
    · exact h.known id fun hnone => hid ((recorded_of_added hmem).trans hnone)
  · have hbefore := h.versioned id rig hcurrent hconfirmed
    by_cases hmem : id ∈ ({ l.versions with rows } : Versions).unversionedSessions
        l.watched.vault.sessions version.rigId
    · obtain ⟨-, -, hrig⟩ := mem_unversionedSessions.mp hmem
      obtain rfl : rig = version.rigId := Option.some.inj (hconfirmed.subject_eq hrig)
      exact Versions.recordSessions_versioned hmem
    · refine Versions.Versioned.congr (s := { l.versions with rows }) ?_ Versions.recordSessions_rows
        (recorded_of_added hmem)
      cases hload : l.versions.loadSessionRigVersion id with
      | some found =>
        have hstays := loadSessionRigVersion_of_added hrows hload
        refine ⟨fun other hother => ?_, fun hnone => ?_⟩
        · rw [hstays] at hother
          cases hother
          exact hbefore.own found hload
        · rw [hstays] at hnone
          cases hnone
      | none =>
        have hnone : l.versions.recorded id = none := by
          refine Option.eq_none_iff_forall_not_mem.mpr fun recorded hrecorded => ?_
          obtain ⟨found, hfound⟩ := h.loaded hrecorded
          rw [hload] at hfound
          cases hfound
        have hother : version.rigId ≠ rig := by
          rintro rfl
          exact hmem (mem_unversionedSessions.mpr ⟨hcurrent, hnone, hconfirmed⟩)
        refine ⟨fun found hfound => ?_, fun _ => ?_⟩
        · simp only [Versions.loadSessionRigVersion, hnone, Option.bind_none] at hfound
          cases hfound
        · rw [loadRigVersions_of_added hrows hother]
          exact hbefore.waits hload

theorem Sound.step {call : RigCall P R} (h : l.Sound dates) (hstep : Step dates l call l') :
    l'.Sound dates := by
  cases hstep with
  | @vault call w hstep =>
    cases call with
    | catalog call correctionId given => exact h.catalog hstep
    | confirm expected kind subject found recorded => exact h.confirm hstep
    | suggest suggestions found =>
      obtain ⟨-, hre, -⟩ := Vault.recordSuggestions_still hstep.1
      exact h.settles hstep h.held h.known (fun id => known_of_reassociates hre)
        fun id rig hcurrent hconfirmed => h.versioned id rig hcurrent
          (hstep.confirms h.vault (fun hcall => hcall) id
            (by obtain ⟨key, hkey⟩ := hcurrent; simp [hkey]) .equipment _ hconfirmed)
    | markConflict session =>
      obtain ⟨-, hre, -⟩ := Vault.markAssessmentConflict_still hstep.1
      exact h.settles hstep h.held h.known (fun id => known_of_reassociates hre)
        fun id rig hcurrent hconfirmed => h.versioned id rig hcurrent
          (hstep.confirms h.vault (fun hcall => hcall) id
            (by obtain ⟨key, hkey⟩ := hcurrent; simp [hkey]) .equipment _ hconfirmed)
  | addRigVersion hadd =>
    rcases addRigVersion_eq_ok hadd with rfl | ⟨rows, hrows, rfl⟩
    · exact h
    · exact h.added hrows

theorem Reachable.sound (h : l.Reachable dates) : l.Sound dates := by
  obtain ⟨calls, hrun⟩ := h
  refine hrun.invariant (fun _ _ _ h hstep => h.step hstep) ?_
  exact {
    vault := Watched.empty_sound
    keyed := Watched.empty_keyed
    known := fun id hid => absurd rfl hid
    held := fun id version hrecorded => by cases hrecorded
    versioned := fun id rig hcurrent => by
      obtain ⟨key, hkey⟩ := hcurrent
      cases hkey }

/-! ## What a call does to the records -/

/-- A call confirms this session to another rig than the version's. -/
def ConfirmsOther (call : RigCall P R) (session rig : Uuid) : Prop :=
  ∃ expected subject found recorded,
    call = .vault (.confirm expected .equipment subject found recorded) ∧
      session ∈ expected.map ExpectedSession.sessionId ∧ subject ≠ rig

theorem Sound.keeps {call : RigCall P R} (h : l.Sound dates) (hstep : Step dates l call l')
    {session : Uuid} {version : RigVersion}
    (hload : l.versions.loadSessionRigVersion session = some version) :
    l'.versions.loadSessionRigVersion session = some version ∨
      ConfirmsOther call session version.rigId := by
  have hrecorded : l.versions.recorded session ≠ none := by
    obtain ⟨recorded, hrecorded, -⟩ := Option.bind_eq_some_iff.mp hload
    simp [hrecorded]
  cases hstep with
  | @vault call w hstep =>
    cases call with
    | catalog call correctionId given =>
      exact .inl ((Versions.loadSessionRigVersion_congr Versions.inheritSuccessors_rows
        (Versions.inheritSuccessors_other (h.known session hrecorded))).trans hload)
    | confirm expected kind subject found recorded =>
      cases kind with
      | target => exact .inl hload
      | equipment =>
        by_cases hmem : session ∈ expected.map ExpectedSession.sessionId
        · by_cases hrig : version.rigId = subject
          · exact .inl (Versions.recordSessions_keeps hload hrig)
          · exact .inr ⟨expected, subject, found, recorded, rfl, hmem, Ne.symm hrig⟩
        · exact .inl ((Versions.loadSessionRigVersion_congr Versions.recordSessions_rows
            (Versions.recordSessions_other hmem)).trans hload)
    | suggest suggestions found => exact .inl hload
    | markConflict session => exact .inl hload
  | addRigVersion hadd =>
    rcases addRigVersion_eq_ok hadd with rfl | ⟨rows, hrows, rfl⟩
    · exact .inl hload
    · refine .inl ((Versions.loadSessionRigVersion_congr Versions.recordSessions_rows
        (Versions.recordSessions_other fun hmem => ?_)).trans
          (loadSessionRigVersion_of_added hrows hload))
      exact hrecorded (mem_unversionedSessions.mp hmem).2.1

theorem Sound.shares {call : RigCall P R} (h : l.Sound dates) (hstep : Step dates l call l')
    {id rig : Uuid} {version : RigVersion}
    (hfresh : l.watched.vault.sessions.identity id = none)
    (hcurrent : l'.watched.vault.sessions.IsCurrent id)
    (hconfirmed : ConfirmedOn (some rig) (l'.watched.vault.sessions.associations id .equipment))
    (hrig : version.rigId = rig)
    (hall : ∀ asset, l'.watched.vault.sessions.sessionOf asset = some id →
      ∃ old, l.watched.vault.sessions.sessionOf asset = some old ∧
        l.versions.loadSessionRigVersion old = some version) :
    l'.versions.loadSessionRigVersion id = some version := by
  have hcreates : ∀ {s' : Sessions P}, Sessions.Reassociates l.watched.vault.sessions s' →
      s'.IsCurrent id → False := fun hre hid => known_of_reassociates hre hid hfresh
  cases hstep with
  | @vault call w hstep =>
    cases call with
    | catalog call correctionId given =>
      obtain ⟨v, frames, hrows, hothers, hframes, hne, -, hrecorded⟩ :=
        h.created hstep hfresh hcurrent hconfirmed
      have hshared : (v.inheritSuccessor (nightIn dates w.vault.sessions) (some rig) id
          frames).loadSessionRigVersion id = some version :=
        Versions.inheritSuccessor_shared hrig hne fun frame hframe => by
          obtain ⟨asset, hasset, rfl⟩ := hframes frame hframe
          obtain ⟨old, hold, hload⟩ := hall asset hasset
          refine ⟨old, hold, ?_⟩
          obtain ⟨key, hkey⟩ := h.vault.current asset old hold
          rw [Versions.loadSessionRigVersion_congr hrows (hothers old (by simp [hkey]))]
          exact hload
      refine (Versions.loadSessionRigVersion_congr ?_ hrecorded).trans hshared
      rw [Versions.inheritSuccessors_rows, Versions.inheritSuccessor_rows, hrows]
    | confirm expected kind subject found recorded =>
      exact (hcreates (Vault.confirmAssociation_still hstep.1).2 hcurrent).elim
    | suggest suggestions found =>
      exact (hcreates (Vault.recordSuggestions_still hstep.1).2.1 hcurrent).elim
    | markConflict session =>
      exact (hcreates (Vault.markAssessmentConflict_still hstep.1).2.1 hcurrent).elim
  | addRigVersion hadd => exact (hcreates (.refl _) hcurrent).elim

/-- Recorded rig versions over any run of calls. A current session whose rig is confirmed has no
recorded version of another rig, and none at all only where the rig's versions have none for its
night. A session's recorded version stays until the session is confirmed to another rig, and a
session a regroup makes, its rig confirmed, records the version of that rig its frames' sessions all
recorded. -/
theorem recorded_versions (dates : Dates) (l : RigVault P R) (h : l.Reachable dates) :
    (∀ id rig, l.watched.vault.sessions.IsCurrent id →
      ConfirmedOn (some rig) (l.watched.vault.sessions.associations id .equipment) →
      (∀ version, l.versions.loadSessionRigVersion id = some version → version.rigId = rig) ∧
      (l.versions.loadSessionRigVersion id = none →
        RigVersion.forNight (l.versions.loadRigVersions rig)
          (nightIn dates l.watched.vault.sessions id) = none)) ∧
    ∀ call l', Step dates l call l' →
      (∀ session version, l.versions.loadSessionRigVersion session = some version →
        l'.versions.loadSessionRigVersion session = some version ∨
          ConfirmsOther call session version.rigId) ∧
      ∀ id rig version, l.watched.vault.sessions.identity id = none →
        l'.watched.vault.sessions.IsCurrent id →
        ConfirmedOn (some rig) (l'.watched.vault.sessions.associations id .equipment) →
        version.rigId = rig →
        (∀ asset, l'.watched.vault.sessions.sessionOf asset = some id →
          ∃ old, l.watched.vault.sessions.sessionOf asset = some old ∧
            l.versions.loadSessionRigVersion old = some version) →
        l'.versions.loadSessionRigVersion id = some version := by
  have hsound := h.sound
  refine ⟨fun id rig hcurrent hconfirmed => ?_, fun call l' hstep => ⟨fun _ _ => hsound.keeps hstep,
    fun _ _ _ => hsound.shares hstep⟩⟩
  have hversioned := hsound.versioned id rig hcurrent hconfirmed
  exact ⟨hversioned.own, hversioned.waits⟩

/-! ## A version recorded when it is added -/

theorem run_of_watched {w : Watched P R} {calls : List (VaultCall P R)}
    (hrun : Run Watched.Step l.watched calls w) :
    ∃ made l', Run (Step dates) l made l' ∧ l'.watched = w ∧
      l'.versions.rows = l.versions.rows := by
  generalize hw : l.watched = w₀ at hrun
  induction hrun generalizing l with
  | nil => exact ⟨[], l, .nil l, hw, rfl⟩
  | @cons w₀ call w₁ calls w hstep _ ih =>
    subst hw
    obtain ⟨made, l', hrest, hlast, hrows⟩ := ih (l := ⟨w₁, l.versions.recordCall dates
      l.watched.vault.sessions w₁.vault.sessions call⟩) rfl
    refine ⟨.vault call :: made, l', .cons (.vault hstep) hrest, hlast, hrows.trans ?_⟩
    cases call with
    | catalog => exact Versions.inheritSuccessors_rows
    | confirm _ kind =>
      cases kind with
      | target => rfl
      | equipment => exact Versions.recordSessions_rows
    | _ => rfl

def firstVersion : RigVersion := ⟨40, 7, 0, ⟨none, none, none⟩, .unknown⟩

def noDates : Dates := ⟨fun _ => none, fun _ => ""⟩

/-- The scan of two frames, with the session of one of them confirmed to a rig. -/
def confirmedScan : List (Vault wholePlatform textReader → VaultCall wholePlatform textReader) :=
  scanTwo ++ [fun _ => .confirm [⟨10, 1, 0⟩] .equipment 7 (.ok ()) fun _ => .ok ()]

theorem recorded_versions_first : ∃ l : RigVault wholePlatform textReader,
    l.Reachable noDates ∧ l.watched.vault.sessions.IsCurrent 10 ∧
      ConfirmedOn (some 7) (l.watched.vault.sessions.associations 10 .equipment) ∧
      l.versions.loadSessionRigVersion 10 = some firstVersion := by
  have hfollow : ((Vault.empty.follow confirmedScan).any fun v =>
      v.sessions.identity 10 = some ("Ha".toList, none) &&
        (v.sessions.associations 10 .equipment).any fun association =>
          association.state = .confirmed && association.subjectId = some 7) = true := by decide
  obtain ⟨v, hv, hcheck⟩ := (Option.any_eq_true _ _).mp hfollow
  obtain ⟨made, w, hrun, rfl⟩ := Watched.run_of_follow (w := Watched.empty) hv
  simp only [Bool.and_eq_true, Option.any_eq_true, decide_eq_true_eq] at hcheck
  obtain ⟨hcurrent, association, hassociation, hstate, hsubject⟩ := hcheck
  obtain ⟨calls, l, hlifted, rfl, hrows⟩ : ∃ calls l, Run (Step noDates) empty calls l ∧
      l.watched = w ∧ l.versions.rows = .empty := run_of_watched hrun
  have hadd : ∃ versions, l.versions.addRigVersion l.watched.vault.sessions noDates
      (nightIn noDates l.watched.vault.sessions)
      ⟨fun _ => true, fun _ => .ok "rig", fun _ => .ok (), fun _ => .ok ()⟩ firstVersion =
        .ok (versions, firstVersion) ∧ versions.rows.rows = [firstVersion] := by
    refine ⟨({ l.versions with rows := ⟨[firstVersion], by simp⟩ } : Versions).recordSessions
      (nightIn noDates l.watched.vault.sessions) 7
      (({ l.versions with rows := ⟨[firstVersion], by simp⟩ } : Versions).unversionedSessions
        l.watched.vault.sessions 7), ?_, by simp⟩
    have hall : ∀ sessions : List Uuid, sessions.forM (fun _ => (.ok () : Result Unit)) = .ok () := by
      intro sessions
      induction sessions with
      | nil => rfl
      | cons session sessions ih => exact ih
    obtain ⟨watched, rows, recorded⟩ := l
    cases hrows
    unfold Versions.addRigVersion
    rw [show (firstVersion.optics.validate fun _ => true) = .ok () from rfl]
    simp only [hall]
    rfl
  obtain ⟨versions, hadd, hadded⟩ := hadd
  have hreachable : RigVault.Reachable noDates { l with versions } :=
    ⟨_, hlifted.append (.cons (.addRigVersion hadd) (.nil _))⟩
  have hconfirmed : ConfirmedOn (some 7) (l.watched.vault.sessions.associations 10 .equipment) :=
    ⟨association, hassociation, hstate, hsubject⟩
  refine ⟨_, hreachable, ⟨_, hcurrent⟩, hconfirmed, ?_⟩
  obtain ⟨-, hwaits⟩ := (recorded_versions noDates _ hreachable).1 10 7 ⟨_, hcurrent⟩ hconfirmed
  cases hload : versions.loadSessionRigVersion 10 with
  | none =>
    have hnight : nightIn noDates l.watched.vault.sessions 10 = none := by
      rw [nightIn_eq, hcurrent]
      rfl
    have hnone := hwaits hload
    simp only [hnight, Versions.loadRigVersions, hadded] at hnone
    cases hnone
  | some version =>
    obtain ⟨recorded, -, hfind⟩ := Option.bind_eq_some_iff.mp hload
    have hmem := (Table.find?_eq_some.mp hfind).1
    rw [hadded, List.mem_singleton] at hmem
    exact congrArg some hmem

end RigVault

end PlateVault.Rigs
