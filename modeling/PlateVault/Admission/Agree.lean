import PlateVault.Admission.Tables
import PlateVault.View.Entries

/-!
# One admission rule

The triggers of `project_sessions` refuse no session the rule admits, and admit no session the rule
does not, its frame review and a held predecessor apart.
-/

namespace PlateVault.Admission

open Calibration (InputKind PinState)
open Library (AssociationKind AssociationState EvidenceItem)
open Projects (AdmissionBasis SessionPlacement)
open View (wholeHost)
open Result (bind_eq_ok orElse_eq_ok)

variable {P : Platform}

/-! ## Evidence -/

namespace Json

variable {member other : String} {value : Json P} {members : List (String × Json P)}

theorem extract_head : (Json.object ((member, value) :: members)).extract member = some value := by
  simp [extract]

theorem extract_tail (h : member ≠ other) : (Json.object ((member, value) :: members)).extract other =
    (Json.object members).extract other := by
  simp [extract, h]

end Json

/-- The `kind` of an evidence item's JSON. -/
def evidenceKind : EvidenceItem P → Text
  | .alias .. => "alias".toList
  | .coordinates .. => "coordinates".toList
  | .footprint .. => "footprint".toList
  | .header .. => "header".toList
  | .unknown _ => "unknown".toList
  | .conflict .. => "conflict".toList

theorem hasText_kind (item : EvidenceItem P) (text : Text) :
    (evidenceJson item).hasText "kind" text = decide (evidenceKind item = text) := by
  have hkind : (evidenceJson item).extract "kind" = some (.string (evidenceKind item)) := by
    cases item <;> exact Json.extract_head
  unfold Json.hasText
  rw [hkind]

theorem alias_iff (item : EvidenceItem P) : ((evidenceJson item).hasText "kind" "alias".toList &&
    (evidenceJson item).hasOne "agrees") = agreeingAlias item := by
  rw [hasText_kind]
  cases item with
  | «alias» normalized agrees =>
    have hagrees : (evidenceJson (P := P) (.alias normalized agrees)).hasOne "agrees" = agrees := by
      unfold Json.hasOne evidenceJson
      rw [Json.extract_tail (by decide), Json.extract_tail (by decide), Json.extract_head]
    rw [hagrees]
    cases agrees <;> rfl
  | coordinates => rfl
  | footprint => rfl
  | header => rfl
  | unknown => rfl
  | conflict => rfl

theorem geometry_iff (item : EvidenceItem P) :
    (((evidenceJson item).hasText "kind" "coordinates".toList ||
      (evidenceJson item).hasText "kind" "footprint".toList) &&
    (evidenceJson item).hasOne "qualified") = qualifiedGeometry item := by
  rw [hasText_kind, hasText_kind]
  cases item with
  | «alias» => rfl
  | coordinates raDeg decDeg qualified =>
    have hqualified : (evidenceJson (P := P) (.coordinates raDeg decDeg qualified)).hasOne "qualified" =
        qualified := by
      unfold Json.hasOne evidenceJson
      rw [Json.extract_tail (by decide), Json.extract_tail (by decide), Json.extract_tail (by decide),
        Json.extract_head]
    rw [hqualified]
    cases qualified <;> rfl
  | footprint overlap qualified =>
    have hqualified : (evidenceJson (P := P) (.footprint overlap qualified)).hasOne "qualified" =
        qualified := by
      unfold Json.hasOne evidenceJson
      rw [Json.extract_tail (by decide), Json.extract_tail (by decide), Json.extract_head]
    rw [hqualified]
    cases qualified <;> rfl
  | header => rfl
  | unknown => rfl
  | conflict => rfl

theorem conflict_iff (item : EvidenceItem P) :
    (evidenceJson item).hasText "kind" "conflict".toList = isConflict item := by
  rw [hasText_kind]
  cases item <;> rfl

theorem stateText_eq_confirmed {state : AssociationState} :
    stateText state = "confirmed".toList ↔ state = .confirmed := by
  cases state <;> decide

theorem stateText_eq_suggested {state : AssociationState} :
    stateText state = "suggested".toList ↔ state = .suggested := by
  cases state <;> decide

theorem sqlCounts_eq (state : AssociationState) (evidence : List (EvidenceItem P)) :
    sqlCounts (stateText state) (evidence.map evidenceJson) = countsAsConfirmed state evidence := by
  have hitems : sqlCounts (stateText state) (evidence.map evidenceJson) =
      (decide (state = .confirmed) || (decide (state = .suggested) &&
        evidence.any agreeingAlias && evidence.any qualifiedGeometry && !evidence.any isConflict)) := by
    have hconfirmed : decide (stateText state = "confirmed".toList) = decide (state = .confirmed) :=
      decide_eq_decide.mpr stateText_eq_confirmed
    have hsuggested : decide (stateText state = "suggested".toList) = decide (state = .suggested) :=
      decide_eq_decide.mpr stateText_eq_suggested
    unfold sqlCounts
    rw [hconfirmed, hsuggested]
    simp only [List.any_map, Function.comp_def, alias_iff, geometry_iff, conflict_iff]
  rw [hitems]
  cases state <;> simp [countsAsConfirmed]

/-! ## Calibration -/

theorem kind_setKind (calibration : SessionCalibration) (kind : InputKind) (pin : PinState) :
    (calibration.setKind kind pin).kind kind = pin := by
  cases kind <;> rfl

theorem kind_setKind_of_ne {kind other : InputKind} (h : other ≠ kind)
    (calibration : SessionCalibration) (pin : PinState) :
    (calibration.setKind kind pin).kind other = calibration.kind other := by
  cases kind <;> cases other <;> first | rfl | exact absurd rfl h

abbrev readKinds (rows : List KindRow) (calibration : SessionCalibration) : SessionCalibration :=
  rows.foldl (fun calibration row => calibration.setKind row.kind row.pin) calibration

theorem kind_readKinds_of_ne {rows : List KindRow} {kind : InputKind} (h : ∀ row ∈ rows, row.kind ≠ kind)
    (calibration : SessionCalibration) : (readKinds rows calibration).kind kind = calibration.kind kind := by
  induction rows generalizing calibration with
  | nil => rfl
  | cons row rows ih =>
    rw [readKinds, List.foldl_cons]
    rw [ih (fun other hother => h other (List.mem_cons_of_mem _ hother))]
    exact kind_setKind_of_ne (Ne.symm (h row List.mem_cons_self)) calibration row.pin

theorem kind_readKinds {rows : List KindRow} {row : KindRow} (hrow : row ∈ rows)
    (honly : ∀ other ∈ rows, other.kind = row.kind → other = row) (calibration : SessionCalibration) :
    (readKinds rows calibration).kind row.kind = row.pin := by
  induction rows generalizing calibration with
  | nil => cases hrow
  | cons first rest ih =>
    have honlyRest : ∀ other ∈ rest, other.kind = row.kind → other = row :=
      fun other hother => honly other (List.mem_cons_of_mem _ hother)
    rw [readKinds, List.foldl_cons]
    by_cases hrest : row ∈ rest
    · exact ih hrest honlyRest _
    · have hfirst : first = row := by
        rcases List.mem_cons.mp hrow with heq | hmem
        · exact heq.symm
        · exact absurd hmem hrest
      rw [hfirst]
      have hnone : ∀ other ∈ rest, other.kind ≠ row.kind := fun other hother hkind =>
        hrest (honlyRest other hother hkind ▸ hother)
      exact (kind_readKinds_of_ne hnone _).trans (kind_setKind calibration row.kind row.pin)

theorem settledState_iff (row : KindRow) : settledState row.state = isSettled row.pin := by
  rw [← row.named]
  cases row.pin <;> rfl

theorem generation_readKinds (rows : List KindRow) (calibration : SessionCalibration) :
    (readKinds rows calibration).generation = calibration.generation := by
  induction rows generalizing calibration with
  | nil => rfl
  | cons row rows ih =>
    rw [readKinds, List.foldl_cons, ih]
    cases row.kind <;> rfl

namespace Tables

variable {t : Tables P} {session : Uuid}

theorem generation_readCalibration {record : CalibrationRow}
    (h : t.calibrations.find? session = some record) :
    (t.readCalibration session).generation = record.generation := by
  unfold readCalibration
  rw [h]
  exact generation_readKinds _ _

theorem isSettled_kind (kind : InputKind) : isSettled ((t.readCalibration session).kind kind) = true ↔
    ∃ row ∈ t.kinds.rows, row.sessionId = session ∧ row.kind = kind ∧ isSettled row.pin = true := by
  unfold readCalibration
  cases hrecord : t.calibrations.find? session with
  | none =>
    constructor
    · intro h
      cases kind <;> cases h
    · rintro ⟨row, hrow, rfl, -⟩
      obtain ⟨record, hmem, hsession⟩ := t.kindsOf row hrow
      exact absurd hsession (Table.find?_eq_none.mp hrecord record hmem)
  | some record =>
    simp only
    constructor
    · intro h
      by_cases hrow : ∃ row ∈ t.kinds.rows.filter (·.sessionId = session), row.kind = kind
      · obtain ⟨row, hmem, rfl⟩ := hrow
        obtain ⟨hrow, hsession⟩ := List.mem_filter.mp hmem
        rw [decide_eq_true_eq] at hsession
        rw [kind_readKinds hmem] at h
        · exact ⟨row, hrow, hsession, rfl, h⟩
        · intro other hother hkind
          obtain ⟨hmem', hsession'⟩ := List.mem_filter.mp hother
          rw [decide_eq_true_eq] at hsession'
          exact t.kinds.eq_of_key hmem' hrow (by rw [KindRow.key, KindRow.key, hsession', hsession, hkind])
      · rw [kind_readKinds_of_ne fun row hmem hkind => hrow ⟨row, hmem, hkind⟩] at h
        cases kind <;> cases h
    · rintro ⟨row, hrow, hsession, rfl, hsettled⟩
      rw [kind_readKinds (List.mem_filter.mpr ⟨hrow, decide_eq_true hsession⟩)]
      · exact hsettled
      · intro other hother hkind
        obtain ⟨hmem', hsession'⟩ := List.mem_filter.mp hother
        rw [decide_eq_true_eq] at hsession'
        exact t.kinds.eq_of_key hmem' hrow (by rw [KindRow.key, KindRow.key, hsession', hsession, hkind])

theorem settled_iff : (∀ kind, isSettled ((t.readCalibration session).kind kind) = true) ↔
    3 ≤ (t.kinds.rows.filter fun row => row.sessionId = session &&
      settledState row.state).length := by
  generalize hrows : (t.kinds.rows.filter fun row => row.sessionId = session &&
      settledState row.state) = rows
  have hmem : ∀ row, row ∈ rows ↔ row ∈ t.kinds.rows ∧ row.sessionId = session ∧
      isSettled row.pin = true := by
    intro row
    rw [← hrows, List.mem_filter, Bool.and_eq_true, decide_eq_true_eq, settledState_iff]
  have hnodup : (rows.map (·.kind)).Nodup := by
    refine List.Nodup.map_on ?_ ?_
    · intro row hrow other hother hkind
      obtain ⟨hin, hsession, -⟩ := (hmem row).mp hrow
      obtain ⟨hin', hsession', -⟩ := (hmem other).mp hother
      exact t.kinds.eq_of_key hin hin' (by rw [KindRow.key, KindRow.key, hsession, hsession', hkind])
    · rw [← hrows]
      exact (List.Nodup.of_map _ t.kinds.nodup).filter _
  have hall : (∀ kind, isSettled ((t.readCalibration session).kind kind) = true) ↔
      ∀ kind, kind ∈ rows.map (·.kind) := by
    refine forall_congr' fun kind => (isSettled_kind kind).trans ?_
    rw [List.mem_map]
    constructor
    · rintro ⟨row, hrow, hsession, hkind, hsettled⟩
      exact ⟨row, (hmem row).mpr ⟨hrow, hsession, hsettled⟩, hkind⟩
    · rintro ⟨row, hrow, hkind⟩
      obtain ⟨hin, hsession, hsettled⟩ := (hmem row).mp hrow
      exact ⟨row, hin, hsession, hkind, hsettled⟩
  have hkinds : rows.map (·.kind) ⊆ [InputKind.bias, .dark, .flat] := by
    intro kind _
    cases kind <;> simp
  rw [hall, ← List.length_map (f := (·.kind : KindRow → InputKind))]
  constructor
  · intro h
    have hsub : [InputKind.bias, .dark, .flat] ⊆ rows.map (·.kind) := fun kind _ => h kind
    exact (List.subperm_of_subset (by decide) hsub).length_le
  · intro hlength kind
    have hperm := (List.subperm_of_subset hnodup hkinds).perm_of_length_le hlength
    exact hperm.mem_iff.mpr (by cases kind <;> simp)

/-! ## Associations -/

theorem equipmentConfirmed_iff {row : AssociationRow P} : equipmentConfirmed row = true ↔
    row.kind = .equipment ∧ row.state = .confirmed := by
  unfold equipmentConfirmed
  rw [Bool.and_eq_true, decide_eq_true_eq, decide_eq_true_eq, stateText_eq_confirmed]

theorem mem_associationsOf {row : AssociationRow P} : row ∈ t.associationsOf session ↔
    row ∈ t.associations.rows ∧ row.sessionId = session := by
  unfold associationsOf
  rw [List.mem_filter, decide_eq_true_eq]

theorem eq_of_associationsOf {row other : AssociationRow P} (hrow : row ∈ t.associationsOf session)
    (hother : other ∈ t.associationsOf session) (hkind : row.kind = other.kind) : row = other := by
  obtain ⟨hrow, hsession⟩ := mem_associationsOf.mp hrow
  obtain ⟨hother, hsession'⟩ := mem_associationsOf.mp hother
  exact t.associations.eq_of_key hrow hother (by
    rw [AssociationRow.key, AssociationRow.key, hsession, hsession', hkind])

theorem confirmedEquipment_eq_some {rig : Uuid} : t.confirmedEquipment session = some rig ↔
    ∃ row ∈ t.associationsOf session, equipmentConfirmed row = true ∧ row.equipmentId = some rig := by
  unfold confirmedEquipment
  have hstep (row : AssociationRow P) :
      (if row.kind = .equipment && row.state = .confirmed then row.subjectId else none) = some rig ↔
        equipmentConfirmed row = true ∧ row.equipmentId = some rig := by
    rw [equipmentConfirmed_iff, AssociationRow.subjectId]
    by_cases hkind : row.kind = .equipment
    · by_cases hstate : row.state = .confirmed
      · simp [hkind, hstate]
      · simp [hstate]
    · simp [hkind]
  constructor
  · intro h
    obtain ⟨row, hrow, hsome⟩ := List.exists_of_findSome?_eq_some h
    exact ⟨row, hrow, (hstep row).mp hsome⟩
  · rintro ⟨row, hrow, hequipment⟩
    have hsome := (hstep row).mpr hequipment
    have hfound : ((t.associationsOf session).findSome? fun row =>
        if row.kind = .equipment && row.state = .confirmed then row.subjectId else none).isSome = true := by
      rw [List.findSome?_isSome_iff]
      exact ⟨row, hrow, by rw [hsome]; rfl⟩
    obtain ⟨found, hfound⟩ := Option.isSome_iff_exists.mp hfound
    obtain ⟨other, hother, hvalue⟩ := List.exists_of_findSome?_eq_some hfound
    have hkind : other.kind = .equipment := by
      by_contra hne
      simp [hne] at hvalue
    have hsame := eq_of_associationsOf hother hrow
      (hkind.trans (equipmentConfirmed_iff.mp hequipment.1).1.symm)
    rw [hsame, hsome] at hvalue
    rw [hfound, ← hvalue]

theorem countsTarget_eq (row : AssociationRow P) : (decide (row.kind = .target) && row.targetId.isSome &&
    sqlCounts (stateText row.state) (row.evidence.map evidenceJson)) = countsTarget row := by
  unfold countsTarget AssociationRow.subjectId
  rw [sqlCounts_eq]
  cases hkind : row.kind <;> simp

/-! ## Reads and inserts -/

def Joins (t : Tables P) (session target : Uuid) : Prop :=
  ∃ row ∈ t.associationsOf session, countsTarget row = true ∧ row.targetId = some target

theorem exists_joins (h : (t.associationsOf session).any countsTarget = true) :
    ∃ target ∈ t.targets, t.Joins session target := by
  obtain ⟨row, hrow, hcounts⟩ := List.any_eq_true.mp h
  have hcolumn := hcounts
  rw [← countsTarget_eq, Bool.and_eq_true, Bool.and_eq_true] at hcolumn
  obtain ⟨target, htarget⟩ := Option.isSome_iff_exists.mp hcolumn.1.2
  exact ⟨target, t.targetsOf row (mem_associationsOf.mp hrow).1 target htarget, row, hrow, hcounts,
    htarget⟩

theorem Joins.mem_targets {target : Uuid} (h : t.Joins session target) : target ∈ t.targets := by
  obtain ⟨row, hrow, -, htarget⟩ := h
  exact t.targetsOf row (mem_associationsOf.mp hrow).1 target htarget

theorem readIntake_eq_ok {frames : Result (Nat × Nat)} {intake : SessionIntake}
    (h : t.readIntake frames session = .ok intake) : ∃ row unreviewed changed,
      t.sessions.find? session = some row ∧ frames = .ok (unreviewed, changed) ∧
      intake = ⟨session, row.groupingRevision, row.supersededBy.isSome,
        (t.associationsOf session).any countsTarget, t.confirmedEquipment session,
        decide ((t.reviews.find? session).map (·.groupingRevision) = some row.groupingRevision),
        unreviewed, changed⟩ := by
  obtain ⟨row, hrow, h₁⟩ := bind_eq_ok.mp h
  obtain ⟨⟨unreviewed, changed⟩, hframes, h₂⟩ := bind_eq_ok.mp h₁
  cases h₂
  exact ⟨row, unreviewed, changed, orElse_eq_ok.mp hrow, hframes, rfl⟩

theorem requireAdmission_eq_ok {frames : Result (Nat × Nat)} {project group : Uuid}
    {expected : Option AdmissionBasis} {basis : AdmissionBasis}
    (h : t.requireAdmission frames project group session expected = .ok basis) :
    ∃ projectRow groupRow intake, t.projects.find? project = some projectRow ∧
      t.groups.find? group = some groupRow ∧ groupRow.projectId = project ∧
      t.readIntake frames session = .ok intake ∧
      admitSession projectRow.lifecycle groupRow.rigId intake (t.readCalibration session) = .ok basis := by
  obtain ⟨projectRow, hproject, h₁⟩ := bind_eq_ok.mp h
  obtain ⟨groupRow, hgroup, h₂⟩ := bind_eq_ok.mp h₁
  obtain ⟨intake, hintake, h₃⟩ := bind_eq_ok.mp h₂
  obtain ⟨hfound, howner⟩ := Option.filter_eq_some_iff.mp (orElse_eq_ok.mp hgroup)
  refine ⟨projectRow, groupRow, intake, orElse_eq_ok.mp hproject, hfound, by simpa using howner,
    hintake, ?_⟩
  simp only at h₃
  split at h₃
  · cases h₃
  · split at h₃
    · cases h₃
    · next found hadmitted =>
      split at h₃
      · cases h₃
      · cases h₃
        exact hadmitted

theorem insertMember_eq_ok {new : MemberRow} : (∃ t', t.insertMember new = .ok t') ↔
    (∀ trigger ∈ t.triggers new, trigger.1 = false) ∧ t.checks new = true ∧
      t.members.find? new.key = none := by
  unfold insertMember
  cases htrigger : (t.triggers new).find? (·.1) with
  | some trigger =>
    simp only
    constructor
    · rintro ⟨_, h⟩
      cases h
    · rintro ⟨h, -⟩
      have hholds := List.find?_some htrigger
      rw [h trigger (List.mem_of_find?_eq_some htrigger)] at hholds
      cases hholds
  | none =>
    have hnone : ∀ trigger ∈ t.triggers new, trigger.1 = false := by
      simpa using List.find?_eq_none.mp htrigger
    simp only
    by_cases hchecks : t.checks new = true
    · rw [if_pos hchecks]
      cases hinsert : t.members.insert? new with
      | some members => exact ⟨fun _ => ⟨hnone, hchecks, (Table.insert?_eq_some hinsert).1⟩, fun _ => ⟨_, rfl⟩⟩
      | none =>
        constructor
        · rintro ⟨_, h⟩
          cases h
        · rintro ⟨-, -, hfree⟩
          unfold Table.insert? at hinsert
          split at hinsert
          · next hmem =>
            obtain ⟨row, hrow, hkey⟩ := List.mem_map.mp hmem
            exact absurd hkey (Table.find?_eq_none.mp hfree row hrow)
          · cases hinsert
    · rw [if_neg hchecks]
      constructor
      · rintro ⟨_, h⟩
        cases h
      · rintro ⟨-, h, -⟩
        exact absurd h hchecks

theorem reviewed_iff {row : SessionRow} (hrow : t.sessions.find? session = some row) :
    (t.reviews.rows.any fun review => review.sessionId = session &&
      t.sessions.rows.any fun row => row.id = review.sessionId &&
        review.groupingRevision = row.groupingRevision) = true ↔
      (t.reviews.find? session).map (·.groupingRevision) = some row.groupingRevision := by
  obtain ⟨hmem, hid⟩ := Table.find?_eq_some.mp hrow
  simp only [List.any_eq_true, Bool.and_eq_true, decide_eq_true_eq, Option.map_eq_some_iff,
    Table.find?_eq_some]
  constructor
  · rintro ⟨review, hreview, hsession, other, hother, hotherId, hsame⟩
    have heq : other = row := t.sessions.eq_of_key hother hmem (by rw [hotherId, hsession, hid])
    exact ⟨review, ⟨hreview, hsession⟩, heq ▸ hsame⟩
  · rintro ⟨review, ⟨hreview, hsession⟩, hsame⟩
    exact ⟨review, hreview, hsession, row, hmem, by rw [hid, hsession], hsame⟩

theorem notReady_eq_false {new : MemberRow} {row : SessionRow}
    (hrow : t.sessions.find? new.sessionId = some row) :
    t.notReady new = false ↔ t.predecessorHeld new = true ∨
      ((t.associationsOf new.sessionId).any countsTarget = true ∧
        (t.associationsOf new.sessionId).any equipmentConfirmed = true ∧
        (t.reviews.find? new.sessionId).map (·.groupingRevision) = some row.groupingRevision) := by
  unfold notReady
  rw [← reviewed_iff hrow]
  simp only [countsTarget_eq]
  cases t.predecessorHeld new <;> simp [and_assoc]

theorem exists_record (h : ∀ kind, isSettled ((t.readCalibration session).kind kind) = true) :
    ∃ record, t.calibrations.find? session = some record := by
  obtain ⟨row, hrow, hsession, -⟩ := (isSettled_kind .dark).mp (h .dark)
  obtain ⟨record, hrecord, howner⟩ := t.kindsOf row hrow
  exact ⟨record, Table.find?_eq_some.mpr ⟨hrecord, howner.trans hsession⟩⟩

/-- What an insert finds beside the rows that make a session Ready, on its rig and settled. -/
structure Stands (t : Tables P) (new : MemberRow) (group : GroupRow) : Prop where
  session : ∃ row, t.sessions.find? new.sessionId = some row ∧ row.supersededBy = none ∧
    row.groupingRevision = new.basis.groupingRevision
  calibration : ∃ record, t.calibrations.find? new.sessionId = some record ∧
    record.generation = new.basis.calibrationGeneration
  project : ∃ row, t.projects.find? new.projectId = some row ∧ row.lifecycle = .open
  group : t.groups.find? new.groupId = some group ∧ group.projectId = new.projectId
  target : new.targetId ∈ t.targets
  free : t.members.find? new.key = none

theorem insertMember_iff {new : MemberRow} : (∃ t', t.insertMember new = .ok t') ↔
    t.notReady new = false ∧ t.otherRig new = false ∧ t.unsettled new = false ∧
      ∃ group, Stands t new group := by
  rw [insertMember_eq_ok]
  simp only [triggers, List.forall_mem_cons, List.not_mem_nil, false_implies, implies_true, and_true]
  constructor
  · rintro ⟨⟨hsuperseded, hready, hrig, hsettled, hbasis, hlocked⟩, hchecks, hfree⟩
    simp only [checks, Bool.and_eq_true, List.any_eq_true, decide_eq_true_eq, List.contains_iff_mem]
      at hchecks
    obtain ⟨⟨⟨⟨hpositive, hproject⟩, hsession⟩, htarget⟩, group, hgroup, hgroupId, howner⟩ := hchecks
    obtain ⟨row, hrow⟩ := Option.isSome_iff_exists.mp hsession
    obtain ⟨projectRow, hprojectRow⟩ := Option.isSome_iff_exists.mp hproject
    simp only [staleBasis, Bool.or_eq_false_iff, ne_eq, decide_not, Bool.not_eq_false',
      decide_eq_true_eq, Option.map_eq_some_iff] at hbasis
    obtain ⟨⟨other, hother, hrevision⟩, hrecord⟩ := hbasis
    rw [hrow] at hother
    cases hother
    refine ⟨hready, hrig, hsettled, group, ⟨row, hrow, ?_, hrevision⟩, hrecord,
      ⟨projectRow, hprojectRow, ?_⟩, ⟨Table.find?_eq_some.mpr ⟨hgroup, hgroupId⟩, howner⟩, htarget, hfree⟩
    · simpa [superseded, hrow] using hsuperseded
    · simpa [locked, hprojectRow] using hlocked
  · rintro ⟨hready, hrig, hsettled, group, ⟨row, hrow, hcurrent, hrevision⟩, ⟨record, hrecord, hgeneration⟩,
      ⟨projectRow, hproject, hopen⟩, ⟨hgroup, howner⟩, htarget, hfree⟩
    obtain ⟨hgroupMem, hgroupId⟩ := Table.find?_eq_some.mp hgroup
    refine ⟨⟨?_, hready, hrig, hsettled, ?_, ?_⟩, ?_, hfree⟩
    · simp [superseded, hrow, hcurrent]
    · simp [staleBasis, hrow, hrecord, hrevision, hgeneration]
    · simp [locked, hproject, hopen]
    · have hpositive := record.positive
      simp only [checks, Bool.and_eq_true, List.any_eq_true, decide_eq_true_eq, List.contains_iff_mem]
      refine ⟨⟨⟨⟨hgeneration ▸ hpositive, by rw [hproject]; rfl⟩, by rw [hrow]; rfl⟩, htarget⟩, group,
        hgroupMem, hgroupId, howner⟩

theorem otherRig_eq_false {new : MemberRow} {group : GroupRow}
    (hgroup : t.groups.find? new.groupId = some group)
    (hany : (t.associationsOf new.sessionId).any equipmentConfirmed = true) :
    t.otherRig new = false ↔ t.confirmedEquipment new.sessionId = some group.rigId := by
  obtain ⟨hmem, hid⟩ := Table.find?_eq_some.mp hgroup
  rw [confirmedEquipment_eq_some]
  unfold otherRig
  rw [hany, Bool.true_and, Bool.not_eq_false', List.any_eq_true]
  constructor
  · rintro ⟨row, hrow, hholds⟩
    simp only [Bool.and_eq_true, List.any_eq_true, decide_eq_true_eq] at hholds
    obtain ⟨hconfirmed, other, hother, hrig, hotherId⟩ := hholds
    have hsame : other = group := t.groups.eq_of_key hother hmem (hotherId.trans hid.symm)
    exact ⟨row, hrow, hconfirmed, hsame ▸ hrig.symm⟩
  · rintro ⟨row, hrow, hconfirmed, hrig⟩
    refine ⟨row, hrow, ?_⟩
    simp only [Bool.and_eq_true, List.any_eq_true, decide_eq_true_eq]
    exact ⟨hconfirmed, group, hmem, hrig.symm, hid⟩

theorem unsettled_eq_false {new : MemberRow} : t.unsettled new = false ↔
    t.predecessorHeld new = true ∨
      ∀ kind, isSettled ((t.readCalibration new.sessionId).kind kind) = true := by
  rw [settled_iff]
  unfold unsettled
  cases t.predecessorHeld new <;> simp

theorem insertMember_of_admitted {frames : Result (Nat × Nat)} {project group target : Uuid}
    {expected : Option AdmissionBasis} {basis : AdmissionBasis}
    (h : t.requireAdmission frames project group session expected = .ok basis)
    (hfree : t.members.find? (project, session) = none) (hjoins : t.Joins session target)
    (placement : SessionPlacement) :
    ∃ t', t.insertMember ⟨project, session, group, placement, target, basis⟩ = .ok t' := by
  obtain ⟨projectRow, groupRow, intake, hproject, hgroup, howner, hintake, hadmitted⟩ :=
    requireAdmission_eq_ok h
  obtain ⟨hopen, hcurrent, hready, hrig, hsettled, hbasis⟩ := admitSession_eq_ok.mp hadmitted
  obtain ⟨row, unreviewed, changed, hrow, -, rfl⟩ := readIntake_eq_ok hintake
  obtain ⟨htarget, -, hreview, -⟩ := readiness_eq_ready.mp hready
  obtain ⟨equipment, hequipment, hconfirmed, -⟩ := confirmedEquipment_eq_some.mp hrig
  have hany : (t.associationsOf session).any equipmentConfirmed = true :=
    List.any_eq_true.mpr ⟨equipment, hequipment, hconfirmed⟩
  obtain ⟨record, hrecord⟩ := exists_record hsettled
  have hgeneration := generation_readCalibration hrecord
  rw [insertMember_iff]
  refine ⟨(notReady_eq_false hrow).mpr (.inr ⟨htarget, hany, of_decide_eq_true hreview⟩),
    (otherRig_eq_false hgroup hany).mpr hrig, unsettled_eq_false.mpr (.inr hsettled), groupRow, ?_⟩
  exact {
    session := ⟨row, hrow, by simpa using hcurrent, by rw [hbasis]⟩
    calibration := ⟨record, hrecord, by rw [hbasis]; exact hgeneration.symm⟩
    project := ⟨projectRow, hproject, hopen⟩
    group := ⟨hgroup, howner⟩
    target := hjoins.mem_targets
    free := hfree }

theorem admitted_of_insertMember {new : MemberRow} {t' : Tables P} (h : t.insertMember new = .ok t')
    (hheld : t.predecessorHeld new = false) (unreviewed changed : Nat) :
    ∃ project group intake, t.projects.find? new.projectId = some project ∧
      t.groups.find? new.groupId = some group ∧ group.projectId = new.projectId ∧
      t.readIntake (.ok (unreviewed, changed)) new.sessionId = .ok intake ∧
      admitSession project.lifecycle group.rigId intake.reviewed (t.readCalibration new.sessionId) =
        .ok new.basis := by
  obtain ⟨hready, hrig, hsettled, group, hstands⟩ := insertMember_iff.mp ⟨t', h⟩
  obtain ⟨row, hrow, hcurrent, hrevision⟩ := hstands.session
  obtain ⟨record, hrecord, hgeneration⟩ := hstands.calibration
  obtain ⟨project, hproject, hopen⟩ := hstands.project
  obtain ⟨hgroup, howner⟩ := hstands.group
  obtain ⟨htarget, hany, hreview⟩ := ((notReady_eq_false hrow).mp hready).resolve_left (by simp [hheld])
  have hrigId := (otherRig_eq_false hgroup hany).mp hrig
  have hkinds := (unsettled_eq_false.mp hsettled).resolve_left (by simp [hheld])
  refine ⟨project, group, _, hproject, hgroup, howner,
    bind_eq_ok.mpr ⟨row, orElse_eq_ok.mpr hrow, bind_eq_ok.mpr ⟨_, rfl, rfl⟩⟩, ?_⟩
  refine admitSession_eq_ok.mpr ⟨hopen, by rw [SessionIntake.reviewed, hcurrent]; rfl, ?_, hrigId, hkinds, ?_⟩
  · refine readiness_eq_ready.mpr ⟨htarget, ?_, decide_eq_true hreview, rfl, rfl⟩
    change (t.confirmedEquipment new.sessionId).isSome = true
    rw [hrigId]
    rfl
  · rw [generation_readCalibration hrecord, hgeneration]
    change new.basis = ⟨row.groupingRevision, _⟩
    rw [hrevision]

end Tables

/-- One admission rule in both layers: they count the same Targets as confirmed and the same kinds as
settled; a session the rule admits is inserted on the Target it joins on; and a session inserted without
a held predecessor is one the rule admits at that basis, its frame review apart. -/
theorem admission_layers_agree (t : Tables P) :
    (∀ state (evidence : List (EvidenceItem P)),
      sqlCounts (stateText state) (evidence.map evidenceJson) = countsAsConfirmed state evidence) ∧
    (∀ session, (t.readCalibration session).unsettledKinds = [] ↔
      3 ≤ (t.kinds.rows.filter fun row => row.sessionId = session && settledState row.state).length) ∧
    (∀ frames project group session expected basis,
      t.requireAdmission frames project group session expected = .ok basis →
      t.members.find? (project, session) = none →
      (∃ target, t.Joins session target) ∧ ∀ target, t.Joins session target → ∀ placement,
        ∃ t', t.insertMember ⟨project, session, group, placement, target, basis⟩ = .ok t') ∧
    ∀ new t', t.insertMember new = .ok t' → t.predecessorHeld new = false → ∀ unreviewed changed,
      ∃ project group intake, t.projects.find? new.projectId = some project ∧
        t.groups.find? new.groupId = some group ∧ group.projectId = new.projectId ∧
        t.readIntake (.ok (unreviewed, changed)) new.sessionId = .ok intake ∧
        admitSession project.lifecycle group.rigId intake.reviewed (t.readCalibration new.sessionId) =
          .ok new.basis := by
  refine ⟨sqlCounts_eq, fun session => unsettledKinds_eq_nil.trans Tables.settled_iff, ?_,
    fun new t' h hheld => Tables.admitted_of_insertMember h hheld⟩
  intro frames project group session expected basis h hfree
  obtain ⟨_, _, intake, -, -, -, hintake, hadmitted⟩ := Tables.requireAdmission_eq_ok h
  obtain ⟨_, _, _, -, -, rfl⟩ := Tables.readIntake_eq_ok hintake
  have htarget := (readiness_eq_ready.mp (admitSession_eq_ok.mp hadmitted).2.2.1).1
  obtain ⟨target, -, hjoins⟩ := Tables.exists_joins htarget
  exact ⟨⟨target, hjoins⟩, fun _ hjoins placement => Tables.insertMember_of_admitted h hfree hjoins placement⟩

/-! ## A Ready session -/

def confirmedRow (kind : AssociationKind) : AssociationRow wholeHost.toPlatform where
  sessionId := 1
  kind := kind
  targetId := if kind = .target then some 2 else none
  equipmentId := if kind = .equipment then some 3 else none
  state := .confirmed
  evidence := []
  targetNull := by cases kind <;> decide
  equipmentNull := by cases kind <;> decide

def declinedRow (kind : InputKind) : KindRow := ⟨1, kind, "declined".toList, .declined .user, rfl⟩

/-- A Ready session without calibration, and a group on its rig. -/
def readyTables : Tables wholeHost.toPlatform where
  projects := ⟨[⟨4, .open⟩], by decide⟩
  groups := ⟨[⟨5, 4, 3⟩], by decide⟩
  targets := [2]
  sessions := ⟨[⟨1, 7, none⟩], by decide⟩
  associations := ⟨[confirmedRow .target, confirmedRow .equipment], by decide⟩
  reviews := ⟨[⟨1, 7⟩], by decide⟩
  calibrations := ⟨[⟨1, 9, false, by decide⟩], by decide⟩
  kinds := ⟨[declinedRow .bias, declinedRow .dark, declinedRow .flat], by decide⟩
  lineage := []
  successors := fun _ => []
  members := .empty
  kindsOf := by
    intro row hrow
    refine ⟨_, List.mem_cons_self, ?_⟩
    simp only [List.mem_cons, List.not_mem_nil, or_false] at hrow
    rcases hrow with rfl | rfl | rfl <;> rfl
  targetsOf := by
    intro row hrow target htarget
    simp only [List.mem_cons, List.not_mem_nil, or_false] at hrow
    rcases hrow with rfl | rfl
    · cases htarget
      exact List.mem_cons_self
    · cases htarget

theorem ready_session_joins : ∃ target, readyTables.Joins 1 target ∧
    ∃ t', readyTables.insertMember ⟨4, 1, 5, .framing, target, ⟨7, 9⟩⟩ = .ok t' := by
  have hadmitted : readyTables.requireAdmission (.ok (0, 0)) 4 5 1 none = .ok ⟨7, 9⟩ := rfl
  obtain ⟨⟨target, hjoins⟩, hinserts⟩ :=
    (admission_layers_agree readyTables).2.2.1 _ _ _ _ _ _ hadmitted rfl
  exact ⟨target, hjoins, hinserts target hjoins .framing⟩

end PlateVault.Admission
