import PlateVault.Admission.Rule

/-!
# The admission triggers

The rows an admission is decided on, the reads of them inside a transaction, and what the triggers and
checks of `project_sessions` refuse: the rule once more, over JSON and columns.
-/

namespace PlateVault.Admission

open Calibration (InputKind PinState)
open Library (AssociationKind AssociationState EvidenceItem)
open Output (ProjectLifecycle)
open Projects (AdmissionBasis SessionPlacement)

variable {P : Platform}

/-! ## JSON columns -/

inductive Json (P : Platform)
  | null
  | bool (value : Bool)
  | number (value : P.F64)
  | string (value : Text)
  | array (items : List (Json P))
  | object (members : List (String × Json P))

namespace Json

def ofF64 (value : P.F64) : Json P := if P.isFinite value then .number value else .null

/-- `json_extract` of a member of the root. -/
def extract (json : Json P) (member : String) : Option (Json P) :=
  match json with
  | .object members => (members.find? (·.1 = member)).map (·.2)
  | _ => none

/-- `json_extract(json, '$.member') = text`. -/
def hasText (json : Json P) (member : String) (text : Text) : Bool :=
  match json.extract member with
  | some (.string value) => value = text
  | _ => false

/-- `json_extract(json, '$.member') = 1`; true is 1. -/
def hasOne (json : Json P) (member : String) : Bool :=
  match json.extract member with
  | some (.bool value) => value
  | some (.number value) => P.le value (P.literal 1) && P.le (P.literal 1) value
  | _ => false

end Json

def evidenceJson : EvidenceItem P → Json P
  | .alias normalized agrees => .object
    [("kind", .string "alias".toList), ("normalized", .string normalized), ("agrees", .bool agrees)]
  | .coordinates raDeg decDeg qualified => .object
    [("kind", .string "coordinates".toList), ("ra_deg", .ofF64 raDeg), ("dec_deg", .ofF64 decDeg),
      ("qualified", .bool qualified)]
  | .footprint overlap qualified => .object
    [("kind", .string "footprint".toList), ("overlap", .ofF64 overlap), ("qualified", .bool qualified)]
  | .header field value => .object
    [("kind", .string "header".toList), ("field", .string field), ("value", .string value)]
  | .unknown field => .object [("kind", .string "unknown".toList), ("field", .string field)]
  | .conflict field values => .object
    [("kind", .string "conflict".toList), ("field", .string field),
      ("values", .array (values.map .string))]

def stateText : AssociationState → Text
  | .unresolved => "unresolved".toList
  | .suggested => "suggested".toList
  | .needsReview => "needs_review".toList
  | .confirmed => "confirmed".toList

def settledState (state : Text) : Bool := state = "pinned".toList || state = "declined".toList

/-- `counts_as_confirmed` as `project_sessions_admit_ready` restates it over a row's columns. -/
def sqlCounts (state : Text) (evidence : List (Json P)) : Bool :=
  state = "confirmed".toList || (state = "suggested".toList &&
    evidence.any (fun e => e.hasText "kind" "alias".toList && e.hasOne "agrees") &&
    evidence.any (fun e => (e.hasText "kind" "coordinates".toList || e.hasText "kind" "footprint".toList) &&
      e.hasOne "qualified") &&
    !evidence.any (fun e => e.hasText "kind" "conflict".toList))

/-! ## Rows -/

structure ProjectRow where
  id : Uuid
  lifecycle : ProjectLifecycle

structure GroupRow where
  id : Uuid
  projectId : Uuid
  rigId : Uuid

structure SessionRow where
  id : Uuid
  groupingRevision : Nat
  supersededBy : Option Nat

/-- A row of `associations`; a column of the other kind is null. -/
structure AssociationRow (P : Platform) where
  sessionId : Uuid
  kind : AssociationKind
  targetId : Option Uuid
  equipmentId : Option Uuid
  state : AssociationState
  evidence : List (EvidenceItem P)
  targetNull : kind = .target ∨ targetId = none
  equipmentNull : kind = .equipment ∨ equipmentId = none

def AssociationRow.key (row : AssociationRow P) : Uuid × AssociationKind := (row.sessionId, row.kind)

def AssociationRow.subjectId (row : AssociationRow P) : Option Uuid :=
  match row.kind with
  | .target => row.targetId
  | .equipment => row.equipmentId

/-- The grouping revision a session's review was finished at. -/
structure ReviewRow where
  sessionId : Uuid
  groupingRevision : Nat

structure CalibrationRow where
  sessionId : Uuid
  generation : Nat
  matchingPending : Bool
  positive : 0 < generation

structure KindRow where
  sessionId : Uuid
  kind : InputKind
  state : Text
  pin : PinState
  named : pinName pin = state

def KindRow.key (row : KindRow) : Uuid × InputKind := (row.sessionId, row.kind)

inductive LineageRole
  | predecessor
  | successor
  deriving DecidableEq, Repr

structure LineageRow where
  lineageId : Nat
  sessionId : Uuid
  role : LineageRole
  deriving DecidableEq, Repr

/-- A held session: its group, placement and Target, and the basis it joined on. -/
structure MemberRow where
  projectId : Uuid
  sessionId : Uuid
  groupId : Uuid
  placement : SessionPlacement
  targetId : Uuid
  basis : AdmissionBasis

def MemberRow.key (row : MemberRow) : Uuid × Uuid := (row.projectId, row.sessionId)

/-- What an admission reads and writes, under the tables' keys and references. -/
structure Tables (P : Platform) where
  projects : Table Uuid ProjectRow ProjectRow.id
  groups : Table Uuid GroupRow GroupRow.id
  targets : List Uuid
  sessions : Table Uuid SessionRow SessionRow.id
  associations : Table (Uuid × AssociationKind) (AssociationRow P) AssociationRow.key
  reviews : Table Uuid ReviewRow ReviewRow.sessionId
  calibrations : Table Uuid CalibrationRow CalibrationRow.sessionId
  kinds : Table (Uuid × InputKind) KindRow KindRow.key
  lineage : List LineageRow
  /-- `session_lineage.successors`. -/
  successors : Nat → List Uuid
  members : Table (Uuid × Uuid) MemberRow MemberRow.key
  kindsOf : ∀ row ∈ kinds.rows, ∃ record ∈ calibrations.rows, record.sessionId = row.sessionId
  targetsOf : ∀ row ∈ associations.rows, ∀ target, row.targetId = some target → target ∈ targets

namespace Tables

variable (t : Tables P)

/-! ## Reads -/

def associationsOf (session : Uuid) : List (AssociationRow P) :=
  t.associations.rows.filter (·.sessionId = session)

def confirmedEquipment (session : Uuid) : Option Uuid :=
  (t.associationsOf session).findSome? fun row =>
    if row.kind = .equipment && row.state = .confirmed then row.subjectId else none

def countsTarget (row : AssociationRow P) : Bool :=
  row.kind = .target && row.subjectId.isSome && countsAsConfirmed row.state row.evidence

/-- The session's intake facts; `frames` counts its unreviewed and changed live captures. -/
def readIntake (frames : Result (Nat × Nat)) (session : Uuid) : Result SessionIntake := do
  let row ← Result.orElse (t.sessions.find? session) (.notFound ("session " ++ session.hyphenated))
  let (unreviewed, changed) ← frames
  return {
    sessionId := session
    groupingRevision := row.groupingRevision
    superseded := row.supersededBy.isSome
    targetConfirmed := (t.associationsOf session).any countsTarget
    rigId := t.confirmedEquipment session
    reviewFinished := (t.reviews.find? session).map (·.groupingRevision) = some row.groupingRevision
    unreviewedFrames := unreviewed
    changedFrames := changed }

/-- The session's calibration record; one without reads every kind unresolved at generation 0. -/
def readCalibration (session : Uuid) : SessionCalibration :=
  match t.calibrations.find? session with
  | none => .unresolved session
  | some record =>
    (t.kinds.rows.filter (·.sessionId = session)).foldl
      (fun calibration row => calibration.setKind row.kind row.pin)
      { SessionCalibration.unresolved session with
        generation := record.generation, matchingPending := record.matchingPending }

def requireAdmission (frames : Result (Nat × Nat)) (project group session : Uuid)
    (expected : Option AdmissionBasis) : Result AdmissionBasis := do
  let projectRow ← Result.orElse (t.projects.find? project)
    (.notFound ("project " ++ project.hyphenated))
  let groupRow ← Result.orElse ((t.groups.find? group).filter (·.projectId = project))
    (.notFound ("group " ++ group.hyphenated ++ " of project " ++ project.hyphenated))
  let intake ← t.readIntake frames session
  let calibration := t.readCalibration session
  if intake.superseded then
    .error (.conflict session intake.groupingRevision
      (((t.sessions.find? session).bind (·.supersededBy)).elim [] t.successors))
  else
    match admitSession projectRow.lifecycle groupRow.rigId intake calibration with
    | .error refusal => .error (.invalidInput refusal.display)
    | .ok basis =>
      match expected.filter (· ≠ basis) with
      | some seen =>
        .error (.conflict session (if seen.groupingRevision = basis.groupingRevision then
          basis.calibrationGeneration else basis.groupingRevision))
      | none => return basis

/-! ## Triggers -/

def predecessorHeld (new : MemberRow) : Bool :=
  t.lineage.any fun successor => successor.sessionId = new.sessionId && successor.role = .successor &&
    t.lineage.any fun predecessor => predecessor.lineageId = successor.lineageId &&
      predecessor.role = .predecessor &&
      t.members.rows.any fun held => held.sessionId = predecessor.sessionId &&
        held.projectId = new.projectId

def superseded (new : MemberRow) : Bool :=
  ((t.sessions.find? new.sessionId).bind (·.supersededBy)).isSome

def equipmentConfirmed (row : AssociationRow P) : Bool :=
  row.kind = .equipment && stateText row.state = "confirmed".toList

def notReady (new : MemberRow) : Bool :=
  !t.predecessorHeld new &&
    (!(t.associationsOf new.sessionId).any (fun row => row.kind = .target && row.targetId.isSome &&
        sqlCounts (stateText row.state) (row.evidence.map evidenceJson)) ||
      !(t.associationsOf new.sessionId).any equipmentConfirmed ||
      !t.reviews.rows.any (fun review => review.sessionId = new.sessionId &&
        t.sessions.rows.any fun row => row.id = review.sessionId &&
          review.groupingRevision = row.groupingRevision))

def otherRig (new : MemberRow) : Bool :=
  (t.associationsOf new.sessionId).any equipmentConfirmed &&
    !(t.associationsOf new.sessionId).any fun row => equipmentConfirmed row &&
      t.groups.rows.any fun group => some group.rigId = row.equipmentId && group.id = new.groupId

def unsettled (new : MemberRow) : Bool :=
  !t.predecessorHeld new &&
    (t.kinds.rows.filter fun row => row.sessionId = new.sessionId && settledState row.state).length < 3

def staleBasis (new : MemberRow) : Bool :=
  (t.sessions.find? new.sessionId).map (·.groupingRevision) ≠ some new.basis.groupingRevision ||
    (t.calibrations.find? new.sessionId).map (·.generation) ≠ some new.basis.calibrationGeneration

def locked (new : MemberRow) : Bool :=
  (t.projects.find? new.projectId).map (·.lifecycle) ≠ some .open

/-- The triggers of an insert with the messages they abort with. -/
def triggers (new : MemberRow) : List (Bool × String) :=
  [(t.superseded new, "a superseded session never joins a Project; add its successor"),
    (t.notReady new, "only a Ready session joins a Project"),
    (t.otherRig new, "a session joins a group on its own rig"),
    (t.unsettled new, "only a session with settled calibration joins a Project"),
    (t.staleBasis new, "the admission basis is stale; review the session again"),
    (t.locked new, "a Closed Project is locked")]

def checks (new : MemberRow) : Bool :=
  0 < new.basis.calibrationGeneration && (t.projects.find? new.projectId).isSome &&
    (t.sessions.find? new.sessionId).isSome && t.targets.contains new.targetId &&
    t.groups.rows.any fun group => group.id = new.groupId && group.projectId = new.projectId

/-- Insert a held session, unless a trigger, a check or its key refuses the row. -/
def insertMember (new : MemberRow) : Result (Tables P) :=
  match (t.triggers new).find? (·.1) with
  | some (_, message) => .error (.persistenceFailure message)
  | none =>
    if t.checks new then
      match t.members.insert? new with
      | some members => .ok { t with members }
      | none => .error (.persistenceFailure "UNIQUE constraint failed: project_sessions")
    else .error (.persistenceFailure "CHECK or FOREIGN KEY constraint failed: project_sessions")

end Tables

end PlateVault.Admission
