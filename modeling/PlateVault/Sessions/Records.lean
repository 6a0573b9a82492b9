import PlateVault.Grouping.Regroup
import PlateVault.Library.Calls

/-!
# Session records

Sessions with their members, the lineages regroups leave, and what each session is associated with.
An asset's `session_id` column is kept beside the sessions. A set is the list of its elements, a map
of JSON the list of its entries, both ascending; sessions are looked up by id.
-/

namespace PlateVault

section Framing

variable {P : Platform}

def requireAngle (field : String) (value : P.F64) : Result Unit :=
  Result.require (P.isFinite value && Platform.le (P.literal 0) value &&
      Platform.lt value (P.literal 180))
    (.invalidField field (field ++ " " ++ String.ofList (P.display value) ++
      " must be an angle in [0, 180) degrees"))

/-- `SplitLimits::validate`. -/
def SplitLimits.validate (limits : SplitLimits P) : Result Unit := do
  let centre := limits.maxCentreOffsetArcmin
  Result.require (P.isFinite centre && Platform.lt (P.literal 0) centre &&
      Platform.lt centre (P.literal 10800))
    (.invalidField "maxCentreOffsetArcmin" ("maxCentreOffsetArcmin " ++
      String.ofList (P.display centre) ++ " must be an angle in (0, 10800) arcminutes"))
  requireAngle "maxRotationDeg" limits.maxRotationDeg

def requireTurn (field : String) (angle : Option P.F64) : Result Unit :=
  match angle with
  | some value => Result.require (P.isFinite value && Platform.le (P.literal 0) value &&
        Platform.lt value (P.literal 360))
      (.invalidInput ("framing " ++ field ++ " " ++ String.ofList (P.display value) ++
        " must be in [0, 360)"))
  | none => .ok ()

/-- `SessionFraming::validate`. -/
def SessionFraming.validate (framing : SessionFraming P) : Result Unit := do
  Result.require (framing.ordinal ≠ 0) (.invalidInput "a framing ordinal starts at 1")
  requireTurn "raDeg" (some framing.raDeg)
  let dec := framing.decDeg
  Result.require (P.isFinite dec && Platform.le (P.literal (-90)) dec &&
      Platform.le dec (P.literal 90))
    (.invalidInput ("framing decDeg " ++ String.ofList (P.display dec) ++ " must be in [-90, 90]"))
  requireTurn "rotatorDeg" framing.rotatorDeg
  requireTurn "skyAngleDeg" framing.skyAngleDeg
  let positive := fun value => P.isFinite value && Platform.lt (P.literal 0) value
  Result.require (framing.field.all fun field =>
      positive field.widthDeg && positive field.heightDeg)
    (.invalidInput "a framing field must be positive")
  Result.require (framing.label.all fun label => !(trim label).isEmpty)
    (.invalidInput "a framing label is not blank")
  framing.splitLimits.validate

end Framing

namespace Library

/-! ## Associations -/

inductive AssociationKind
  | target
  | equipment
  deriving DecidableEq, Repr

def kindText : AssociationKind → Text
  | .target => "target".toList
  | .equipment => "equipment".toList

inductive AssociationState
  | unresolved
  | suggested
  | needsReview
  | confirmed
  deriving DecidableEq, Repr

inductive Provenance
  | seed (dataset : Text)
  | user
  | provider (name : Text) (id : Option Text)
  | observed (fields : List Text)
  | inferred (rule : Text)
  deriving DecidableEq, Repr

inductive EvidenceItem (P : Platform)
  | alias (normalized : Text) (agrees : Bool)
  | coordinates (raDeg decDeg : P.F64) (qualified : Bool)
  | footprint (overlap : P.F64) (qualified : Bool)
  | header (field value : Text)
  | unknown (field : Text)
  | conflict (field : Text) (values : List Text)

/-- A row of `associations`. -/
structure Association (P : Platform) where
  sessionId : Uuid
  kind : AssociationKind
  subjectId : Option Uuid
  state : AssociationState
  evidence : List (EvidenceItem P)
  provenance : Provenance
  observationBasis : List (Uuid × ObservationFingerprint)
  decisionRevision : Nat

def inheritanceRule : Text := "regroup-confirmation-inheritance".toList
def assessmentConflictRule : Text := "assessment-conflict".toList

/-- A regroup conflict between user confirmations, waiting for the user's review. -/
def pendingInheritance {P : Platform} (association : Association P) : Bool :=
  association.state = .needsReview && association.provenance = .inferred inheritanceRule

def userOwned {P : Platform} (association : Association P) : Bool :=
  association.state = .confirmed || pendingInheritance association

/-! ## Sessions -/

/-- A row of `sessions`; `supersededBy` is the lineage's position. -/
structure SessionRow (P : Platform) where
  id : Uuid
  key : Text
  groupingRevision : Nat
  decisionRevision : Nat
  provisional : List Text
  dateBasis : Option Text
  framing : Option (SessionFraming P)
  supersededBy : Option Nat

inductive Cause
  | correction (id : Uuid)
  | scan (id : Uuid)
  deriving DecidableEq, Repr

def Cause.id : Cause → Uuid
  | .correction id => id
  | .scan id => id

structure SessionLineage where
  correctionId : Uuid
  predecessors : List Uuid
  successors : List Uuid
  movedAssets : List Uuid
  groupingRevision : Nat
  deriving DecidableEq, Repr

/-- A row of `session_lineage`. -/
structure LineageRow where
  cause : Cause
  lineage : SessionLineage
  deriving DecidableEq, Repr

/-- The session tables; `members` is `session_members`, `sessionOf` the assets' `session_id`. -/
structure Sessions (P : Platform) where
  rows : Table Uuid (SessionRow P) SessionRow.id
  members : List (Uuid × Uuid)
  sessionOf : Uuid → Option Uuid
  lineages : List LineageRow
  associations : Uuid → AssociationKind → Option (Association P)
  groupingRevision : Nat

structure Vault (P : Platform) (R : Reader) where
  catalog : Catalog R
  sessions : Sessions P

variable {P : Platform} {R : Reader}

namespace Sessions

def empty : Sessions P where
  rows := .empty
  members := []
  sessionOf := fun _ => none
  lineages := []
  associations := fun _ _ => none
  groupingRevision := 0

/-! ## Reads -/

def loadSessionRow (s : Sessions P) (id : Uuid) : Result (SessionRow P) :=
  Result.orElse (s.rows.find? id) (.notFound s!"session {id.hyphenated}")

/-- `session_members` of a session: the assets it was ever given. -/
def membersOf (s : Sessions P) (id : Uuid) : List Uuid :=
  (s.members.filter fun pair => pair.1 = id).map Prod.snd

/-- `current_session_of`: the current sessions of these assets. -/
def currentSessionOf (s : Sessions P) (ids : List Uuid) (asset : Uuid) : Option Uuid :=
  if asset ∈ ids then s.sessionOf asset else none

/-- The distinct values of `current_session_of`. -/
def currentSessions (s : Sessions P) (ids : List Uuid) : List Uuid :=
  Ordered.ascending (ids.filterMap s.sessionOf)

def loadAssociations (s : Sessions P) (session : Uuid) : List (Association P) :=
  [AssociationKind.equipment, .target].filterMap (s.associations session)

def lineageSuccessors (s : Sessions P) (lineage : Nat) : List Uuid :=
  (s.lineages[lineage]?).elim [] (·.lineage.successors)

/-! ## Writes -/

def updateRow (s : Sessions P) (id : Uuid) (f : SessionRow P → SessionRow P)
    (hid : ∀ row, (f row).id = row.id := by intro; rfl) : Sessions P :=
  { s with rows := s.rows.modify id f hid }

def upsertAssociation (s : Sessions P) (association : Association P) : Sessions P :=
  { s with
    associations := fun session kind =>
      if session = association.sessionId ∧ kind = association.kind then some association
      else s.associations session kind }

def attachMember (s : Sessions P) (session asset : Uuid) : Sessions P :=
  { s with
    members := if s.members.contains (session, asset) then s.members
      else s.members ++ [(session, asset)]
    sessionOf := fun id => if id = asset then some session else s.sessionOf id }

def attachMembers (s : Sessions P) (session : Uuid) (assets : List Uuid) : Sessions P :=
  assets.foldl (·.attachMember session) s

end Sessions

namespace Vault

def empty : Vault P R where
  catalog := .empty
  sessions := .empty

/-- `current_members`: the assets whose row names the session. -/
def currentMembers (v : Vault P R) (session : Uuid) : List Uuid :=
  Ordered.ascending
    ((v.catalog.assets.rows.map Asset.id).filter fun id => v.sessions.sessionOf id = some session)

/-- `current_member_assets`: its live members. -/
def currentMemberAssets (v : Vault P R) (session : Uuid) : List (Asset R) :=
  (Ordered.sortBy Asset.id (v.catalog.assets.rows.filter fun a =>
    a.live && v.sessions.sessionOf a.id = some session)).map v.catalog.fromRow

def absorbing (v : Vault P R) (session : Uuid) : Bool :=
  v.catalog.assets.rows.any fun a =>
    v.sessions.sessionOf a.id = some session && v.catalog.activeLocation a.locationId

/-- Current sessions with this capture key that can still absorb new assets. -/
def currentSessionsWithKey (v : Vault P R) (key : Text) : List Uuid :=
  (v.sessions.rows.rows.filter fun row =>
    row.key = key && row.supersededBy.isNone && v.absorbing row.id).map SessionRow.id

end Vault

/-- `load_assets`: all of these rows, by id. -/
def Catalog.loadAssets (c : Catalog R) (ids : List Uuid) : Result (List (Asset R)) := do
  let rows := (Ordered.sortBy Asset.id (c.assets.rows.filter fun a => a.id ∈ ids)).map c.fromRow
  Result.require (rows.length = ids.length) (.notFound "one or more assets")
  return rows

end Library

end PlateVault
