import PlateVault.Sessions.Regroup

/-!
# Calls on the catalog and its sessions

A scan batch, a scan's finish and a correction regroup what they changed inside their transaction;
the others leave the sessions' members alone. Confirmations and assessments write associations.
-/

namespace PlateVault.Library

variable {P : Platform} {R : Reader}

structure ExpectedSession where
  sessionId : Uuid
  groupingRevision : Nat
  decisionRevision : Nat
  deriving DecidableEq, Repr

/-- Automatic association evidence; never a confirmation. The expectations are of the assets it was
assessed against, by id. -/
structure SuggestedAssociation (P : Platform) where
  sessionId : Uuid
  groupingRevision : Nat
  kind : AssociationKind
  subjectId : Option Uuid
  state : AssociationState
  evidence : List (EvidenceItem P)
  provenance : Provenance
  expectedObservations : List (Uuid × ObservationFingerprint)
  expectedDecisions : List (Uuid × Nat)
  expectedObservationRevisions : List (Uuid × Nat)

namespace Vault

/-! ## Associations -/

/-- Inferred associations of the current sessions holding changed assets need a review. -/
def invalidated (association : Association P) : Association P :=
  if association.state = .confirmed ∨ association.state = .needsReview then association
  else { association with state := .needsReview }

/-- `invalidate_inferences`. -/
def invalidateInferences (v : Vault P R) (changed : List Uuid) : Vault P R :=
  let sessions := v.sessions.currentSessions changed
  { v with
    sessions := { v.sessions with
      associations := fun session kind =>
        if session ∈ sessions then (v.sessions.associations session kind).map invalidated
        else v.sessions.associations session kind } }

def reboundEntry (rebound : Uuid → Option (ObservationFingerprint × ObservationFingerprint))
    (entry : Uuid × ObservationFingerprint) : Uuid × ObservationFingerprint :=
  match rebound entry.1 with
  | some (old, new) => (entry.1, if fingerprintMatches old entry.2 then new else entry.2)
  | none => entry

/-- `rebind_association_bases` of the assets whose record moved or was remapped. -/
def rebindAssociationBases (v : Vault P R) (ids : List Uuid)
    (rebound : Uuid → Option (ObservationFingerprint × ObservationFingerprint)) : Vault P R :=
  let sessions := v.sessions.currentSessions ids
  { v with
    sessions := { v.sessions with
      associations := fun session kind =>
        if session ∈ sessions then (v.sessions.associations session kind).map fun association =>
          { association with
            observationBasis := association.observationBasis.map (reboundEntry rebound) }
        else v.sessions.associations session kind } }

def memberBasis (v : Vault P R) (session : Uuid) : List (Uuid × ObservationFingerprint) :=
  (v.currentMemberAssets session).map fun asset => (asset.id, asset.fingerprint)

def checkExpectedSession (v : Vault P R) (item : ExpectedSession) : Result (SessionRow P) := do
  let row ← v.sessions.loadSessionRow item.sessionId
  match row.supersededBy with
  | some lineage =>
    .error (.conflict item.sessionId row.groupingRevision (v.sessions.lineageSuccessors lineage))
  | none =>
    Result.require (row.groupingRevision = item.groupingRevision &&
        row.decisionRevision = item.decisionRevision)
      (.conflict item.sessionId row.decisionRevision)
    return row

def checkExpectedSessions (v : Vault P R) (expected : List ExpectedSession) :
    Result (List (SessionRow P)) := do
  Result.require (!expected.isEmpty && (expected.map (·.sessionId)).Nodup)
    (.invalidInput "expected sessions must be unique and non-empty")
  expected.mapM v.checkExpectedSession

/-- `confirm_one`; recording a rig version and matching calibration again are `recorded`. -/
def confirmOne (v : Vault P R) (row : SessionRow P) (kind : AssociationKind) (subject : Uuid)
    (recorded : Uuid → Result Unit) : Result (Vault P R) := do
  let decisionRevision := row.decisionRevision + 1
  let prior := (v.sessions.associations row.id kind).filter (·.subjectId = some subject)
  let sessions := v.sessions.upsertAssociation {
    sessionId := row.id, kind, subjectId := some subject, state := .confirmed
    evidence := prior.elim [] Association.evidence
    provenance := .user
    observationBasis := v.memberBasis row.id
    decisionRevision }
  if kind = .equipment then recorded row.id
  return { v with
    sessions := sessions.updateRow row.id fun row => { row with decisionRevision } }

def confirmEach (v : Vault P R) (kind : AssociationKind) (subject : Uuid)
    (recorded : Uuid → Result Unit) : List (SessionRow P) → Result (Vault P R)
  | [] => .ok v
  | row :: rows => do
    let v ← v.confirmOne row kind subject recorded
    v.confirmEach kind subject recorded rows

/-- `confirm_association`; `found` is whether the subject exists. -/
def confirmAssociation (v : Vault P R) (expected : List ExpectedSession) (kind : AssociationKind)
    (subject : Uuid) (found : Result Unit) (recorded : Uuid → Result Unit) :
    Result (Vault P R) := do
  found
  let rows ← v.checkExpectedSessions expected
  v.confirmEach kind subject recorded rows

/-- The suggestion names exactly the current members with their current observation, observation
sequence and decision revision. -/
def assessedCurrent (item : SuggestedAssociation P) (members : List (Asset R)) : Bool :=
  members.length = item.expectedObservations.length &&
    members.length = item.expectedDecisions.length &&
    members.length = item.expectedObservationRevisions.length &&
    members.all fun asset =>
      (item.expectedObservations.lookup asset.id).any (fingerprintMatches asset.fingerprint ·) &&
        item.expectedDecisions.lookup asset.id = some asset.decisionRevision &&
        item.expectedObservationRevisions.lookup asset.id = some asset.observationRevision

def recordSuggestion (v : Vault P R) (item : SuggestedAssociation P)
    (found : Uuid → Result Unit) : Result (Vault P R) := do
  let row ← v.sessions.loadSessionRow item.sessionId
  match row.supersededBy with
  | some lineage =>
    .error (.conflict item.sessionId row.groupingRevision (v.sessions.lineageSuccessors lineage))
  | none =>
    Result.require (row.groupingRevision = item.groupingRevision)
      (.conflict item.sessionId row.groupingRevision)
    let members := v.currentMemberAssets item.sessionId
    Result.require (assessedCurrent item members) (.conflict item.sessionId row.groupingRevision)
    item.subjectId.elim (.ok ()) found
    if (v.sessions.associations item.sessionId item.kind).any userOwned then return v
    else return { v with
      sessions := v.sessions.upsertAssociation {
        sessionId := item.sessionId, kind := item.kind, subjectId := item.subjectId
        state := item.state, evidence := item.evidence, provenance := item.provenance
        observationBasis := v.memberBasis item.sessionId
        decisionRevision := row.decisionRevision } }

def recordEach (v : Vault P R) (found : Uuid → Result Unit) :
    List (SuggestedAssociation P) → Result (Vault P R)
  | [] => .ok v
  | item :: items => do
    let v ← v.recordSuggestion item found
    v.recordEach found items

/-- `record_suggestions`; `found` is whether a subject exists. -/
def recordSuggestions (v : Vault P R) (suggestions : List (SuggestedAssociation P))
    (found : Uuid → Result Unit) : Result (Vault P R) := do
  Result.require (!suggestions.any (·.state = .confirmed))
    (.invalidInput "suggestions cannot confirm; use the explicit confirmation commands")
  v.recordEach found suggestions

/-- `mark_assessment_conflict`. -/
def markAssessmentConflict (v : Vault P R) (session : Uuid) : Result (Vault P R) := do
  let row ← v.sessions.loadSessionRow session
  if row.supersededBy.isSome || (v.sessions.associations session .target).any userOwned then
    return v
  else return { v with
    sessions := v.sessions.upsertAssociation {
      sessionId := session, kind := .target, subjectId := none, state := .needsReview
      evidence := [.unknown
        "target assessment conflicted with concurrent changes; rescan".toList]
      provenance := .inferred assessmentConflictRule
      observationBasis := v.memberBasis session
      decisionRevision := row.decisionRevision } }

end Vault

/-! ## Calls that regroup -/

/-- A transaction on the catalog as far as its regroup, with the writes that follow it, or one that
regroups nothing. -/
inductive Halfway (R : Reader)
  | regroups (catalog : Catalog R) (changed : BatchChanges) (cause : Cause)
      (rest : Catalog R → Result (Catalog R))
  | settled (catalog : Catalog R)

namespace Catalog

/-- `apply_scan_batch`: a root mismatch commits only the downgrade. -/
def halfBatch (c reader : Catalog R) (operationId : Uuid) (rootIdentity : FileIdentity)
    (batch : ScanBatch R) (opened : RelPath → Result Reading) (ids : RelPath → Uuid) (now : Nat) :
    Result (Halfway R) := do
  let digests ← reader.digestsBefore operationId opened batch.files
  let op ← c.loadOperationRow operationId
  requireRunning op
  let location ← c.loadLocation op.locationId
  match verifyRoot location op rootIdentity with
  | .error error => return .settled (c.downgrade op location error)
  | .ok () =>
    let (c, changed) ← (c.armVerification op).observeBatch op location batch.files batch.issues
      digests ids now
    return .regroups c changed (.scan op.id) fun c => .ok (c.markLocationObserved location.id)

/-- `finish_scan` with `finish_verified`. -/
def halfFinish (c reader : Catalog R) (operationId : Uuid) (observation : ScanObservation R)
    (rootCheck : Location → Result FileIdentity) (opened : RelPath → Result Reading)
    (ids : RelPath → Uuid) (now : Nat) : Result (Halfway R) := do
  Result.require (observation.state ≠ .running)
    (.invalidInput "final observation must be terminal")
  let files := reader.unappliedFiles operationId observation.files
  let issues := reader.unappliedIssues operationId observation.issues
  let digests ← reader.digestsBefore operationId opened files
  let op ← c.loadOperationRow operationId
  requireRunning op
  Result.require (observation.locationId = op.locationId)
    (.invalidInput "observation belongs to another location")
  let location ← c.loadLocation op.locationId
  match verifyFinish location op observation (rootCheck location) with
  | .error error =>
    let c ← (c.downgrade op location error).finishUnverified op observation
    return .settled c
  | .ok proven =>
    let (c, changed) ← (c.armVerification op).observeBatch op location files issues digests ids now
    return .regroups c changed (.scan op.id) fun c => do
      let c := c.markLocationObserved location.id
      let op ← c.loadOperationRow op.id
      c.finishObserved op observation proven

/-- A call on the catalog; `correct_in_txn` regroups what it corrected. -/
def half (c : Catalog R) (correctionId : Uuid) : Call R → Result (Halfway R)
  | .applyScanBatch reader operationId rootIdentity batch opened ids now =>
    c.halfBatch reader operationId rootIdentity batch opened ids now
  | .finishScan reader operationId observation rootCheck opened ids now =>
    c.halfFinish reader operationId observation rootCheck opened ids now
  | .correct expected corrections => do
    let (c, changed) ← c.correctInTxn expected corrections
    return .regroups c ⟨changed, changed⟩ (.correction correctionId) .ok
  | call => do
    let c ← c.perform call
    return .settled c

end Catalog

namespace Vault

/-- Regroup what a call changed, and review what was inferred from evidence it replaced. -/
def regrouped (v : Vault P R) (changed : BatchChanges) (given : Regrouping P R) (cause : Cause) :
    Result (Vault P R) := do
  let (v, _) ← v.regroup (Ordered.ascending changed.regroup) given cause
  return v.invalidateInferences (Ordered.ascending changed.evidence)

def completed (v : Vault P R) (given : Regrouping P R) : Halfway R → Result (Vault P R)
  | .settled catalog => .ok { v with catalog }
  | .regroups catalog changed cause rest => do
    let v ← { v with catalog }.regrouped changed given cause
    let catalog ← rest v.catalog
    return { v with catalog }

/-- What a remap rebinds: each reviewed asset's observation as the transaction found it. -/
def remapRebinds (c : Catalog R) (review : RemapReview) (id : Uuid) :
    Option (ObservationFingerprint × ObservationFingerprint) := do
  let item ← review.items.reverse.find? (·.assetId = id)
  let asset ← (c.locationAssets review.locationId).find? (·.id = id)
  return (asset.fingerprint, item.candidateFingerprint)

/-- The bases `apply_remap` and `move_asset_record` rebind beside the rows they change. -/
def rebinds (v : Vault P R) (c : Catalog R) (call : Call R) : Vault P R :=
  match call with
  | .applyRemap reader reviewId _ _ _ _ =>
    match reader.remapReviews.find? reviewId with
    | some review =>
      v.rebindAssociationBases (review.items.map RemapItem.assetId) (remapRebinds c review)
    | none => v
  | .moveAssetRecord record _ =>
    v.rebindAssociationBases [record.assetId] fun id =>
      if id = record.assetId then
        (c.assets.find? id).map fun asset => (asset.fingerprint, record.toFingerprint)
      else none
  | _ => v

end Vault

/-! ## Calls -/

/-- One committed transaction: a call on the catalog with what its regroup is given, or a write of
associations. -/
inductive VaultCall (P : Platform) (R : Reader)
  | catalog (call : Call R) (correctionId : Uuid) (given : Regrouping P R)
  | confirm (expected : List ExpectedSession) (kind : AssociationKind) (subject : Uuid)
      (found : Result Unit) (recorded : Uuid → Result Unit)
  | suggest (suggestions : List (SuggestedAssociation P)) (found : Uuid → Result Unit)
  | markConflict (session : Uuid)

namespace Vault

def perform (v : Vault P R) : VaultCall P R → Result (Vault P R)
  | .catalog call correctionId given => do
    let half ← v.catalog.half correctionId call
    let v' ← v.completed given half
    return v'.rebinds v.catalog call
  | .confirm expected kind subject found recorded =>
    v.confirmAssociation expected kind subject found recorded
  | .suggest suggestions found => v.recordSuggestions suggestions found
  | .markConflict session => v.markAssessmentConflict session

def Step (v : Vault P R) (call : VaultCall P R) (v' : Vault P R) : Prop := v.perform call = .ok v'

end Vault

end PlateVault.Library
