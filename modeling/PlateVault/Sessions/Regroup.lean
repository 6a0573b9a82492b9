import PlateVault.Sessions.Records

/-!
# Regrouping the catalog

A regroup groups the assets that changed by themselves, takes in the sessions they were in and those
of the keys they now have, and groups all of these sessions' assets again. What the grouping returns
becomes a plan: sessions kept, created and superseded. The grouping is a function of the assets and
the standing sessions; new ids come from outside, and the effects on rigs, calibration and Projects
either fail or succeed.
-/

namespace PlateVault.Library

variable {P : Platform} {R : Reader}

/-- The capture grouping a regroup runs inside its transaction. -/
abbrev Grouping (P : Platform) (R : Reader) :=
  List (Asset R) → List (StandingSession P) → List (SessionCandidate P)

/-- What a regroup calls beside the session tables: a new session's rig version and calibration
record, calibration matched again, and the Projects that hold a replaced session. -/
structure Effects where
  recordNewSession : Uuid → Result Unit
  calibrationArrived : Result Unit
  carryRegrouped : SessionLineage → Result Unit

/-! ## What the grouping returned -/

/-- Each id is expected, and none comes twice; the ids seen so far. -/
def checkIds (expected seen : List Uuid) : List Uuid → Result (List Uuid)
  | [] => .ok seen
  | id :: ids => do
    Result.require (expected.contains id && !seen.contains id)
      (.invalidInput ("grouping returned asset " ++ id.hyphenated ++ " outside its input or twice"))
    checkIds expected (id :: seen) ids

def checkAnchor (candidate : SessionCandidate P) : Result Unit :=
  match candidate.framing with
  | some framing => do
    framing.validate
    Result.require (candidate.assetIds.contains framing.anchorAssetId)
      (.invalidInput ("grouping anchored a framing at asset " ++ framing.anchorAssetId.hyphenated ++
        " outside its session"))
  | none => .ok ()

def checkCandidates (expected seen : List Uuid) :
    List (SessionCandidate P) → Result (List Uuid)
  | [] => .ok seen
  | candidate :: candidates => do
    Result.require (!candidate.key.isEmpty && !candidate.assetIds.isEmpty)
      (.invalidInput "grouping returned an empty session")
    checkAnchor candidate
    let seen ← checkIds expected seen candidate.assetIds
    checkCandidates expected seen candidates

/-- Every input asset must belong to exactly one candidate and nothing else, and a candidate's
framing is anchored at one of its own assets. -/
def checkedGrouping (result : List (SessionCandidate P)) (expected : List Uuid) :
    Result (List (SessionCandidate P)) := do
  let seen ← checkCandidates expected [] result
  Result.require (seen.length = expected.length) (.invalidInput "grouping omitted input assets")
  return result

/-! ## The plan -/

structure PriorSession (P : Platform) where
  id : Uuid
  key : Text
  members : List Uuid
  framing : Option (SessionFraming P)

/-- A session that keeps its id, with the candidate it becomes and the assets it gains. -/
structure KeptSession (P : Platform) where
  id : Uuid
  candidate : SessionCandidate P
  added : List Uuid

structure GroupPlan (P : Platform) where
  kept : List (KeptSession P)
  created : List (SessionCandidate P)
  superseded : List Uuid

def candidateMembers (candidate : SessionCandidate P) : List Uuid :=
  Ordered.ascending candidate.assetIds

/-- The prior session a candidate continues: of its key, not kept yet, all of its members among the
candidate's, and the rest of these in no session. -/
def keeper (prior : List (PriorSession P)) (oldSessionOf : Uuid → Option Uuid) (kept : List Uuid)
    (candidate : SessionCandidate P) : Option (PriorSession P) :=
  prior.find? fun session =>
    !kept.contains session.id && session.key = candidate.key && !session.members.isEmpty &&
      session.members.all (candidateMembers candidate).contains &&
      (candidateMembers candidate).all fun asset =>
        session.members.contains asset || (oldSessionOf asset).isNone

def planCandidates (prior : List (PriorSession P)) (oldSessionOf : Uuid → Option Uuid)
    (plan : GroupPlan P) : List (SessionCandidate P) → GroupPlan P
  | [] => plan
  | candidate :: candidates =>
    planCandidates prior oldSessionOf
      (match keeper prior oldSessionOf (plan.kept.map KeptSession.id) candidate with
        | some session =>
          { plan with
            kept := plan.kept ++ [{
              id := session.id, candidate
              added := (candidateMembers candidate).filter (!session.members.contains ·) }] }
        | none => { plan with created := plan.created ++ [candidate] })
      candidates

/-- Keep a session id only when identical capture evidence adds previously ungrouped assets; every
other membership change creates successor records. -/
def planGrouping (prior : List (PriorSession P)) (oldSessionOf : Uuid → Option Uuid)
    (result : List (SessionCandidate P)) : GroupPlan P :=
  let plan := planCandidates prior oldSessionOf ⟨[], [], []⟩ result
  { plan with
    superseded := (prior.map PriorSession.id).filter
      (!(plan.kept.map KeptSession.id).contains ·) }

/-- An asset moved when its capture key or its framing's anchor changed. -/
def movedBy (prior : PriorSession P) (candidate : SessionCandidate P) : Bool :=
  prior.key ≠ candidate.key ||
    prior.framing.map SessionFraming.anchorAssetId ≠
      candidate.framing.map SessionFraming.anchorAssetId

/-! ## What a new session inherits -/

/-- The associations of the superseded sessions, by session and kind. -/
abbrev AssociationIndex (P : Platform) := Uuid → AssociationKind → Option (Association P)

/-- The text of a confirmed subject among inherited values. -/
def subjectText (association : Association P) : Text :=
  match association.subjectId with
  | some id => id.hyphenated.toList
  | none => "none".toList

def conflictValues (association : Association P) : List Text :=
  association.evidence.flatMap fun item =>
    match item with
    | .conflict _ values => values
    | _ => []

structure Inheriting (P : Platform) where
  first : Option (Association P)
  shared : Bool
  userDecided : Bool
  values : List Text

/-- One asset's share: what its session before was associated with. -/
def Inheriting.take (inheriting : Inheriting P) (prior : Option (Association P)) : Inheriting P :=
  match prior with
  | some association =>
    if association.state = .confirmed then
      let first := inheriting.first.getD association
      { first := some first
        shared := inheriting.shared && association.subjectId = first.subjectId
        userDecided := true
        values := subjectText association :: inheriting.values }
    else if pendingInheritance association then
      -- a conflict still waiting for the user's review is carried forward with its values
      { inheriting with
        shared := false
        userDecided := true
        values := conflictValues association ++ inheriting.values }
    else { inheriting with shared := false, values := "unconfirmed".toList :: inheriting.values }
  | none => { inheriting with shared := false, values := "unconfirmed".toList :: inheriting.values }

/-- The association of a new session: a confirmation only when every asset shared it. -/
def inherited (session : Uuid) (members : List Uuid) (index : AssociationIndex P)
    (oldSessionOf : Uuid → Option Uuid) (basis : List (Uuid × ObservationFingerprint))
    (kind : AssociationKind) : Option (Association P) :=
  let priors := members.map fun asset => (oldSessionOf asset).bind (index · kind)
  let inheriting := priors.foldl Inheriting.take ⟨none, true, false, []⟩
  if !inheriting.userDecided then none
  else if inheriting.shared then
    inheriting.first.map fun first =>
      { first with sessionId := session, observationBasis := basis, decisionRevision := 0 }
  else some {
    sessionId := session
    kind
    subjectId := none
    state := .needsReview
    evidence := [.conflict (kindText kind) (Ordered.ascending inheriting.values)]
    provenance := .inferred inheritanceRule
    observationBasis := basis
    decisionRevision := 0 }

/-! ## Committing a plan -/

structure GroupContext (P : Platform) (R : Reader) where
  prior : List (PriorSession P)
  oldSessionOf : Uuid → Option Uuid
  assets : List (Asset R)

def GroupContext.basis (context : GroupContext P R) (members : List Uuid) :
    List (Uuid × ObservationFingerprint) :=
  (context.assets.filter fun asset => members.contains asset.id).map fun asset =>
    (asset.id, asset.fingerprint)

/-- The associations of these sessions, as the plan's commit finds them. -/
def associationsOf (s : Sessions P) (sessions : List Uuid) : AssociationIndex P :=
  fun session kind => if session ∈ sessions then s.associations session kind else none

namespace Sessions

def insertSession (s : Sessions P) (id : Uuid) (candidate : SessionCandidate P)
    (groupingRevision : Nat) : Result (Sessions P) := do
  let rows ← Result.orElse (s.rows.insert?
      { id, key := candidate.key, groupingRevision, decisionRevision := 0
        provisional := candidate.provisional, dateBasis := candidate.dateBasis
        framing := candidate.framing, supersededBy := none })
    (.persistenceFailure "UNIQUE constraint failed: sessions.id")
  return { s with rows }

/-- What a kept session takes from its candidate: an earlier framing moves its ordinal on. -/
def refreshKept (s : Sessions P) (kept : List (KeptSession P)) : Sessions P :=
  kept.foldl (fun s kept => s.updateRow kept.id fun row => { row with
    provisional := kept.candidate.provisional
    dateBasis := kept.candidate.dateBasis
    framing := kept.candidate.framing }) s

def upsertAssociations (s : Sessions P) (associations : List (Association P)) : Sessions P :=
  associations.foldl upsertAssociation s

/-- One new session: its row, its members and what it inherits. -/
def createSession (s : Sessions P) (context : GroupContext P R) (index : AssociationIndex P)
    (effects : Effects) (groupingRevision : Nat) (id : Uuid) (candidate : SessionCandidate P) :
    Result (Sessions P) := do
  let members := candidateMembers candidate
  let s ← s.insertSession id candidate groupingRevision
  let s := (s.attachMembers id members).upsertAssociations
    ([AssociationKind.target, .equipment].filterMap
      (inherited id members index context.oldSessionOf (context.basis members)))
  effects.recordNewSession id
  return s

def createSessions (s : Sessions P) (context : GroupContext P R) (index : AssociationIndex P)
    (effects : Effects) (groupingRevision : Nat) :
    List (Uuid × SessionCandidate P) → Result (Sessions P)
  | [] => .ok s
  | (id, candidate) :: created => do
    let s ← s.createSession context index effects groupingRevision id candidate
    s.createSessions context index effects groupingRevision created

/-- `grow_kept_sessions` without the calibration it may bring. -/
def growKept (s : Sessions P) (kept : List (KeptSession P)) (groupingRevision : Nat) :
    Sessions P :=
  kept.foldl (fun s kept =>
    if kept.added.isEmpty then s
    else (s.attachMembers kept.id kept.added).updateRow kept.id fun row =>
      { row with groupingRevision }) s

def supersede (s : Sessions P) (predecessors : List Uuid) (lineage : Nat) : Sessions P :=
  predecessors.foldl (fun s id => s.updateRow id fun row =>
    { row with supersededBy := some lineage }) s

def insertLineage (s : Sessions P) (lineage : SessionLineage) (cause : Cause) : Sessions P :=
  let lineages := s.lineages ++ [⟨cause, lineage⟩]
  { s with lineages }.supersede lineage.predecessors s.lineages.length

end Sessions

/-- The new sessions holding an asset of a superseded one. -/
def successorIds (superseded : List Uuid) (oldSessionOf : Uuid → Option Uuid)
    (created : List (Uuid × SessionCandidate P)) : List Uuid :=
  (created.filter fun (_, candidate) =>
    (candidateMembers candidate).any fun asset =>
      (oldSessionOf asset).any superseded.contains).map Prod.fst

def movedAssets (prior : List (PriorSession P)) (oldSessionOf : Uuid → Option Uuid)
    (created : List (Uuid × SessionCandidate P)) : List Uuid :=
  Ordered.ascending (created.flatMap fun (_, candidate) =>
    (candidateMembers candidate).filter fun asset =>
      (oldSessionOf asset).any fun old =>
        (prior.find? (·.id = old)).any (movedBy · candidate))

/-- Calibration frames a kept session gained. `isLight` reads an asset's effective metadata. -/
def calibrationFramesAdded (isLight : R.Metadata → Option Bool) (kept : List (KeptSession P))
    (assets : List (Asset R)) : Bool :=
  assets.any fun asset =>
    (kept.flatMap KeptSession.added).contains asset.id && isLight asset.effective = some false

/-- What a regroup is called with beside the assets that changed. -/
structure Regrouping (P : Platform) (R : Reader) where
  grouping : Grouping P R
  isLight : R.Metadata → Option Bool
  ids : Nat → Uuid
  effects : Effects

/-- Calibration that arrived with a kept session's gains is matched again. -/
def matchArrived (given : Regrouping P R) (kept : List (KeptSession P)) (assets : List (Asset R)) :
    Result Unit :=
  if calibrationFramesAdded given.isLight kept assets then given.effects.calibrationArrived
  else .ok ()

namespace Sessions

/-- The lineage of a plan that superseded sessions, and the Projects carried along it. -/
def recordLineage (s : Sessions P) (lineage : SessionLineage) (cause : Cause) (effects : Effects) :
    Result (Sessions P × Option SessionLineage) :=
  if lineage.predecessors.isEmpty then .ok (s, none)
  else do
    effects.carryRegrouped lineage
    return (s.insertLineage lineage cause, some lineage)

/-- `commit_plan`; the sessions created take their ids in order. -/
def commitPlan (s : Sessions P) (plan : GroupPlan P) (context : GroupContext P R)
    (given : Regrouping P R) (cause : Cause) : Result (Sessions P × Option SessionLineage) := do
  let s := s.refreshKept plan.kept
  if plan.created.isEmpty && plan.superseded.isEmpty && plan.kept.all (·.added.isEmpty) then
    return (s, none)
  else
    let groupingRevision := s.groupingRevision + 1
    let s := { s with groupingRevision }
    let created := plan.created.mapIdx fun i candidate => (given.ids i, candidate)
    let s ← s.createSessions context (associationsOf s plan.superseded) given.effects
      groupingRevision created
    let s := s.growKept plan.kept groupingRevision
    matchArrived given plan.kept context.assets
    s.recordLineage {
      correctionId := cause.id
      predecessors := plan.superseded
      successors := successorIds plan.superseded context.oldSessionOf created
      movedAssets := movedAssets context.prior context.oldSessionOf created
      groupingRevision } cause given.effects

end Sessions

/-! ## One regroup -/

namespace Vault

/-- The sessions a regroup replaces or keeps: those the assets were in, and those of the keys they
now have. -/
def affected (v : Vault P R) (changed : List Uuid) (first : List (SessionCandidate P)) :
    List Uuid :=
  Ordered.ascending (changed.filterMap v.sessions.sessionOf ++
    first.flatMap fun candidate => v.currentSessionsWithKey candidate.key)

def priorSession (v : Vault P R) (id : Uuid) : Result (PriorSession P) := do
  let row ← v.sessions.loadSessionRow id
  return { id, key := row.key, members := v.currentMembers id, framing := row.framing }

end Vault

/-- A prior session as the grouping sees it: its members whose evidence did not change. -/
def PriorSession.standing (changed : List Uuid) (session : PriorSession P) :
    Option (StandingSession P) :=
  let unchanged := session.members.filter (!changed.contains ·)
  if unchanged.isEmpty then none
  else some { key := session.key, assetIds := unchanged, framing := session.framing }

namespace Vault

/-- A regroup up to its plan: the prior sessions, the assets grouped and what the grouping made of
them. -/
def grouped (v : Vault P R) (changed : List Uuid) (grouping : Grouping P R) :
    Result (GroupContext P R × List (SessionCandidate P)) := do
  let changedAssets ← v.catalog.loadAssets changed
  let first ← checkedGrouping (grouping changedAssets []) changed
  let prior ← (v.affected changed first).mapM v.priorSession
  let closure := Ordered.ascending (changed ++ prior.flatMap PriorSession.members)
  let assets ← v.catalog.loadAssets closure
  let result ← checkedGrouping
    (grouping assets (prior.filterMap (PriorSession.standing changed))) closure
  return ({ prior, oldSessionOf := v.sessions.currentSessionOf closure, assets }, result)

/-- `regroup` of an ordered set of changed assets. -/
def regroup (v : Vault P R) (changed : List Uuid) (given : Regrouping P R) (cause : Cause) :
    Result (Vault P R × Option SessionLineage) :=
  if changed.isEmpty then .ok (v, none)
  else do
    let (context, result) ← v.grouped changed given.grouping
    let plan := planGrouping context.prior context.oldSessionOf result
    let (sessions, lineage) ← v.sessions.commitPlan plan context given cause
    return ({ v with sessions }, lineage)

end Vault

end PlateVault.Library
