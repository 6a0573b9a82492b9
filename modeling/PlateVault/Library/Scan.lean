import PlateVault.Library.Catalog

/-!
# Scans

A scan begins, applies batches of observed files and issues, and finishes by reconciling absence;
an aborted one only records why. Reviewed frames of a batch are hashed before its transaction, on
what a reader saw then. Times and new ids come from outside. Each transaction is a function to the
catalog it commits; a refusal commits nothing unless it says so.
-/

namespace PlateVault.Library

variable {R : Reader}

abbrev DigestMap := RelPath → Option (Result Text)

/-- Assets a batch changed: `regroup` need capture regrouping, `evidence` had their recorded
observation replaced or are new. -/
structure BatchChanges where
  regroup : List Uuid
  evidence : List Uuid

inductive Change
  | unchanged
  | inserted (id : Uuid)
  | refreshed (id : Uuid) (regroup : Bool)

def BatchChanges.record (changed : BatchChanges) : Change → BatchChanges
  | .unchanged => changed
  | .inserted id => ⟨id :: changed.regroup, id :: changed.evidence⟩
  | .refreshed id regroup =>
    ⟨if regroup then id :: changed.regroup else changed.regroup, id :: changed.evidence⟩

inductive AssetMatch (R : Reader)
  | new
  | existing (asset : Asset R)
  | distinct (variants : List RelPath)
  | unproven (candidates : List (Asset R))

namespace Catalog

/-! ## The rehash run -/

def pendingInLocation (c : Catalog R) (locationId : Uuid) : Bool :=
  c.assets.rows.any fun a => a.live && a.locationId = locationId && a.verificationPending

def rehashStartedAt (c : Catalog R) (locationId : Uuid) : Option Nat :=
  (c.locations.find? locationId).bind (·.rehashStartedAt)

def unfinishedRehash (c : Catalog R) (locationId : Uuid) : Option Nat :=
  if c.pendingInLocation locationId then c.rehashStartedAt locationId else none

/-- The rehash run an operation takes part in, or is going to resume. -/
def rehashRun (c : Catalog R) (op : Operation) : Option Nat :=
  if op.verificationArmed then c.rehashStartedAt op.locationId
  else c.unfinishedRehash op.locationId

def verifiedSince (verifiedAt run : Option Nat) : Bool :=
  match run, verifiedAt with
  | some started, some verified => started ≤ verified
  | _, _ => false

def rehashKept (asset : Asset R) (run : Option Nat) : Bool :=
  !asset.verificationPending && asset.fingerprint.contentSha256.isSome &&
    verifiedSince asset.lastVerifiedAt run

def unchangedObservation (stored : Asset R) (file : ScanFile R) : Bool :=
  fingerprintMatches stored.fingerprint file.fingerprint && stored.format = file.format &&
    stored.observed = file.metadata

/-- Whether a live copy elsewhere, or one a link names, shares this asset's bytes. -/
def copied (c : Catalog R) (a : Asset R) : Bool :=
  a.fingerprint.contentSha256.isSome &&
    (c.assets.rows.any (fun d => d.live &&
        d.fingerprint.contentSha256 = a.fingerprint.contentSha256 &&
        d.locationId ≠ a.locationId) ||
      c.assets.rows.any fun r => r.live &&
        (c.copyLinks.contains (a.id, r.id) || c.copyLinks.contains (r.id, a.id)))

def activeLocation (c : Catalog R) (id : Uuid) : Bool :=
  (c.locations.find? id).any (·.lifecycle = .active)

/-- `IS_ALIASED_COPY`: as `copied`, over copies of active locations. -/
def aliasedCopy (c : Catalog R) (a : Asset R) : Bool :=
  a.fingerprint.contentSha256.isSome &&
    (c.assets.rows.any (fun d => d.live &&
        d.fingerprint.contentSha256 = a.fingerprint.contentSha256 &&
        d.locationId ≠ a.locationId && c.activeLocation d.locationId) ||
      c.assets.rows.any fun r => r.live && c.activeLocation r.locationId &&
        (c.copyLinks.contains (a.id, r.id) || c.copyLinks.contains (r.id, a.id)))

/-- The assets `arm_verification` selects: decided ones of the scope, and copies of others'. -/
def armed (c : Catalog R) (op : Operation) (a : Asset R) : Bool :=
  a.live && a.locationId = op.locationId && a.availability ≠ .missing &&
    within a.relativePath op.scope && (a.quality ≠ .unreviewed || c.copied a)

/-- The operation's first readable pass begins or resumes the location's rehash run: what the
resumed run already rehashed is kept, and the rest is marked pending. -/
def armVerification (c : Catalog R) (op : Operation) : Catalog R :=
  if (c.operations.find? op.id).any (!·.verificationArmed) then
    let run := c.unfinishedRehash op.locationId
    let c' := c.updateOperation op.id (fun op => { op with verificationArmed := true })
    let c' := if run.isNone then
      c'.updateLocation op.locationId
        (fun location => { location with rehashStartedAt := some op.startedAt })
      else c'
    c'.updateAssets
      (fun a => c.armed op a && !(!a.verificationPending &&
        a.fingerprint.contentSha256.isSome && verifiedSince a.lastVerifiedAt run))
      (fun a => { a with verificationPending := true })
  else c

/-- A scan of the whole location that reached its end ends the rehash run. -/
def endRehashRun (c : Catalog R) (op : Operation) (terminal : Bool) : Catalog R :=
  if terminal ∧ op.scope = [] then
    c.updateLocation op.locationId
      (fun location => { location with rehashStartedAt := none })
  else c

/-! ## Matching an observed file -/

/-- Exact path, or on a case/normalization-insensitive volume the name variant with identical
size, nanosecond time and qualified stable file id, not yet seen by this scan. -/
def findAsset (c : Catalog R) (location : Location) (path : RelPath)
    (fingerprint : ObservationFingerprint) (operationId : Uuid) : AssetMatch R :=
  let volume := location.identity.volume
  match c.assets.rows.find? fun a => a.locationId = location.id && a.relativePath = path with
  | some row => .existing (c.fromRow row)
  | none =>
    if volume.case ≠ .insensitive && volume.normalization ≠ .insensitive then .new
    else
      let variants := ((c.assets.rows.filter fun a => a.locationId = location.id &&
        a.fingerprint.sizeBytes = fingerprint.sizeBytes &&
        a.fingerprint.modifiedNs = fingerprint.modifiedNs &&
        a.lastOperationId ≠ some operationId).map c.fromRow).filter fun a =>
          R.sameOn a.relativePath path volume
      let observedId := if volume.fileIdsStable then fingerprint.identity.fileId else none
      let qualified := fun (a : Asset R) =>
        observedId.isSome && a.fingerprint.identity.fileId.isSome
      if variants.isEmpty then .new
      else match variants.find? fun a =>
          qualified a && fileIdsMatch a.fingerprint.identity.fileId observedId with
        | some a => .existing a
        | none =>
          if variants.all qualified then .distinct (variants.map (·.relativePath))
          else .unproven variants

/-! ## Recording what was observed -/

/-- A content digest taken in this scan finishes the asset's pending rehash. -/
def clearVerified (c : Catalog R) (id : Uuid) (fingerprint : ObservationFingerprint)
    (verifiedAt : Nat) : Catalog R :=
  if fingerprint.contentSha256.isSome then
    c.updateAssets (fun a => a.id = id)
      (fun a => { a with verificationPending := false, lastVerifiedAt := some verifiedAt })
     
  else c

/-- `LINK_IDENTICAL_COPIES`: the pairs a diverging copy was byte-identical with. -/
def linkIdenticalCopies (c : Catalog R) (id : Uuid) (previous : Text) (locationId : Uuid) :
    Catalog R :=
  let pairs := (c.assets.rows.filter fun d => d.fingerprint.contentSha256 = some previous &&
    d.locationId ≠ locationId && c.activeLocation d.locationId).map fun d =>
      (min id d.id, max id d.id)
  { c with copyLinks := c.copyLinks ++ pairs.filter fun pair => !c.copyLinks.contains pair }

/-- Where the digest is about to change, record the bytes the copy shared with copies elsewhere. -/
def linkDiverged (c : Catalog R) (stored : Asset R) (fingerprint : ObservationFingerprint) :
    Catalog R :=
  match stored.fingerprint.contentSha256 with
  | some previous =>
    if fingerprint.contentSha256 ≠ some previous then
      c.linkIdenticalCopies stored.id previous stored.locationId
    else c
  | none => c

/-- The observation a scan leaves of unchanged bytes: the recorded digest stands. -/
def retained (stored fingerprint : ObservationFingerprint) : ObservationFingerprint :=
  if stored.contentSha256.isNone then
    { stored with contentSha256 := fingerprint.contentSha256 }
  else stored

/-- `refresh_asset`: an existing record is observed again. -/
def refreshAsset (c : Catalog R) (op : Operation) (stored : Asset R) (file : ScanFile R)
    (fingerprint : ObservationFingerprint) (observedAt : Nat) : Result (Catalog R × Change) := do
  if fingerprintMatches stored.fingerprint fingerprint && stored.format = file.format &&
      stored.observed = file.metadata then
    let c := c.clearVerified stored.id fingerprint observedAt
    let c ← c.moveAsset stored.id
      (fun a => { a with
        relativePath := file.relativePath
        fingerprint := retained stored.fingerprint fingerprint
        availability := .available
        lastObservedAt := observedAt
        lastOperationId := some op.id })
    return (c, .unchanged)
  else
    let effective ← c.effectiveMetadata stored.id file.metadata
    let c ← (c.linkDiverged stored fingerprint).moveAsset stored.id
      (fun a => { a with
        relativePath := file.relativePath
        fingerprint
        format := file.format
        availability := .available
        observed := file.metadata
        effective
        observationRevision := stored.observationRevision + 1
        lastObservedAt := observedAt
        lastOperationId := some op.id })
    let c := c.clearVerified stored.id fingerprint observedAt
    return (c, .refreshed stored.id (effective ≠ stored.effective))

/-- `insert_asset` of a new file, under a new id. -/
def insertAsset (c : Catalog R) (op : Operation) (location : Location) (file : ScanFile R)
    (fingerprint : ObservationFingerprint) (id : Uuid) (observedAt : Nat) :
    Result (Catalog R × Change) := do
  let assets ← Result.orElse (c.assets.insert?
      { id, locationId := location.id, relativePath := file.relativePath, fingerprint
        format := file.format, availability := .available
        observed := file.metadata, effective := file.metadata
        observationRevision := 1, decisionRevision := 0
        quality := .unreviewed, qualityBasis := none, verificationPending := false
        lastObservedAt := observedAt, lastVerifiedAt := none
        lastOperationId := some op.id })
    (.persistenceFailure "UNIQUE constraint failed: assets")
  return ({ c with assets }, .inserted id)

def validateIssue (issue : ScanIssue) : Result Unit := do
  let _ ← Library.relativePath issue.relativePath
  Result.require (issue.availability ≠ .available && issue.availability ≠ .missing)
    (.invalidInput "scan issues cannot assert Available or Missing")

/-- The part of the location an issue at `path` covers in this scan. -/
def issueScope (op : Operation) (path : RelPath) : Result RelPath :=
  if within path op.scope then .ok path
  else if within op.scope path then .ok op.scope
  else .error (.invalidInput "scan issue is outside the scan scope")

/-- Record a scan issue, and apply it to the live records of the part it covers. -/
def recordIssue (c : Catalog R) (op : Operation) (issue : ScanIssue) : Result (Catalog R) := do
  let scope ← issueScope op issue.relativePath
  let c := c.addIssue op.id issue.relativePath issue.reason issue.availability
  let c := c.markScopeIncomplete op.id scope
  return c.updateAssets
    (fun a => a.live && a.locationId = op.locationId && within a.relativePath scope)
    (fun a => { a with availability := issue.availability })

def recordIssues (c : Catalog R) (op : Operation) : List ScanIssue → Result (Catalog R)
  | [] => .ok c
  | issue :: issues => do
    let c ← c.recordIssue op issue
    c.recordIssues op issues

/-- The record as a put-back file is compared with it: holding the bytes the open episode trashed. -/
def compared (c : Catalog R) (stored : Asset R) : Asset R :=
  match c.openEpisode stored.id with
  | some episode =>
    { stored with fingerprint := { stored.fingerprint with contentSha256 := some episode.sha256 } }
  | none => stored

/-- A file at a Trashed frame's recorded path. Without a digest the frame stays Trashed; with one
the record leaves Trashed, compared against the bytes the episode trashed. -/
def observeTrashed (c : Catalog R) (op : Operation) (stored : Asset R) (file : ScanFile R)
    (fingerprint : ObservationFingerprint) (observedAt : Nat) : Result (Catalog R × Change) := do
  if fingerprint.contentSha256.isNone then
    let c ← c.recordIssue op
      { relativePath := file.relativePath
        reason := "a file at a Trashed frame's path was not content-verified in this scan"
        availability := .unreadable }
    return (c, .unchanged)
  else
    let (c, change) ← (c.closeEpisode stored.id observedAt).refreshAsset op (c.compared stored) file
      fingerprint observedAt
    -- the session holding the record regains a live member either way
    match change with
    | .unchanged => return (c, .refreshed stored.id false)
    | changed => return (c, changed)

/-- The issues a name variant without qualified identity leaves, at its path and the records'. -/
def variantIssues (file : ScanFile R) (candidates : List (Asset R)) : List ScanIssue :=
  (file.relativePath :: candidates.map (·.relativePath)).map fun relativePath =>
    { relativePath
      reason := "path is a case/normalization variant of a catalog record " ++
        "without qualified file identity"
      availability := .identityConflict }

/-- `observe_file`, given the digest hashing took of it. -/
def observeFile (c : Catalog R) (op : Operation) (location : Location) (file : ScanFile R)
    (digest : Option Text) (run : Option Nat) (id : Uuid) (observedAt : Nat) :
    Result (Catalog R × Change) := do
  let _ ← Library.relativePath file.relativePath
  Result.require (within file.relativePath op.scope)
    (.invalidInput "observed file is outside the scan scope")
  if !sameVolume file.fingerprint.identity.volume location.identity.volume then
    let c ← c.recordIssue op
      { relativePath := file.relativePath
        reason := "file is on another volume; boundary scope excluded"
        availability := .identityConflict }
    return (c, .unchanged)
  else
    let fingerprint := { file.fingerprint with contentSha256 := digest }
    match c.findAsset location file.relativePath fingerprint op.id with
    | .existing stored =>
      if stored.availability = .trashed then
        c.observeTrashed op stored file fingerprint observedAt
      else if fingerprint.contentSha256.isNone && rehashKept stored run &&
          unchangedObservation stored file then
        -- a rehash the resumed run already completed stands for these unchanged bytes
        c.refreshAsset op stored file fingerprint observedAt
      else if stored.quality ≠ .unreviewed && fingerprint.contentSha256.isNone then
        let c ← c.recordIssue op
          { relativePath := file.relativePath
            reason := "reviewed frame was not content-verified in this scan"
            availability := .unreadable }
        return (c, .unchanged)
      else c.refreshAsset op stored file fingerprint observedAt
    | .unproven candidates =>
      let c ← c.recordIssues op (variantIssues file candidates)
      return (c, .unchanged)
    | .distinct variants =>
      -- proven different files: the variants are left out of this scan's absence
      let c := variants.foldl (fun c variant => c.markScopeIncomplete op.id variant) c
      c.insertAsset op location file fingerprint id observedAt
    | .new => c.insertAsset op location file fingerprint id observedAt

/-- One file of a batch: a failed hash is an issue at its path. -/
def observeOne (c : Catalog R) (op : Operation) (location : Location) (digests : DigestMap)
    (run : Option Nat) (ids : RelPath → Uuid) (observedAt : Nat) (file : ScanFile R) :
    Result (Catalog R × Change) :=
  match digests file.relativePath with
  | some (.error error) => do
    let c ← c.recordIssue op
      { relativePath := file.relativePath
        reason := "reviewed frame could not be content-verified: " ++ error.display
        availability := .unreadable }
    return (c, .unchanged)
  | digest =>
    c.observeFile op location file (digest.bind Except.toOption) run (ids file.relativePath)
      observedAt

def observeFiles (c : Catalog R) (op : Operation) (location : Location) (digests : DigestMap)
    (run : Option Nat) (ids : RelPath → Uuid) (observedAt : Nat) (changed : BatchChanges) :
    List (ScanFile R) → Result (Catalog R × BatchChanges)
  | [] => .ok (c, changed)
  | file :: files => do
    let (c, change) ← c.observeOne op location digests run ids observedAt file
    c.observeFiles op location digests run ids observedAt (changed.record change) files

def recordBatchIssues (c : Catalog R) (op : Operation) : List ScanIssue → Result (Catalog R)
  | [] => .ok c
  | issue :: issues => do
    validateIssue issue
    let c ← c.recordIssue op issue
    c.recordBatchIssues op issues

def observeBatch (c : Catalog R) (op : Operation) (location : Location)
    (files : List (ScanFile R)) (issues : List ScanIssue) (digests : DigestMap)
    (ids : RelPath → Uuid) (observedAt : Nat) : Result (Catalog R × BatchChanges) := do
  let run := c.rehashStartedAt op.locationId
  let (c, changed) ← c.observeFiles op location digests run ids observedAt ⟨[], []⟩ files
  let c ← c.recordBatchIssues op issues
  return (c, changed)

/-- Hash reviewed frames of a batch, copies sharing their bytes, and files at Trashed paths; a
rehash the unfinished run already completed is kept while the observation is unchanged. -/
def decidedDigests (c : Catalog R) (op : Operation) (location : Location)
    (opened : RelPath → Result Reading) (files : List (ScanFile R)) : DigestMap := fun path =>
  let run := c.rehashRun op
  let work := files.filter fun file =>
    match c.findAsset location file.relativePath file.fingerprint op.id with
    | .existing asset =>
      asset.availability = .trashed ||
        ((asset.quality ≠ .unreviewed || c.aliasedCopy asset) &&
          !(rehashKept asset run && unchangedObservation asset file))
    | _ => false
  -- collected into a map: the last file of a path decides
  (work.reverse.find? (·.relativePath = path)).map fun file => do
    let _ ← Library.relativePath file.relativePath
    hashContained (opened file.relativePath) file.fingerprint.sizeBytes file.fingerprint.modifiedNs

/-! ## Scan operations -/

def requireRunning (op : Operation) : Result Unit :=
  Result.require (op.state = .running) (.invalidInput s!"scan {op.id.hyphenated} is not running")

def verifyRoot (location : Location) (op : Operation) (observed : FileIdentity) : Result Unit := do
  validateVolume observed.volume
  Result.require (location.decisionRevision = op.locationRevision &&
      location.identity = op.rootIdentity)
    (.identityConflict "location was reselected or remapped during this scan")
  Result.require (sameRoot location.identity observed)
    (.identityConflict "root volume or folder identity differs from the registered location")

def unavailableFor : LibraryError → Availability
  | .accessDenied _ => .unreadable
  | .identityConflict _ => .identityConflict
  | _ => .offline

/-- What a root mismatch commits: the scan's scope is incomplete and the location unavailable. -/
def downgrade (c : Catalog R) (op : Operation) (location : Location) (error : LibraryError) :
    Catalog R :=
  let availability := unavailableFor error
  let c := c.updateOperation op.id (fun op => { op with identityVerified := false })
  let c := c.addIssue op.id op.scope error.display availability
  let c := c.markScopeIncomplete op.id op.scope
  c.setLocationUnavailable location.id availability

def requireActive (location : Location) (refused : String) : Result Unit :=
  Result.require (location.lifecycle = .active)
    (.invalidInput ("location \"" ++ String.ofList location.name ++ "\" is retired and cannot be " ++
      refused ++ "; register its folder again as a new location"))

/-- `begin_scan`, under a new id. -/
def beginScan (c : Catalog R) (id locationId : Uuid) (scope : Option RelPath) (now : Nat) :
    Result (Catalog R) := do
  let location ← c.loadLocation locationId
  requireActive location "rescanned"
  let scope := scope.getD []
  let _ ← Library.relativePath scope
  Result.require (c.runningOperation locationId).isNone
    (.invalidInput "a scan is already running for this location")
  let operations ← Result.orElse (c.operations.insert?
      { id, locationId, scope, state := .running, rootIdentity := location.identity
        locationRevision := location.decisionRevision, complete := [], incomplete := []
        identityVerified := true, verificationArmed := false, startedAt := now })
    (.persistenceFailure "UNIQUE constraint failed: scan_operations.id")
  return { c with operations }

/-- The digests a call takes before its transaction, from what a reader saw then. -/
def digestsBefore (reader : Catalog R) (operationId : Uuid) (opened : RelPath → Result Reading)
    (files : List (ScanFile R)) : Result DigestMap := do
  let op ← reader.loadOperationRow operationId
  let location ← reader.loadLocation op.locationId
  return reader.decidedDigests op location opened files

/-- What a scan's transaction commits: the catalog with the assets to regroup, or only the
downgrade of a root mismatch with the error it refuses with. -/
inductive Committed (R : Reader)
  | observed (catalog : Catalog R) (changed : BatchChanges)
  | downgraded (catalog : Catalog R) (error : LibraryError)

def Committed.catalog : Committed R → Catalog R
  | .observed catalog _ => catalog
  | .downgraded catalog _ => catalog

/-- `apply_scan_batch` before its regroup; `reader` is the catalog its hashing read. -/
def applyScanBatch (c reader : Catalog R) (operationId : Uuid) (rootIdentity : FileIdentity)
    (batch : ScanBatch R) (opened : RelPath → Result Reading) (ids : RelPath → Uuid) (now : Nat) :
    Result (Committed R) := do
  let digests ← reader.digestsBefore operationId opened batch.files
  let op ← c.loadOperationRow operationId
  requireRunning op
  let location ← c.loadLocation op.locationId
  match verifyRoot location op rootIdentity with
  | .error error => return .downgraded (c.downgrade op location error) error
  | .ok () =>
    let c := c.armVerification op
    let (c, changed) ← c.observeBatch op location batch.files batch.issues digests ids now
    return .observed (c.markLocationObserved location.id) changed

/-! ## Finishing -/

/-- Mark Missing every live record of a complete scope the scan did not observe. -/
def reconcileAbsence (c : Catalog R) (op : Operation) (complete incomplete : List RelPath) :
    Catalog R :=
  let issues := c.loadIssuePaths op.id
  c.updateAssets
    (fun a => a.live && a.locationId = op.locationId && a.availability ≠ .missing &&
      a.lastOperationId ≠ some op.id && within a.relativePath op.scope &&
      complete.any (within a.relativePath ·) &&
      !(incomplete ++ issues).any (within a.relativePath ·))
    (fun a => { a with availability := .missing, verificationPending := false })
   

/-- The part of a terminal observation the operation's batches have not applied: a file is applied
when its record holds this operation's observation of it, or an issue stands at its path. -/
def unappliedFiles (c : Catalog R) (operationId : Uuid) (files : List (ScanFile R)) :
    List (ScanFile R) :=
  let applied := (c.assets.rows.filter (·.lastOperationId = some operationId)).map c.fromRow
  files.filter fun file =>
    -- collected into a map by path: the last row of a path decides
    !((applied.reverse.find? (·.relativePath = file.relativePath)).any fun a =>
        a.format = file.format && a.observed = file.metadata &&
          fingerprintMatches a.fingerprint file.fingerprint) &&
      !(c.loadIssuePaths operationId).contains file.relativePath

def unappliedIssues (c : Catalog R) (operationId : Uuid) (issues : List ScanIssue) :
    List ScanIssue :=
  issues.filter fun issue => !c.issues.contains { operationId, issue }

def finalizeOperation (c : Catalog R) (id : Uuid) (state : ScanState)
    (complete incomplete : List RelPath) : Catalog R :=
  c.updateOperation id (fun op => { op with state, complete, incomplete })

def terminal (state : ScanState) : Bool := state = .completed || state = .partially

/-- The operation's incomplete scopes plus those the terminal observation adds. -/
def recordedIncomplete (op : Operation) (observation : ScanObservation R) :
    Result (List RelPath) := do
  let scopes ← observation.incompleteScopes.mapM Library.relativePath
  return scopes.foldl pushUnique op.incomplete

def completeScopes (op : Operation) (observation : ScanObservation R) (proven : Bool) :
    Result (List RelPath) :=
  if terminal observation.state && op.identityVerified && proven then do
    let scopes ← observation.completeScopes.mapM Library.relativePath
    return (scopes.filter (within · op.scope)).foldl pushUnique []
  else .ok []

/-- `finish_verified` once its files and issues are observed. -/
def finishObserved (c : Catalog R) (op : Operation) (observation : ScanObservation R)
    (proven : Bool) : Result (Catalog R) := do
  let recorded ← recordedIncomplete op observation
  let ended := terminal observation.state
  let incomplete := if !ended || !proven then pushUnique recorded op.scope else recorded
  let complete ← completeScopes op observation proven
  let c := if complete.isEmpty then c else c.reconcileAbsence op complete incomplete
  let issues := c.loadIssuePaths op.id
  let c := c.endRehashRun op ended
  let state := if observation.state = .completed &&
      (!incomplete.isEmpty || !issues.isEmpty || complete.isEmpty) then .partially
    else observation.state
  return c.finalizeOperation op.id state complete incomplete

def finishVerified (c : Catalog R) (op : Operation) (location : Location)
    (observation : ScanObservation R) (files : List (ScanFile R)) (issues : List ScanIssue)
    (digests : DigestMap) (proven : Bool) (ids : RelPath → Uuid) (now : Nat) :
    Result (Catalog R × BatchChanges) := do
  let c := c.armVerification op
  let (c, changed) ← c.observeBatch op location files issues digests ids now
  let c := c.markLocationObserved location.id
  let op ← c.loadOperationRow op.id
  let c ← c.finishObserved op observation proven
  return (c, changed)

def finishUnverified (c : Catalog R) (op : Operation) (observation : ScanObservation R) :
    Result (Catalog R) := do
  let op ← c.loadOperationRow op.id
  let incomplete := observation.incompleteScopes.foldl pushUnique
    (pushUnique op.incomplete op.scope)
  let state := if terminal observation.state then .partially else observation.state
  return c.finalizeOperation op.id state [] incomplete

/-- The root's check when a scan finishes: what it observes now and what the scan observed both
name the registered root, and whether both prove it. -/
def verifyFinish (location : Location) (op : Operation) (observation : ScanObservation R)
    (rootCheck : Result FileIdentity) : Result Bool := do
  let current ← rootCheck
  verifyRoot location op current
  verifyRoot location op observation.rootIdentity
  return rootProven location.identity current &&
    rootProven location.identity observation.rootIdentity

/-- `finish_scan`; `reader` is the catalog its hashing read. -/
def finishScan (c reader : Catalog R) (operationId : Uuid) (observation : ScanObservation R)
    (rootCheck : Location → Result FileIdentity) (opened : RelPath → Result Reading)
    (ids : RelPath → Uuid) (now : Nat) : Result (Committed R) := do
  Result.require (observation.state ≠ .running)
    (.invalidInput "final observation must be terminal")
  let files := reader.unappliedFiles operationId observation.files
  let issues := reader.unappliedIssues operationId observation.issues
  let digests ← reader.digestsBefore operationId opened files
  let op ← c.loadOperationRow operationId
  requireRunning op
  Result.require (observation.locationId = op.locationId)
    (.invalidInput "observation belongs to another location")
  let location ← c.loadLocation op.locationId
  match verifyFinish location op observation (rootCheck location) with
  | .ok proven =>
    let (c, changed) ← c.finishVerified op location observation files issues digests proven ids now
    return .observed c changed
  | .error error =>
    let c ← (c.downgrade op location error).finishUnverified op observation
    return .downgraded c error

/-- `abort_scan`: the reason stands on the scan's scope only. -/
def abortScan (c : Catalog R) (operationId : Uuid) (state : ScanState) (reason : String) :
    Result (Catalog R) := do
  Result.require (state = .failed || state = .canceled)
    (.invalidInput "abort state must be Failed or Canceled")
  let op ← c.loadOperationRow operationId
  requireRunning op
  let location ← c.loadLocation op.locationId
  let availability := if state = .failed && location.availability = .available then .unreadable
    else location.availability
  let c := c.addIssue op.id op.scope reason availability
  return c.finalizeOperation op.id state [] (pushUnique op.incomplete op.scope)

/-- `mark_location_unavailable`: a running scan records the reason at its root. -/
def markLocationUnavailable (c : Catalog R) (id : Uuid) (availability : Availability)
    (reason : String) : Result (Catalog R) := do
  Result.require (availability = .offline || availability = .unreadable ||
      availability = .identityConflict)
    (.invalidInput "location unavailability must be Offline, Unreadable or IdentityConflict")
  let current ← c.loadLocation id
  requireActive current "marked unavailable"
  let c := c.setLocationUnavailable id availability
  match c.runningOperation id with
  | some operation =>
    let op ← c.loadOperationRow operation
    let c := c.addIssue op.id [] reason availability
    return c.markScopeIncomplete op.id []
  | none => return c

end Catalog

end PlateVault.Library
