import PlateVault.Library.Decide

/-!
# Locations, trash and moved records

Registering, reselecting, remapping and retiring a location; recording the frames a storage
operation moved to the OS Trash; and moving one frame's record to its verified copy.
-/

namespace PlateVault.Library

variable {R : Reader}

/-- One frame the storage custody moved to the OS Trash, with the digest it verified right before. -/
structure TrashedFrame where
  assetId : Uuid
  sha256 : Text
  deriving DecidableEq, Repr

def validSha256 (text : Text) : Bool :=
  text.length = 64 && text.all fun c => ('0' ≤ c && c ≤ '9') || ('a' ≤ c && c ≤ 'f')

/-- Where a frame's record moves: from the observation a transfer reviewed to its verified copy. -/
structure RecordMove where
  assetId : Uuid
  fromLocationId : Uuid
  fromPath : RelPath
  fromFingerprint : ObservationFingerprint
  toLocationId : Uuid
  toPath : RelPath
  toFingerprint : ObservationFingerprint
  deriving DecidableEq, Repr

/-- What a remap finds at its two roots: whether the original's is online, and the files of each. -/
structure RemapFiles where
  rootBlocks : Nat
  verify : Result Unit
  online : Bool
  original : Uuid → Source
  candidate : Uuid → Source
  verifyAfter : Result Unit

namespace Catalog

/-! ## The OS Trash -/

def refused (asset : Asset R) (reason : String) : LibraryError :=
  .invalidInput s!"asset {asset.id.hyphenated} {reason}"

def markTrashed (c : Catalog R) (id : Uuid) : Catalog R :=
  c.updateAssets (fun a => a.id = id)
    (fun a => { a with availability := .trashed, verificationPending := false })

def addEpisode (c : Catalog R) (episode : TrashEpisode) : Catalog R :=
  { c with episodes := c.episodes ++ [episode] }

/-- One frame of `record_trashed`. -/
def recordFrame (c : Catalog R) (storageOperationId : Uuid) (frame : TrashedFrame)
    (trashedAt : Nat) : Result (Catalog R) := do
  let asset ← c.loadAsset frame.assetId
  match c.openEpisode asset.id with
  | some episode =>
    if episode.storageOperationId = storageOperationId && episode.sha256 = frame.sha256 then
      return c
    else .error (refused asset
      s!"is already Trashed by operation {episode.storageOperationId.hyphenated}")
  | none =>
    Result.require (asset.availability ≠ .trashed) (refused asset "is already Trashed")
    Result.require (asset.availability ≠ .retired)
      (refused asset "is a copy of a retired location")
    Result.require (asset.fingerprint.contentSha256.all (· = frame.sha256))
      (.identityConflict
        s!"asset {asset.id.hyphenated} was trashed with bytes other than its recorded digest")
    return (c.markTrashed asset.id).addEpisode
      { assetId := asset.id, storageOperationId, sha256 := frame.sha256, trashedAt
        putBackAt := none }

def recordFrames (c : Catalog R) (storageOperationId : Uuid) (trashedAt : Nat) :
    List TrashedFrame → Result (Catalog R)
  | [] => .ok c
  | frame :: frames => do
    let c ← c.recordFrame storageOperationId frame trashedAt
    c.recordFrames storageOperationId trashedAt frames

/-- `record_trashed`: all frames or none. -/
def recordTrashed (c : Catalog R) (storageOperationId : Uuid) (frames : List TrashedFrame)
    (now : Nat) : Result (Catalog R) := do
  Result.require (!frames.isEmpty && (frames.map (·.assetId)).Nodup)
    (.invalidInput "trashed frames must be unique and non-empty")
  match frames.find? fun frame => !validSha256 frame.sha256 with
  | some frame => .error (.invalidInput
      s!"asset {frame.assetId.hyphenated} needs a lowercase hex SHA-256")
  | none => c.recordFrames storageOperationId now frames

/-! ## Locations -/

def requireRevision (id : Uuid) (current expected : Nat) : Result Unit :=
  Result.require (current = expected) (.conflict id current)

/-- `register_location`, under a new id; `overlap` is what comparing it with the other roots
says. -/
def registerLocation (c : Catalog R) (id : Uuid) (name : Text) (path : PathBuf)
    (identity : FileIdentity) (overlap : Result Unit) : Result (Catalog R) := do
  overlap
  let locations ← Result.orElse (c.locations.insert?
      { id, name, path, identity, availability := .available, lifecycle := .active
        decisionRevision := 1, rehashStartedAt := none })
    (.persistenceFailure "UNIQUE constraint failed: locations.id")
  return { c with locations }

/-- `reselect_location`: access restored through a path that proves the same root. -/
def reselectLocation (c : Catalog R) (id : Uuid) (expectedRevision : Nat) (path : PathBuf)
    (identity : FileIdentity) (overlap : Result Unit) : Result (Catalog R) := do
  let current ← c.loadLocation id
  requireActive current "reselected"
  requireRevision id current.decisionRevision expectedRevision
  Result.require (sameRoot current.identity identity)
    (.identityConflict "chosen folder is not the registered volume and root; review a remap")
  overlap
  return c.updateLocation id
    (fun location => { location with
      path, availability := .available
      decisionRevision := location.decisionRevision + 1 })

/-- `retire_location`; `review` is what re-reading the sessions, Projects and pins the review
names says. -/
def retireLocation (c : Catalog R) (locationId : Uuid) (expectedRevision : Nat)
    (review : Result Unit) : Result (Catalog R) := do
  let location ← c.loadLocation locationId
  requireActive location "retired again"
  requireRevision locationId location.decisionRevision expectedRevision
  Result.require (c.runningOperation locationId).isNone (.conflict locationId 0)
  review
  return c.updateLocation locationId
    (fun location => { location with
      lifecycle := .retired, decisionRevision := location.decisionRevision + 1 })

/-! ## Remap -/

/-- `original_digest`: a readable original is hashed; an unavailable one needs the digest bound to
its observation. `none` is a block. -/
def originalDigest (online : Bool) (original : Source) (relative : RelPath) (asset : Asset R) :
    Result DigestEvidence :=
  if !online || !(original.probe relative).isOk then do
    let sha256 ← Result.orElse asset.fingerprint.contentSha256
      (.noByteProof "original is unavailable and has no fingerprint-bound digest")
    return { sha256, fingerprint := asset.fingerprint }
  else do
    let sha256 ← currentDigest original relative asset.fingerprint
    return { sha256, fingerprint := { asset.fingerprint with contentSha256 := some sha256 } }

/-- `assess_asset`: an original against the candidate's file; an error is a block. -/
def assessAsset (volume : VolumeIdentity) (online : Bool) (original candidate : Source)
    (asset : Asset R) : Result RemapItem := do
  let relative ← Library.relativePath asset.relativePath
  let originalDigest ← originalDigest online original relative asset
  let candidateFingerprint ← candidate.probe relative
  Result.require (sameVolume candidateFingerprint.identity.volume volume)
    (.identityConflict "candidate is not on the proposed volume")
  let candidateSha256 ← hashContained (candidate.opened relative) candidateFingerprint.sizeBytes
    candidateFingerprint.modifiedNs
  Result.require (candidateSha256 = originalDigest.sha256)
    (.identityConflict "candidate bytes differ from the original")
  return {
    assetId := asset.id, originalDigest, candidatePath := asset.relativePath
    candidateFingerprint := { candidateFingerprint with contentSha256 := some candidateSha256 }
    candidateSha256 }

/-- `assess_remap`: the items, and how many blocks there are. -/
def assessRemap (files : RemapFiles) (volume : VolumeIdentity) (assets : List (Asset R)) :
    List RemapItem × Nat :=
  match files.verify with
  | .error _ => ([], 1)
  | .ok () =>
    let assessed := assets.map fun asset =>
      assessAsset volume files.online (files.original asset.id) (files.candidate asset.id) asset
    (assessed.filterMap Except.toOption,
      assessed.countP (!·.isOk) + if files.verifyAfter.isOk then 0 else 1)

/-- `review_remap`, under a new id; `reader` is the catalog its hashing read. -/
def reviewRemap (c reader : Catalog R) (id locationId : Uuid) (expectedRevision : Nat)
    (proposedRoot : PathBuf) (proposedIdentity : FileIdentity) (files : RemapFiles) :
    Result (Catalog R) := do
  let location ← reader.loadLocation locationId
  requireActive location "remapped"
  requireRevision locationId location.decisionRevision expectedRevision
  let (items, blocked) := assessRemap files proposedIdentity.volume
    (reader.locationAssets locationId)
  let remapReviews ← Result.orElse (c.remapReviews.insert?
      { id, locationId, expectedRevision, proposedRoot, proposedIdentity, items
        blocked := files.rootBlocks + blocked, applied := false })
    (.persistenceFailure "UNIQUE constraint failed: remap_reviews.id")
  return { c with remapReviews }

/-- `verify_remap` of one item. -/
def verifyItem (online : Bool) (original candidate : Source) (asset : Asset R) (item : RemapItem) :
    Result Unit := do
  let relative ← Library.relativePath asset.relativePath
  let digest ← originalDigest online original relative asset
  Result.require (digest.sha256 = item.originalDigest.sha256)
    (.identityConflict "original bytes changed since review")
  let current ← candidate.probe relative
  Result.require (fingerprintMatches item.candidateFingerprint current)
    (.identityConflict "candidate changed since review")
  let sha256 ← hashContained (candidate.opened relative) current.sizeBytes current.modifiedNs
  Result.require (sha256 = item.candidateSha256)
    (.identityConflict "candidate changed since review")

def verifyItems (files : RemapFiles) (assets : List (Asset R)) : List RemapItem → Result Unit
  | [] => .ok ()
  | item :: items => do
    let asset ← Result.orElse (assets.find? (·.id = item.assetId))
      (.notFound s!"asset {item.assetId.hyphenated}")
    verifyItem files.online (files.original asset.id) (files.candidate asset.id) asset item
    verifyItems files assets items

/-- The location's assets are the reviewed ones, as they were reviewed. -/
def requireSameAssets (review : RemapReview) (assets : List (Asset R)) : Result Unit :=
  Result.require ((review.items.map (·.assetId)).dedup.length = assets.length &&
      assets.all fun asset => (review.items.reverse.find? (·.assetId = asset.id)).any fun item =>
        fingerprintMatches asset.fingerprint item.originalDigest.fingerprint)
    (.conflict review.locationId review.expectedRevision)

/-- The basis a remap leaves of a decision: rebound where it spoke for the bytes that moved. -/
def reboundBasis (asset : Asset R) (item : RemapItem) : Option ObservationFingerprint :=
  asset.qualityBasis.map fun basis =>
    if basis.equivalent item.originalDigest.fingerprint || basis.equivalent asset.fingerprint then
      item.candidateFingerprint
    else basis

/-- One row of `apply_remap_rows`. -/
def remapRow (c : Catalog R) (asset : Asset R) (item : RemapItem) (verifiedAt : Nat) : Catalog R :=
  c.updateAssets (fun a => a.id = asset.id)
    (fun a => { a with
      fingerprint := item.candidateFingerprint
      availability := .available
      qualityBasis := reboundBasis asset item
      lastVerifiedAt := some verifiedAt })
   

def remapRows (c : Catalog R) (assets : List (Asset R)) (verifiedAt : Nat) :
    List RemapItem → Result (Catalog R)
  | [] => .ok c
  | item :: items => do
    let asset ← Result.orElse (assets.find? (·.id = item.assetId))
      (.notFound s!"asset {item.assetId.hyphenated}")
    (c.remapRow asset item verifiedAt).remapRows assets verifiedAt items

def remapLocation (c : Catalog R) (review : RemapReview) : Catalog R :=
  c.updateLocation review.locationId
    (fun location => { location with
      path := review.proposedRoot, identity := review.proposedIdentity
      availability := .available
      decisionRevision := location.decisionRevision + 1 })

def settleReview (c : Catalog R) (id : Uuid) : Catalog R :=
  { c with
    remapReviews := c.remapReviews.updateWhere (fun row => row.id = id)
      (fun row => { row with applied := true }) fun _ => rfl }

/-- `apply_remap_rows`: the root, and every reviewed asset's observation, change together. -/
def applyRemapRows (c : Catalog R) (review : RemapReview) (assets : List (Asset R))
    (files : RemapFiles) (now : Nat) : Result (Catalog R) := do
  let _ ← review.items.mapM fun item => do
    let relative ← Library.relativePath item.candidatePath
    requireUnchangedContained (files.candidate item.assetId) review.proposedIdentity.volume relative
      item.candidateFingerprint
  let c ← (c.remapLocation review).remapRows assets now review.items
  return c.settleReview review.id

/-- `apply_remap`; `reader` is the catalog its hashing read. -/
def applyRemap (c reader : Catalog R) (reviewId : Uuid) (expectedRevision : Nat)
    (files : RemapFiles) (overlap : Result Unit) (now : Nat) : Result (Catalog R) := do
  let review ← Result.orElse (reader.remapReviews.find? reviewId)
    (.notFound s!"remap review {reviewId.hyphenated}")
  Result.require (!review.applied) (.invalidInput "remap review was already applied")
  let location ← reader.loadLocation review.locationId
  requireActive location "remapped"
  Result.require (review.blocked = 0)
    (.identityConflict s!"remap review {reviewId.hyphenated} is blocked")
  requireRevision location.id review.expectedRevision expectedRevision
  requireRevision location.id location.decisionRevision expectedRevision
  let assets := reader.locationAssets review.locationId
  requireSameAssets review assets
  files.verify
  verifyItems files assets review.items
  files.verifyAfter
  -- the transaction
  let current ← c.loadLocation location.id
  requireActive current "remapped"
  requireRevision current.id current.decisionRevision expectedRevision
  let stored ← Result.orElse (c.remapReviews.find? reviewId)
    (.notFound s!"remap review {reviewId.hyphenated}")
  Result.require (!stored.applied) (.invalidInput "remap review was already applied")
  let assets := c.locationAssets location.id
  requireSameAssets review assets
  overlap
  c.applyRemapRows review assets files now

/-! ## Moving a frame's record -/

/-- `move_asset_record`: the record keeps its id and decisions, and a basis bound to the
observation it left is rebound to the byte-identical copy. -/
def moveAssetRecord (c : Catalog R) (record : RecordMove) (now : Nat) : Result (Catalog R) := do
  let asset ← c.loadAsset record.assetId
  Result.require (asset.locationId = record.fromLocationId &&
      asset.relativePath = record.fromPath &&
      fingerprintMatches asset.fingerprint record.fromFingerprint)
    (.identityConflict "the catalog record changed since the transfer reviewed it")
  Result.require (!c.assets.rows.any fun a =>
      a.locationId = record.toLocationId && a.relativePath = record.toPath)
    (.identityConflict "the catalog records another frame at the destination")
  let basis := asset.qualityBasis.map fun basis =>
    if fingerprintMatches asset.fingerprint basis then record.toFingerprint else basis
  c.moveAsset asset.id (fun a => { a with
    locationId := record.toLocationId
    relativePath := record.toPath
    fingerprint := record.toFingerprint
    availability := .available
    verificationPending := false
    qualityBasis := basis
    lastVerifiedAt := some now })

end Catalog

end PlateVault.Library
