import PlateVault.Library.Scan

/-!
# Review decisions and digests

A Usable or Unusable decision is bound to the digest of the file as it stands; a verification binds
a digest to the observation it was taken from. Files are hashed before the transaction, on what a
reader saw then, and the transaction compares the two.
-/

namespace PlateVault.Library

variable {R : Reader}

structure ExpectedAsset where
  assetId : Uuid
  decisionRevision : Nat
  fingerprint : ObservationFingerprint
  deriving DecidableEq, Repr

structure CorrectionInput where
  assetId : Uuid
  field : Text
  value : Text
  deriving DecidableEq, Repr

/-- What a digest was taken of: the asset, its SHA-256 and the observation it was checked against. -/
structure Hashed where
  assetId : Uuid
  sha256 : Text
  fingerprint : ObservationFingerprint
  deriving DecidableEq, Repr

/-- Where hashing before a transaction looks: each asset's file, and the roots checked before and
after all of them. -/
structure Sources where
  roots : Result Unit
  file : Uuid → Source
  rootsAfter : Result Unit

def requireUniqueAssets (expected : List ExpectedAsset) : Result Unit :=
  Result.require (!expected.isEmpty && (expected.map (·.assetId)).Nodup)
    (.invalidInput "expected assets must be unique and non-empty")

/-- Refuse a decision on a copy of a retired location or a Trashed frame. -/
def requireDecidable (asset : Asset R) : Result Unit :=
  match asset.availability with
  | .retired => .error (.invalidInput
      s!"asset {asset.id.hyphenated} is a copy of a retired location and takes no new decision")
  | .trashed => .error (.invalidInput
      s!"asset {asset.id.hyphenated} is Trashed and takes no new decision")
  | _ => .ok ()

namespace Catalog

def checkExpectedAsset (c : Catalog R) (item : ExpectedAsset) : Result (Asset R) := do
  let asset ← c.loadAsset item.assetId
  requireDecidable asset
  Result.require (asset.decisionRevision = item.decisionRevision &&
      fingerprintMatches asset.fingerprint item.fingerprint)
    (.conflict asset.id asset.decisionRevision)
  return asset

def checkExpectedAssets (c : Catalog R) (expected : List ExpectedAsset) :
    Result (List (Asset R)) := do
  requireUniqueAssets expected
  expected.mapM c.checkExpectedAsset

/-- One file of `current_digests`. -/
def hashCurrent (c : Catalog R) (sources : Sources) (assetId : Uuid) : Result Hashed := do
  let asset ← c.loadAsset assetId
  let _ ← c.loadLocation asset.locationId
  let relative ← Library.relativePath asset.relativePath
  let sha256 ← currentDigest (sources.file asset.id) relative asset.fingerprint
  return { assetId := asset.id, sha256, fingerprint := asset.fingerprint }

def currentDigests (c : Catalog R) (sources : Sources) (ids : List Uuid) :
    Result (List Hashed) := do
  sources.roots
  let hashed ← ids.mapM (c.hashCurrent sources)
  sources.rootsAfter
  return hashed

/-- What a decision binds: the observation it leaves, its basis and when its bytes were hashed. -/
structure Bound where
  fingerprint : ObservationFingerprint
  basis : Option ObservationFingerprint
  verifiedAt : Option Nat

/-- The part of `decide_quality` that reads: a reviewed decision is bound to the digest and to the
file still standing. -/
def bindDecision (c : Catalog R) (asset : Asset R) (quality : Quality) (digest : Option Hashed)
    (source : Source) (decidedAt : Nat) : Result Bound :=
  if quality = .unreviewed then .ok ⟨asset.fingerprint, none, none⟩
  else do
    let digest ← Result.orElse digest
      (.noByteProof "a reviewed decision needs a current content digest")
    Result.require (fingerprintMatches asset.fingerprint digest.fingerprint)
      (.conflict asset.id asset.decisionRevision)
    let location ← c.loadLocation asset.locationId
    let relative ← Library.relativePath asset.relativePath
    requireUnchangedContained source location.identity.volume relative asset.fingerprint
    let bound := { asset.fingerprint with contentSha256 := some digest.sha256 }
    return ⟨bound, some bound, some decidedAt⟩

def recordDecision (c : Catalog R) (decision : QualityDecision) : Catalog R :=
  { c with decisions := c.decisions ++ [decision] }

theorem recordDecision_assets (c : Catalog R) (decision : QualityDecision) :
    (c.recordDecision decision).assets = c.assets := rfl

/-- `decide_quality`: the decision stands on the record and in its history. -/
def decideQuality (c : Catalog R) (asset : Asset R) (quality : Quality) (digest : Option Hashed)
    (source : Source) (decidedAt : Nat) : Result (Catalog R) := do
  let decisionRevision := asset.decisionRevision + 1
  let bound ← c.bindDecision asset quality digest source decidedAt
  let c := c.updateAssets (fun a => a.id = asset.id)
    (fun a => { a with
      fingerprint := bound.fingerprint, quality, qualityBasis := bound.basis, decisionRevision
      verificationPending := false, lastVerifiedAt := bound.verifiedAt.or a.lastVerifiedAt })
   
  return c.recordDecision
    { assetId := asset.id, quality, basis := bound.basis, decisionRevision, decidedAt }

def decideAll (c : Catalog R) (quality : Quality) (digests : List Hashed) (sources : Sources)
    (decidedAt : Nat) : List (Asset R) → Result (Catalog R)
  | [] => .ok c
  | asset :: assets => do
    let c ← c.decideQuality asset quality (digests.find? (·.assetId = asset.id))
      (sources.file asset.id) decidedAt
    c.decideAll quality digests sources decidedAt assets

/-- What `set_quality` does before its transaction: refuse what takes no decision, and hash. -/
def reviewDigests (reader : Catalog R) (expected : List ExpectedAsset) (quality : Quality)
    (sources : Sources) : Result (List Hashed) := do
  requireUniqueAssets expected
  let _ ← expected.mapM fun item => do requireDecidable (← reader.loadAsset item.assetId)
  if quality = .unreviewed then .ok []
    else reader.currentDigests sources (expected.map (·.assetId))

/-- `set_quality`; `reader` is the catalog its hashing read. -/
def setQuality (c reader : Catalog R) (expected : List ExpectedAsset) (quality : Quality)
    (sources : Sources) (now : Nat) : Result (Catalog R) := do
  let digests ← reader.reviewDigests expected quality sources
  let assets ← c.checkExpectedAssets expected
  c.decideAll quality digests sources now assets

def bindDigest (c : Catalog R) (id : Uuid) (sha256 : Text) (verifiedAt : Nat) : Catalog R :=
  c.updateAssets (fun a => a.id = id)
    (fun a => { a with
      fingerprint := { a.fingerprint with contentSha256 := some sha256 }
      lastVerifiedAt := some verifiedAt })
   

/-- `verify_digest`; `reader` is the catalog its hashing read. -/
def verifyDigest (c reader : Catalog R) (assetId : Uuid) (sources : Sources) (now : Nat) :
    Result (Catalog R) := do
  let digests ← reader.currentDigests sources [assetId]
  let asset ← c.loadAsset assetId
  let digest ← Result.orElse (digests.find? (·.assetId = assetId))
    (.noByteProof s!"asset {assetId.hyphenated}")
  Result.require (fingerprintMatches asset.fingerprint digest.fingerprint)
    (.conflict asset.id asset.decisionRevision)
  return c.bindDigest assetId digest.sha256 now

/-- The hashing of `verify_duplicate_candidates`: a copy that cannot be read stays a candidate. -/
def hashCandidate (c : Catalog R) (sources : Uuid → Sources) (id : Uuid) :
    Result (Option Hashed) := do
  let asset ← c.loadAsset id
  if asset.fingerprint.contentSha256.isNone && asset.availability = .available then do
    let _ ← c.loadLocation asset.locationId
    let relative ← Library.relativePath asset.relativePath
    match (do
        (sources id).roots
        currentDigest ((sources id).file id) relative asset.fingerprint) with
    | .ok sha256 =>
      return some (Hashed.mk id sha256 asset.fingerprint)
    | .error _ => return none
  else return none

def bindCandidates (c : Catalog R) (verifiedAt : Nat) : List Hashed → Result (Catalog R)
  | [] => .ok c
  | hashed :: rest => do
    let asset ← c.loadAsset hashed.assetId
    let c := if asset.fingerprint.contentSha256.isNone &&
        fingerprintMatches asset.fingerprint hashed.fingerprint then
      c.bindDigest hashed.assetId hashed.sha256 verifiedAt
      else c
    c.bindCandidates verifiedAt rest

/-- `verify_duplicate_candidates`; a cancel stops its hashing after `completed` files. -/
def verifyDuplicateCandidates (c reader : Catalog R) (operationId : Uuid) (assets : List Uuid)
    (sources : Uuid → Sources) (completed now : Nat) : Result (Catalog R) := do
  let hashed ← assets.mapM (reader.hashCandidate sources)
  let op ← c.loadOperationRow operationId
  requireRunning op
  c.bindCandidates now ((hashed.take completed).filterMap id)

/-- `record_copy_link`: two candidates of one capture. -/
def recordCopyLink (c : Catalog R) (left right : Uuid) : Catalog R :=
  let pair := (min left right, max left right)
  if c.copyLinks.contains pair then c else { c with copyLinks := c.copyLinks ++ [pair] }

def recordCorrections (c : Catalog R) (assetId : Uuid) (corrections : List CorrectionInput) :
    Catalog R :=
  { c with
    corrections := c.corrections ++
      corrections.map fun item => { assetId, field := item.field, value := item.value } }

/-- The corrections of one asset: its rows, its effective metadata and its revision. -/
def correctAsset (c : Catalog R) (assetId : Uuid) (corrections : List CorrectionInput) :
    Result (Catalog R × Bool) := do
  let asset ← c.loadAsset assetId
  let c := c.recordCorrections assetId corrections
  let effective ← c.effectiveMetadata assetId asset.observed
  let c := c.updateAssets (fun a => a.id = assetId)
    (fun a => { a with effective, decisionRevision := asset.decisionRevision + 1 })
   
  return (c, effective ≠ asset.effective)

def correctAssets (c : Catalog R) (corrections : List CorrectionInput) (changed : List Uuid) :
    List Uuid → Result (Catalog R × List Uuid)
  | [] => .ok (c, changed)
  | id :: ids => do
    let (c, moved) ← c.correctAsset id (corrections.filter (·.assetId = id))
    c.correctAssets corrections (if moved then id :: changed else changed) ids

/-- `correct_in_txn` before its regroup, with the assets whose effective metadata changed. -/
def correctInTxn (c : Catalog R) (expected : List ExpectedAsset)
    (corrections : List CorrectionInput) : Result (Catalog R × List Uuid) := do
  let _ ← c.checkExpectedAssets expected
  c.correctAssets corrections [] ((corrections.map (·.assetId)).dedup.mergeSort (· ≤ ·))

end Catalog

end PlateVault.Library
