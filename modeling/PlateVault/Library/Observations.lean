import PlateVault.Base.Paths
import PlateVault.Lib.Table

/-!
# Observed files and their records

What a scan reports of a file, what the catalog keeps of it, and what a review decision on it is
worth. A path below a location is its components, as the walk joins them. What a capture's header
says, how a correction changes it and how a volume tells names apart are the reader's.
-/

namespace PlateVault

namespace Library

abbrev RelPath := List Text

def relativePath (path : RelPath) : Result RelPath :=
  if "..".toList ∈ path then .error (.invalidInput "relative path escapes its location")
  else .ok path

def within (path scope : RelPath) : Bool := scope.isPrefixOf path

theorem within_iff {path scope : RelPath} : within path scope = true ↔ scope <+: path := by
  simp [within]

@[simp] theorem within_nil (path : RelPath) : within path [] = true := by simp [within]

theorem within_refl (path : RelPath) : within path path = true := by simp [within]

theorem within.trans {path middle scope : RelPath} (h : within path middle = true)
    (h' : within middle scope = true) : within path scope = true :=
  within_iff.mpr ((within_iff.mp h').trans (within_iff.mp h))

/-! ## Metadata and volumes -/

/-- What the catalog leaves to its readers: header metadata, a correction merged over it, and the
names a volume does not tell apart. -/
structure Reader where
  Metadata : Type
  decEq : DecidableEq Metadata
  applyCorrections : Metadata → List (Text × Text) → Result Metadata
  sameOn : RelPath → RelPath → VolumeIdentity → Bool

instance (R : Reader) : DecidableEq R.Metadata := R.decEq

def sameVolume (left right : VolumeIdentity) : Bool :=
  left.filesystem = right.filesystem && left.stableId.isSome && left.stableId = right.stableId

def sameRoot (registered observed : FileIdentity) : Bool :=
  sameVolume registered.volume observed.volume &&
    match registered.fileId, observed.fileId with
    | some registered, some observed => fileIdsMatch (some registered) (some observed)
    | some _, none => false
    | none, _ => !registered.volume.fileIdsStable

/-- Byte-free folder proof needed before absence: a remount-stable root file id. -/
def rootProven (registered observed : FileIdentity) : Bool :=
  sameVolume registered.volume observed.volume && registered.volume.fileIdsStable &&
    registered.fileId.isSome && fileIdsMatch registered.fileId observed.fileId

/-- `VolumeIdentity::validate`. -/
def validateVolume (volume : VolumeIdentity) : Result Unit :=
  Result.require (!volume.filesystem.isEmpty && volume.stableId.any (!·.isEmpty))
    (.identityConflict "volume identity is unqualified")

/-- Compare observations; an expectation without a digest accepts the recorded digest of otherwise
identical evidence, but differing digests never match. -/
def fingerprintMatches (current expected : ObservationFingerprint) : Bool :=
  if expected.contentSha256.isNone && current.contentSha256.isSome then
    current.equivalent { expected with contentSha256 := current.contentSha256 }
  else if current.contentSha256.isNone && expected.contentSha256.isSome then
    { current with contentSha256 := expected.contentSha256 }.equivalent expected
  else current.equivalent expected

theorem fingerprintMatches_stat {current expected : ObservationFingerprint}
    (h : fingerprintMatches current expected = true) :
    current.sizeBytes = expected.sizeBytes ∧ current.modifiedNs = expected.modifiedNs ∧
      ∀ sha ∈ current.contentSha256, ∀ sha' ∈ expected.contentSha256, sha = sha' := by
  unfold fingerprintMatches at h
  split at h
  · next hsha =>
    simp only [Bool.and_eq_true, Option.isNone_iff_eq_none] at hsha
    simp only [ObservationFingerprint.equivalent, Bool.and_eq_true, decide_eq_true_eq] at h
    exact ⟨h.1.1.1.2, h.1.1.2, by simp [hsha.1]⟩
  · split at h
    · next hsha =>
      simp only [Bool.and_eq_true, Option.isNone_iff_eq_none] at hsha
      simp only [ObservationFingerprint.equivalent, Bool.and_eq_true, decide_eq_true_eq] at h
      exact ⟨h.1.1.1.2, h.1.1.2, by simp [hsha.1]⟩
    · simp only [ObservationFingerprint.equivalent, Bool.and_eq_true, decide_eq_true_eq] at h
      refine ⟨h.1.1.1.2, h.1.1.2, fun sha hsha sha' hsha' => ?_⟩
      have heq : some sha = some sha' :=
        (Option.mem_def.mp hsha).symm.trans (h.1.2.trans (Option.mem_def.mp hsha'))
      exact Option.some.inj heq

/-! ## Records -/

inductive Availability
  | available
  | offline
  | missing
  | unreadable
  | identityConflict
  | retired
  | trashed
  deriving DecidableEq, Repr

inductive Quality
  | unreviewed
  | usable
  | unusable
  deriving DecidableEq, Repr

/-- What a decision is worth for the bytes a record holds now. -/
inductive ApplicableQuality
  | unreviewed
  | usable
  | unusable
  | changedContent (previous : Quality)
  | verificationPending (previous : Quality)
  deriving DecidableEq, Repr

inductive ImageFormat
  | fits
  | xisf
  | unsupported
  deriving DecidableEq, Repr

inductive LocationLifecycle
  | active
  | retired
  deriving DecidableEq, Repr

inductive ScanState
  | running
  | completed
  | partially
  | failed
  | canceled
  deriving DecidableEq, Repr

structure Location where
  id : Uuid
  name : Text
  path : PathBuf
  identity : FileIdentity
  availability : Availability
  lifecycle : LocationLifecycle
  decisionRevision : Nat
  rehashStartedAt : Option Nat
  deriving DecidableEq, Repr

/-- A row of `assets`, and an asset as it is read: the two differ in `availability` only. -/
structure Asset (R : Reader) where
  id : Uuid
  locationId : Uuid
  relativePath : RelPath
  fingerprint : ObservationFingerprint
  format : ImageFormat
  availability : Availability
  observed : R.Metadata
  effective : R.Metadata
  observationRevision : Nat
  decisionRevision : Nat
  quality : Quality
  qualityBasis : Option ObservationFingerprint
  verificationPending : Bool
  lastObservedAt : Nat
  lastVerifiedAt : Option Nat
  lastOperationId : Option Uuid

/-- A row of `live_assets`. -/
def Asset.live {R : Reader} (asset : Asset R) : Bool := asset.availability ≠ .trashed

/-- The unique index `(location_id, path_key)`. -/
def Asset.place {R : Reader} (asset : Asset R) : Uuid × RelPath :=
  (asset.locationId, asset.relativePath)

def Asset.applicableQuality {R : Reader} (asset : Asset R) : ApplicableQuality :=
  if asset.quality ≠ .unreviewed && !asset.qualityBasis.any fun basis =>
      basis.contentSha256.isSome && basis.equivalent asset.fingerprint then
    .changedContent asset.quality
  else if asset.quality ≠ .unreviewed && asset.verificationPending then
    .verificationPending asset.quality
  else match asset.quality with
    | .unreviewed => .unreviewed
    | .usable => .usable
    | .unusable => .unusable

theorem Asset.applicableQuality_basis {R : Reader} {asset : Asset R}
    (h : asset.applicableQuality = .usable ∨ asset.applicableQuality = .unusable) :
    asset.quality ≠ .unreviewed ∧ ∃ basis ∈ asset.qualityBasis,
      basis.contentSha256.isSome ∧ basis.equivalent asset.fingerprint := by
  unfold Asset.applicableQuality at h
  split at h
  · simp at h
  · next hbasis =>
    have hquality : asset.quality ≠ .unreviewed := by
      rintro hquality
      simp [hquality] at h
    refine ⟨hquality, ?_⟩
    simpa [hquality, Option.any_eq_true] using hbasis

structure ScanFile (R : Reader) where
  relativePath : RelPath
  fingerprint : ObservationFingerprint
  format : ImageFormat
  metadata : R.Metadata

structure ScanIssue where
  relativePath : RelPath
  reason : String
  availability : Availability
  deriving DecidableEq, Repr

structure ScanBatch (R : Reader) where
  files : List (ScanFile R)
  issues : List ScanIssue

structure ScanObservation (R : Reader) where
  locationId : Uuid
  rootIdentity : FileIdentity
  files : List (ScanFile R)
  issues : List ScanIssue
  completeScopes : List RelPath
  incompleteScopes : List RelPath
  state : ScanState

/-! ## Reading a file's bytes -/

/-- One read of a file through a handle opened without following links: what the handle is, its
size and time before and after, and the digest of the bytes between. -/
structure Reading where
  identity : FileIdentity
  sizeBytes : Nat
  modifiedNs : Int
  sizeAfter : Nat
  modifiedAfter : Int
  sha256 : Text
  deriving DecidableEq, Repr

/-- The read was of a file of this size and nanosecond time throughout. -/
def Reading.of (reading : Reading) (sizeBytes : Nat) (modifiedNs : Int) : Bool :=
  reading.sizeBytes = sizeBytes && reading.modifiedNs = modifiedNs &&
    reading.sizeAfter = sizeBytes && reading.modifiedAfter = modifiedNs

/-- `hash_contained`, given what opening and reading the file found. -/
def hashContained (opened : Result Reading) (sizeBytes : Nat) (modifiedNs : Int) : Result Text := do
  let reading ← opened
  Result.require (reading.of sizeBytes modifiedNs)
    (.identityConflict "file changed relative to its observation")
  return reading.sha256

/-- What the calls of one step find where they look for files: the probe before and after a hash,
the hash's own read, and the handle a last check opens. -/
structure Source where
  probe : RelPath → Result ObservationFingerprint
  opened : RelPath → Result Reading
  reprobe : RelPath → Result ObservationFingerprint
  handle : RelPath → Result Reading

/-- `current_digest`: probe, hash and re-probe a source that must still match its recorded
observation. -/
def currentDigest (source : Source) (relative : RelPath) (recorded : ObservationFingerprint) :
    Result Text := do
  let before ← source.probe relative
  Result.require (fingerprintMatches recorded before)
    (.identityConflict "source differs from its recorded observation")
  let sha256 ← hashContained (source.opened relative) recorded.sizeBytes recorded.modifiedNs
  let after ← source.reprobe relative
  Result.require (fingerprintMatches recorded after)
    (.identityConflict "source differs from its recorded observation")
  Result.require (recorded.contentSha256.all (· = sha256))
    (.identityConflict "source differs from its recorded observation")
  return sha256

/-- `require_unchanged_contained`: the opened handle is on the location's volume, has the recorded
file id where the volume's are stable, and the recorded size and time. -/
def requireUnchangedContained (source : Source) (volume : VolumeIdentity) (relative : RelPath)
    (fingerprint : ObservationFingerprint) : Result Unit := do
  let handle ← source.handle relative
  Result.require (sameVolume fingerprint.identity.volume volume &&
      (!fingerprint.identity.volume.fileIdsStable ||
        fileIdsMatch handle.identity.fileId fingerprint.identity.fileId) &&
      handle.sizeBytes = fingerprint.sizeBytes && handle.modifiedNs = fingerprint.modifiedNs)
    (.identityConflict "file changed relative to its observation")

theorem hashContained_eq_ok {opened : Result Reading} {sizeBytes : Nat} {modifiedNs : Int}
    {sha256 : Text} : hashContained opened sizeBytes modifiedNs = .ok sha256 ↔
      ∃ reading, opened = .ok reading ∧ reading.of sizeBytes modifiedNs = true ∧
        reading.sha256 = sha256 := by
  simp [hashContained]

end Library

end PlateVault
