import PlateVault.Library.Observations

/-!
# The catalog's tables

Locations, scans and their issues, assets, trash episodes, corrections, quality decisions and copy
links, with the writes several operations share. An update names the rows it changes as its SQL
does. Sessions are another layer: a scan reports the assets it would have regrouped.
-/

namespace PlateVault.Library

/-- A row of `scan_operations`. -/
structure Operation where
  id : Uuid
  locationId : Uuid
  scope : RelPath
  state : ScanState
  rootIdentity : FileIdentity
  locationRevision : Nat
  complete : List RelPath
  incomplete : List RelPath
  identityVerified : Bool
  verificationArmed : Bool
  startedAt : Nat
  deriving DecidableEq, Repr

/-- A row of `scan_issues`. -/
structure IssueRow where
  operationId : Uuid
  issue : ScanIssue
  deriving DecidableEq, Repr

/-- One stay of a frame in the OS Trash; `putBackAt` ends it. -/
structure TrashEpisode where
  assetId : Uuid
  storageOperationId : Uuid
  sha256 : Text
  trashedAt : Nat
  putBackAt : Option Nat
  deriving DecidableEq, Repr

/-- A row of `corrections`. -/
structure CorrectionRow where
  assetId : Uuid
  field : Text
  value : Text
  deriving DecidableEq, Repr

/-- A row of `quality_decisions`. -/
structure QualityDecision where
  assetId : Uuid
  quality : Quality
  basis : Option ObservationFingerprint
  decisionRevision : Nat
  decidedAt : Nat
  deriving DecidableEq, Repr

structure DigestEvidence where
  sha256 : Text
  fingerprint : ObservationFingerprint
  deriving DecidableEq, Repr

structure RemapItem where
  assetId : Uuid
  originalDigest : DigestEvidence
  candidatePath : RelPath
  candidateFingerprint : ObservationFingerprint
  candidateSha256 : Text
  deriving DecidableEq, Repr

/-- A row of `remap_reviews`: `blocked` counts its blocks, `applied` is its state. -/
structure RemapReview where
  id : Uuid
  locationId : Uuid
  expectedRevision : Nat
  proposedRoot : PathBuf
  proposedIdentity : FileIdentity
  items : List RemapItem
  blocked : Nat
  applied : Bool
  deriving DecidableEq, Repr

structure Catalog (R : Reader) where
  locations : Table Uuid Location Location.id
  operations : Table Uuid Operation Operation.id
  issues : List IssueRow
  assets : Indexed Uuid (Uuid × RelPath) (Asset R) Asset.id Asset.place
  episodes : List TrashEpisode
  corrections : List CorrectionRow
  decisions : List QualityDecision
  copyLinks : List (Uuid × Uuid)
  remapReviews : Table Uuid RemapReview RemapReview.id

variable {R : Reader}

namespace Catalog

def empty : Catalog R where
  locations := .empty
  operations := .empty
  issues := []
  assets := .empty
  episodes := []
  corrections := []
  decisions := []
  copyLinks := []
  remapReviews := .empty

/-! ## Reads -/

def loadLocation (c : Catalog R) (id : Uuid) : Result Location :=
  Result.orElse (c.locations.find? id) (.notFound s!"location {id.hyphenated}")

def loadOperationRow (c : Catalog R) (id : Uuid) : Result Operation :=
  Result.orElse (c.operations.find? id) (.notFound s!"scan operation {id.hyphenated}")

/-- A Trashed copy reads Trashed whatever its location reads; otherwise a retired location's copies
read Retired, and an unavailable location's read as it does unless they are Missing. -/
def readAvailability : LocationLifecycle → Availability → Availability → Availability
  | _, _, .trashed => .trashed
  | .retired, _, _ => .retired
  | .active, .available, stored => stored
  | .active, _, .missing => .missing
  | .active, location, _ => location

/-- `asset_from_row`, over the row's join with `locations`: a foreign key keeps the location. -/
def fromRow (c : Catalog R) (row : Asset R) : Asset R :=
  match c.locations.find? row.locationId with
  | some location =>
    { row with
      availability := readAvailability location.lifecycle location.availability row.availability }
  | none => row

def loadAsset (c : Catalog R) (id : Uuid) : Result (Asset R) := do
  let row ← Result.orElse (c.assets.find? id) (.notFound s!"asset {id.hyphenated}")
  return c.fromRow row

def locationAssets (c : Catalog R) (locationId : Uuid) : List (Asset R) :=
  (c.assets.rows.filter fun row => row.locationId = locationId).map c.fromRow

theorem fromRow_eq (c : Catalog R) (row : Asset R) :
    ∃ availability, c.fromRow row = { row with availability } ∧
      (availability = .trashed → row.availability = .trashed ∨
        ∃ location ∈ c.locations.rows, location.availability = .trashed) := by
  unfold fromRow
  split
  · next location hlocation =>
    refine ⟨_, rfl, fun h => ?_⟩
    cases hrow : row.availability with
    | trashed => exact .inl rfl
    | _ =>
      refine .inr ⟨location, (Table.find?_eq_some.mp hlocation).1, ?_⟩
      revert h
      cases location.lifecycle <;> cases location.availability <;>
        simp [readAvailability, hrow]
  · exact ⟨row.availability, rfl, .inl⟩

@[simp] theorem fromRow_trashed {c : Catalog R} {row : Asset R} (h : row.availability = .trashed) :
    (c.fromRow row).availability = .trashed := by
  unfold fromRow
  split
  · next location _ => cases hl : location.lifecycle <;> simp [h, readAvailability]
  · exact h

def openEpisode (c : Catalog R) (assetId : Uuid) : Option TrashEpisode :=
  c.episodes.find? fun episode => episode.assetId = assetId && episode.putBackAt.isNone

/-- The latest correction of each field of an asset, by field. -/
def latestCorrections (c : Catalog R) (assetId : Uuid) : List (Text × Text) :=
  let rows := c.corrections.filter (·.assetId = assetId)
  ((rows.map (·.field)).dedup.mergeSort (· ≤ ·)).filterMap fun field =>
    (rows.reverse.find? (·.field = field)).map fun row => (field, row.value)

def effectiveMetadata (c : Catalog R) (assetId : Uuid) (observed : R.Metadata) :
    Result R.Metadata :=
  R.applyCorrections observed (c.latestCorrections assetId)

def loadIssuePaths (c : Catalog R) (operationId : Uuid) : List RelPath :=
  (c.issues.filter (·.operationId = operationId)).map (·.issue.relativePath)

def runningOperation (c : Catalog R) (locationId : Uuid) : Option Uuid :=
  (c.operations.rows.find? fun op => op.locationId = locationId && op.state = .running).map (·.id)

/-! ## Writes -/

/-- `UPDATE assets SET … WHERE …`, keeping ids and places. -/
def updateAssets (c : Catalog R) (p : Asset R → Bool) (f : Asset R → Asset R)
    (hid : ∀ a, (f a).id = a.id := by intro; rfl)
    (hplace : ∀ a, (f a).place = a.place := by intro; rfl) : Catalog R :=
  { c with assets := c.assets.update p f hid hplace }

/-- `UPDATE assets SET … WHERE id = …`, which may give the row another place. -/
def moveAsset (c : Catalog R) (id : Uuid) (f : Asset R → Asset R)
    (hid : ∀ a, (f a).id = a.id := by intro; rfl) : Result (Catalog R) := do
  let assets ← Result.orElse (c.assets.move? id f hid)
    (.persistenceFailure "UNIQUE constraint failed: assets.location_id, assets.path_key")
  return { c with assets }

def updateOperation (c : Catalog R) (id : Uuid) (f : Operation → Operation)
    (hid : ∀ op, (f op).id = op.id := by intro; rfl) : Catalog R :=
  { c with operations := c.operations.updateWhere (fun op => op.id = id) f hid }

def updateLocation (c : Catalog R) (id : Uuid) (f : Location → Location)
    (hid : ∀ location, (f location).id = location.id := by intro; rfl) : Catalog R :=
  { c with locations := c.locations.updateWhere (fun location => location.id = id) f hid }

def addIssue (c : Catalog R) (operationId : Uuid) (path : RelPath) (reason : String)
    (availability : Availability) : Catalog R :=
  { c with
    issues := c.issues ++
      [{ operationId, issue := { relativePath := path, reason, availability } }] }

def pushUnique (paths : List RelPath) (path : RelPath) : List RelPath :=
  if path ∈ paths then paths else paths ++ [path]

@[simp] theorem mem_pushUnique {paths : List RelPath} {path p : RelPath} :
    p ∈ pushUnique paths path ↔ p ∈ paths ∨ p = path := by
  unfold pushUnique
  split
  · next h =>
    constructor
    · exact .inl
    · rintro (h' | rfl)
      · exact h'
      · exact h
  · simp

def markScopeIncomplete (c : Catalog R) (operationId : Uuid) (scope : RelPath) : Catalog R :=
  c.updateOperation operationId
    (fun op => { op with incomplete := pushUnique op.incomplete scope })

def setLocationUnavailable (c : Catalog R) (id : Uuid) (availability : Availability) :
    Catalog R :=
  c.updateLocation id (fun location => { location with availability })

def markLocationObserved (c : Catalog R) (id : Uuid) : Catalog R :=
  c.updateLocation id (fun location => { location with availability := .available })

/-- A rescan found the recorded path again: the asset's open episode becomes history. -/
def closeEpisode (c : Catalog R) (assetId : Uuid) (putBackAt : Nat) : Catalog R :=
  { c with
    episodes := c.episodes.map fun episode =>
      if episode.assetId = assetId ∧ episode.putBackAt = none then
        { episode with putBackAt := some putBackAt }
      else episode }

/-! Each write leaves the tables it does not name as they are. -/

section Frame

variable (c : Catalog R)

@[simp] theorem updateAssets_episodes (p f hid hplace) :
    (c.updateAssets p f hid hplace).episodes = c.episodes := rfl

@[simp] theorem updateAssets_operations (p f hid hplace) :
    (c.updateAssets p f hid hplace).operations = c.operations := rfl

@[simp] theorem updateAssets_issues (p f hid hplace) :
    (c.updateAssets p f hid hplace).issues = c.issues := rfl

@[simp] theorem updateAssets_locations (p f hid hplace) :
    (c.updateAssets p f hid hplace).locations = c.locations := rfl

@[simp] theorem updateAssets_decisions (p f hid hplace) :
    (c.updateAssets p f hid hplace).decisions = c.decisions := rfl

@[simp] theorem updateAssets_remapReviews (p f hid hplace) :
    (c.updateAssets p f hid hplace).remapReviews = c.remapReviews := rfl

@[simp] theorem updateOperation_assets (id f hid) :
    (c.updateOperation id f hid).assets = c.assets := rfl

@[simp] theorem updateOperation_episodes (id f hid) :
    (c.updateOperation id f hid).episodes = c.episodes := rfl

@[simp] theorem updateOperation_issues (id f hid) :
    (c.updateOperation id f hid).issues = c.issues := rfl

@[simp] theorem updateOperation_decisions (id f hid) :
    (c.updateOperation id f hid).decisions = c.decisions := rfl

@[simp] theorem updateLocation_assets (id f hid) :
    (c.updateLocation id f hid).assets = c.assets := rfl

@[simp] theorem updateLocation_episodes (id f hid) :
    (c.updateLocation id f hid).episodes = c.episodes := rfl

@[simp] theorem updateLocation_operations (id f hid) :
    (c.updateLocation id f hid).operations = c.operations := rfl

@[simp] theorem updateLocation_issues (id f hid) :
    (c.updateLocation id f hid).issues = c.issues := rfl

@[simp] theorem updateLocation_decisions (id f hid) :
    (c.updateLocation id f hid).decisions = c.decisions := rfl

@[simp] theorem addIssue_assets (operationId path reason availability) :
    (c.addIssue operationId path reason availability).assets = c.assets := rfl

@[simp] theorem addIssue_episodes (operationId path reason availability) :
    (c.addIssue operationId path reason availability).episodes = c.episodes := rfl

@[simp] theorem addIssue_operations (operationId path reason availability) :
    (c.addIssue operationId path reason availability).operations = c.operations := rfl

@[simp] theorem addIssue_decisions (operationId path reason availability) :
    (c.addIssue operationId path reason availability).decisions = c.decisions := rfl

@[simp] theorem markScopeIncomplete_assets (operationId scope) :
    (c.markScopeIncomplete operationId scope).assets = c.assets := rfl

@[simp] theorem markScopeIncomplete_episodes (operationId scope) :
    (c.markScopeIncomplete operationId scope).episodes = c.episodes := rfl

@[simp] theorem markScopeIncomplete_issues (operationId scope) :
    (c.markScopeIncomplete operationId scope).issues = c.issues := rfl

@[simp] theorem markScopeIncomplete_decisions (operationId scope) :
    (c.markScopeIncomplete operationId scope).decisions = c.decisions := rfl

@[simp] theorem closeEpisode_assets (assetId putBackAt) :
    (c.closeEpisode assetId putBackAt).assets = c.assets := rfl

@[simp] theorem closeEpisode_operations (assetId putBackAt) :
    (c.closeEpisode assetId putBackAt).operations = c.operations := rfl

@[simp] theorem closeEpisode_issues (assetId putBackAt) :
    (c.closeEpisode assetId putBackAt).issues = c.issues := rfl

@[simp] theorem closeEpisode_decisions (assetId putBackAt) :
    (c.closeEpisode assetId putBackAt).decisions = c.decisions := rfl

end Frame

theorem mem_updateAssets {c : Catalog R} {p f hid hplace} {a : Asset R} :
    a ∈ (c.updateAssets p f hid hplace).assets.rows ↔
      ∃ old ∈ c.assets.rows, a = if p old then f old else old :=
  Indexed.mem_update hid hplace

theorem moveAsset_eq_ok {c c' : Catalog R} {id : Uuid} {f : Asset R → Asset R} {hid}
    (h : c.moveAsset id f hid = .ok c') :
    ∃ assets, c.assets.move? id f hid = some assets ∧ c' = { c with assets } := by
  simp only [moveAsset, Result.bind_eq_ok, Result.orElse_eq_ok, Result.pure_eq_ok] at h
  obtain ⟨assets, hmove, rfl⟩ := h
  exact ⟨assets, hmove, rfl⟩

theorem mem_moveAsset {c c' : Catalog R} {id : Uuid} {f : Asset R → Asset R} {hid}
    (h : c.moveAsset id f hid = .ok c') {a : Asset R} :
    a ∈ c'.assets.rows ↔ ∃ old ∈ c.assets.rows, a = if old.id = id then f old else old := by
  obtain ⟨assets, hmove, rfl⟩ := moveAsset_eq_ok h
  exact Indexed.mem_move? hmove

end Catalog

end PlateVault.Library
