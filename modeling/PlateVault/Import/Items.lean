import PlateVault.Grouping.Key
import PlateVault.Naming.Resolve
import PlateVault.Storage.Records

/-!
# Import items

A source file of an import: what its settle checks recorded, the frame type it imports as, where it
is routed, and what holds it back.
-/

namespace PlateVault.Import

open Naming

inductive LocationRole
  | captures
  | calibration
  | results
  deriving DecidableEq, Repr

inductive LocationLifecycle
  | active
  | retired
  deriving DecidableEq, Repr

structure Location where
  id : Uuid
  path : NativePath
  role : LocationRole
  identity : FileIdentity
  lifecycle : LocationLifecycle
  deriving DecidableEq, Repr

/-- Where an item stands, from the preview through execution. -/
inductive ImportItemPhase
  | ready
  | unclassified
  | settling
  | duplicate
  | blocked
  | excluded
  | pending
  | landed
  | copied
  | moved
  | sourceKept
  | failed
  | uncertain
  deriving DecidableEq, Repr

inductive ImportDuplicate
  | indexedFrame (assetId : Uuid)
  | sameImport (seq : Nat) (sourcePath : NativePath)
  | sameSource (operationId : Uuid)
  | atDestination (path : NativePath)
  deriving DecidableEq, Repr

inductive ImportBlock
  | missingRole (role : LocationRole)
  | locationNotChosen (role : LocationRole)
  | destinationUnwritable (locationId : Uuid) (detail : String)
  | collision (path : NativePath)
  | collidesWithItem (seq : Nat)
  | naming (detail : String)
  | unreadable (detail : String)
  | sourceMissing
  | duplicateUnproven (assetId : Uuid) (detail : String)
  deriving DecidableEq, Repr

structure ImportRig where
  equipmentId : Uuid
  name : Text
  deriving DecidableEq, Repr

structure UnknownFilter where
  equipmentId : Uuid
  rigName : Text
  value : Text
  deriving DecidableEq, Repr

structure ImportItem where
  seq : Nat
  sourcePath : NativePath
  /-- The same path below the source folder. -/
  relativePath : NativePath
  sizeBytes : Nat
  sha256 : Option Text
  imageType : Option Text
  classification : Option NamingFrameType
  userType : Option NamingFrameType
  targetId : Option Uuid
  excluded : Bool
  role : Option LocationRole
  destinationLocationId : Option Uuid
  destinationPath : Option NativePath
  fallbacks : List NamingFallback
  rig : Option ImportRig
  unknownFilter : Option UnknownFilter
  phase : ImportItemPhase
  duplicate : Option ImportDuplicate
  block : Option ImportBlock
  landed : Bool
  deriving DecidableEq, Repr

/-- The frame type the item imports as: the user's, else the header's. -/
def ImportItem.frameType (item : ImportItem) : Option NamingFrameType :=
  item.userType.or item.classification

structure SettleObservation where
  fingerprint : ObservationFingerprint
  checkedAtMs : Int
  deriving DecidableEq, Repr

/-- An import item with the recorded evidence it is routed from. -/
structure ImportItemRecord (P : Platform) where
  item : ImportItem
  observation : Option SettleObservation
  evidence : Option EntryEvidence
  metadata : Option (CaptureMetadata P)

structure ImportChoice where
  role : LocationRole
  locationId : Uuid
  deriving DecidableEq, Repr

inductive Writability
  | writable
  | notWritable (detail : String)
  | unknown (detail : String)
  deriving DecidableEq, Repr

def ImportItem.clearRoute (item : ImportItem) : ImportItem :=
  { item with
    role := none
    destinationLocationId := none
    destinationPath := none
    targetId := none
    fallbacks := []
    rig := none
    unknownFilter := none
    duplicate := none
    block := match item.block with
      | some .sourceMissing => some .sourceMissing
      | some (.unreadable detail) => some (.unreadable detail)
      | _ => none }

/-- The item before its digest is looked for: its route cleared, and held where it is left out or
its settle checks hold it. -/
def ImportItem.cleared (item : ImportItem) : ImportItem :=
  let item := item.clearRoute
  { item with phase :=
      if item.excluded then .excluded else if item.block.isSome then .blocked else .settling }

theorem ImportItem.cleared_phase_ne_ready (item : ImportItem) : item.cleared.phase ≠ .ready := by
  unfold cleared
  dsimp only
  split
  · simp
  · split <;> simp

@[simp] theorem ImportItem.cleared_duplicate (item : ImportItem) : item.cleared.duplicate = none := rfl

inductive Hold
  | duplicate (duplicate : ImportDuplicate)
  | block (block : ImportBlock)
  deriving DecidableEq, Repr

def Hold.apply (item : ImportItem) : Hold → ImportItem
  | .duplicate found => { item with duplicate := some found, phase := .duplicate }
  | .block held => { item with block := some held, phase := .blocked }

def roleOf : NamingFrameType → LocationRole
  | .light => .captures
  | _ => .calibration

/-- The location a role's items go to: the user's choice, else the only one. -/
def chosenLocation (locations : List Location) (choices : List ImportChoice) (role : LocationRole) :
    Except ImportBlock Location :=
  let ofRole := locations.filter (·.role = role)
  match (choices.find? (·.role = role)).bind fun choice =>
      ofRole.find? (·.id = choice.locationId) with
  | some location => .ok location
  | none => match ofRole with
    | [] => .error (.missingRole role)
    | [only] => .ok only
    | _ => .error (.locationNotChosen role)

variable {P : Platform}

/-- A header text without the white space around it; a blank one is none. -/
def trimmed (value : Option Text) : Option Text := (value.map trim).filter (!·.isEmpty)

/-- What the naming tokens resolve from. The target is the light's session's, never OBJECT. -/
def namingMetadata (meta_ : CaptureMetadata P) (frameType : NamingFrameType) (target : Option Text) :
    NamingMetadata :=
  let number (value : Option P.F64) := (value.filter P.isFinite).map P.display
  { target
    filter := trimmed meta_.filter
    date := (night meta_).value.map fun found => P.displayDate found.1
    frameType := some frameType.asStr.toList
    camera := trimmed meta_.camera
    exposure := number meta_.exposureSeconds
    gain := number meta_.gain
    binning := meta_.binningX.bind fun x => meta_.binningY.map fun y =>
      decimal x ++ 'x' :: decimal y
    setTemp := number meta_.setTemperatureC }

/-- The digest an item is routed by: that of the evidence of a file that is neither left out nor
held by its settle checks. -/
def ImportItemRecord.candidate (record : ImportItemRecord P) : Option Text :=
  if record.item.cleared.phase = .settling && record.metadata.isSome then
    record.evidence.bind (·.sha256)
  else none

def ImportItemRecord.digest (record : ImportItemRecord P) : Option Text :=
  record.evidence.bind (·.sha256)

end PlateVault.Import
