import PlateVault.Storage.Records
import PlateVault.View.Basis
import PlateVault.Lib.Escape

/-!
# A Project's Output records

What the catalog keeps of one Project's `Output/`: the observations of its files, its operations and
the copies in flight. A path is recorded by its native bytes, so two spellings of one path are two
keys.
-/

namespace PlateVault.Output

open View (InputKind requireSha256)

/-! ## Recorded paths -/

/-- `Path::components` of a recorded path. -/
def components (path : Text) : List Component :=
  let parts := path.splitOn '/'
  let names := (parts.filter fun part => part ≠ [] && part ≠ ['.']).map fun part =>
    if part = ['.', '.'] then .parentDir else .normal part
  if parts.head? = some ['.'] then .curDir :: names else names

/-- A location-relative path: neither absolute nor leaving its location. -/
def relativePath (path : Text) : Result (List Component) :=
  if path.contains '\x00' then .error (.invalidInput "path encoding belongs to another OS")
  else if path.head? = some '/' || (components path).contains .parentDir then
    .error (.invalidInput "relative path escapes its location")
  else .ok (components path)

/-- `NativePath::from_path` of the folders and file below `Output/`. -/
def fromPath (names : List Text) : Text := ['/'].intercalate names

/-! ## Observations -/

inductive OutputKind
  | finalImage
  | linearIntegration
  | channelProduct
  | calibrationMaster (input : InputKind)
  | other (label : Text)
  deriving DecidableEq, Repr

inductive OutputState
  | settling
  | settled
  | unreadable
  deriving DecidableEq, Repr

/-- How a file came to be in `Output/`. -/
inductive OutputOrigin
  | observed
  | copied
  deriving DecidableEq, Repr

/-- One file of a Project's `Output/`, relative to that folder. -/
structure OutputObservation where
  path : Text
  kind : Option OutputKind
  channel : Option Text
  panelGroupId : Option Uuid
  state : OutputState
  sizeBytes : Nat
  fingerprint : Option ObservationFingerprint
  sha256 : Option Text
  origin : OutputOrigin
  deriving DecidableEq, Repr

def outputPanels : Text := "Panels".toList

def relativeParts (field : String) (path : Text) : Result (List Text) := do
  let parts := (← relativePath path).filterMap fun
    | .normal name => some name
    | _ => none
  Result.require (parts ≠ []) (.invalidInput (field ++ " is empty"))
  return parts

def OutputObservation.validate (observation : OutputObservation) : Result Unit := do
  let parts ← relativeParts "an Output path" observation.path
  let shown := String.ofList observation.path
  Result.require
    (!(observation.panelGroupId.isSome && (parts.length < 3 || parts.head? ≠ some outputPanels)))
    (.invalidInput (shown ++ " is not in a panel's Output/Panels/ folder"))
  Result.require (!(observation.origin = .copied && observation.sha256.isNone))
    (.invalidInput (shown ++ ": Copy to Output records the verified digest"))
  match observation.sha256 with
  | some sha256 => requireSha256 "an Output digest" sha256
  | none => .ok ()
  Result.require (!observation.channel.any fun channel => trim channel = [])
    (.invalidInput (shown ++ ": the channel is blank"))

/-! ## The Project -/

inductive ProjectLifecycle
  | open
  | closing
  | closed
  | archived
  deriving DecidableEq, Repr

namespace ProjectLifecycle

def display : ProjectLifecycle → String
  | .open => "open"
  | .closing => "closing"
  | .closed => "closed"
  | .archived => "archived"

end ProjectLifecycle

inductive ProjectOperationKind
  | apply
  | copyToOutput
  | cleanUp
  | trash
  | archive
  deriving DecidableEq, Repr

def ProjectOperationKind.toText : ProjectOperationKind → String
  | .apply => "apply"
  | .copyToOutput => "copy_to_output"
  | .cleanUp => "clean_up"
  | .trash => "trash"
  | .archive => "archive"

def operationLabel : ProjectOperationKind → String
  | .apply => "Apply"
  | .copyToOutput => "Copy to Output"
  | .cleanUp => "Wrap up's Clean up"
  | .trash => "Wrap up's Trash"
  | .archive => "Archive"

/-- One operation runs per Project: any on an open one, only its archive while Closing. -/
def ProjectLifecycle.admitsOperation : ProjectLifecycle → ProjectOperationKind → Bool
  | .open, _ => true
  | .closing, kind => kind = .archive
  | .closed, _ | .archived, _ => false

structure ProjectOperation where
  id : Uuid
  kind : ProjectOperationKind
  active : Bool
  deriving DecidableEq, Repr

/-- A Copy to Output reserved and journaled, not yet listed. -/
structure OutputCopy where
  operationId : Uuid
  storageOperationId : Uuid
  planned : OutputObservation
  deriving DecidableEq, Repr

/-- What the catalog holds of one Project: its outputs by path key, and each recorded storage
operation's outcome, `none` while it runs. -/
structure Catalog where
  lifecycle : ProjectLifecycle
  operations : List ProjectOperation
  outputs : Text → Option OutputObservation
  copies : List OutputCopy
  storage : Uuid → Option (Option ItemOutcome)

def Catalog.empty : Catalog where
  lifecycle := .open
  operations := []
  outputs := fun _ => none
  copies := []
  storage := fun _ => none

namespace Catalog

variable (c : Catalog)

/-- How many Copy to Output operations the Project recorded, and whether one is running. -/
def copyCount : Nat × Bool :=
  let copies := c.operations.filter fun operation => operation.kind = .copyToOutput
  (copies.length, copies.any (·.active))

def requireOpen : Result Unit :=
  Result.require (c.lifecycle = .open)
    (.invalidInput ("a " ++ c.lifecycle.display ++ " Project's Output is read-only"))

def activeOperation : Option ProjectOperation := c.operations.find? (·.active)

/-- Reserve the Project for one operation, recorded under the fresh `id`. -/
def reserveOperation (id : Uuid) (kind : ProjectOperationKind) : Result Catalog := do
  Result.require (c.lifecycle.admitsOperation kind)
    (.invalidInput ("a " ++ c.lifecycle.display ++ " Project takes no " ++ kind.toText ++
      " operation"))
  match c.activeOperation with
  | some running =>
    .error (.invalidInput (operationLabel running.kind ++
      " is already running on this Project (operation " ++ running.id.hyphenated ++
      "); wait for it to finish"))
  | none => return { c with operations := c.operations ++ [{ id, kind, active := true }] }

def settleOperation (id : Uuid) : Result Catalog :=
  if c.operations.any fun operation => operation.id = id && operation.active then
    .ok { c with operations := c.operations.map fun operation =>
      if operation.id = id && operation.active then { operation with active := false }
      else operation }
  else .error (.notFound ("active Project operation " ++ id.hyphenated))

/-- Insert an observation, or replace the row at its path, of an open Project. -/
def upsert (observation : OutputObservation) : Result Catalog := do
  Result.require (c.lifecycle = .open)
    (.persistenceFailure "a Closed Project's Output is read-only")
  return { c with outputs := Function.update c.outputs observation.path (some observation) }

end Catalog

/-! ## One pass -/

/-- One file a pass found in `Output/`, relative to that folder. -/
structure ScannedOutput where
  path : Text
  panelGroupId : Option Uuid
  state : OutputState
  sizeBytes : Nat
  fingerprint : Option ObservationFingerprint
  deriving DecidableEq, Repr

/-- What a pass found where the Project's `Output/` belongs. -/
inductive OutputFolder
  | walked (files : List ScannedOutput) (unreadable : List Text)
  | absent
  | unreadable
  deriving DecidableEq, Repr

structure OutputScan where
  copies : Nat
  folder : OutputFolder

/-- A found file as it now reads: a recorded one keeps the user's Kind and Channel, and its verified
digest while its bytes are the copy's. -/
def observed (recorded : Option OutputObservation) (file : ScannedOutput) : OutputObservation :=
  let copied := recorded.filter fun recorded =>
    recorded.origin = .copied && file.fingerprint.isSome && recorded.fingerprint = file.fingerprint
  { path := file.path
    kind := recorded.bind (·.kind)
    channel := recorded.bind (·.channel)
    panelGroupId := file.panelGroupId
    state := file.state
    sizeBytes := file.sizeBytes
    fingerprint := file.fingerprint
    sha256 := copied.bind (·.sha256)
    origin := if copied.isSome then .copied else .observed }

def belowAny (path : List Component) (folders : List (List Component)) : Bool :=
  folders.any fun folder => folder.isPrefixOf path

/-- A recorded file the pass did not find: unknown below an unreadable entry, else gone. -/
def missed (unknown : List (List Component)) (recorded : OutputObservation) :
    Option OutputObservation :=
  if (relativePath recorded.path).toOption.any fun path => belowAny path unknown then
    some { recorded with state := .unreadable }
  else none

/-- The rows after a pass that found `files`. -/
def merged (outputs : Text → Option OutputObservation) (files : List ScannedOutput)
    (unknown : List (List Component)) (path : Text) : Option OutputObservation :=
  match files.reverse.find? fun file => file.path = path with
  | some file => some (observed (outputs path) file)
  | none => (outputs path).bind (missed unknown)

def applyScan (outputs : Text → Option OutputObservation) :
    OutputFolder → Result (Text → Option OutputObservation)
  | .unreadable => .ok fun path => (outputs path).map fun row => { row with state := .unreadable }
  | .absent => .ok (merged outputs [] [])
  | .walked files unreadable => do
    let unknown ← unreadable.mapM relativePath
    files.forM fun file => (observed (outputs file.path) file).validate
    return merged outputs files unknown

inductive OutputScanRecord
  | recorded
  | stale
  deriving DecidableEq, Repr

namespace Catalog

variable (c : Catalog)

def recordOutputScan (scan : OutputScan) : Result (Catalog × OutputScanRecord) := do
  c.requireOpen
  if c.copyCount.2 || c.copyCount.1 ≠ scan.copies then return (c, .stale)
  else return ({ c with outputs := ← applyScan c.outputs scan.folder }, .recorded)

/-- Set the Kind and Channel of the file at `path`. -/
def setOutputDetails (path : Text) (kind : Option OutputKind) (channel : Option Text) :
    Result Catalog := do
  c.requireOpen
  let row ← Result.orElse (c.outputs path)
    (.notFound (String.ofList path ++ " in the Project's Output/"))
  let observation := { row with kind, channel }
  observation.validate
  c.upsert observation

/-! ## Copy to Output -/

/-- Reserve the Project for one Copy to Output and record its copy; `id` and `storage` are fresh. -/
def beginOutputCopy (id storage : Uuid) (source : EntryEvidence) (planned : OutputObservation)
    (offered : Option OutputKind) : Result Catalog := do
  Result.require (planned.origin = .copied && planned.sha256.isSome && planned.sha256 = source.sha256 &&
      planned.fingerprint.isNone)
    (.invalidInput "a Copy to Output lists the source's verified copy")
  planned.validate
  let reserved ← c.reserveOperation id .copyToOutput
  Result.require (c.outputs planned.path).isNone
    (.invalidInput ("Output/" ++ String.ofList planned.path ++
      " already exists; choose another name"))
  let planned := { planned with kind := planned.kind <|> offered }
  return { reserved with
    copies := reserved.copies ++ [{ operationId := id, storageOperationId := storage, planned }]
    storage := Function.update reserved.storage storage (some none) }

/-- Settle a Copy to Output once its storage operation has settled, and list a verified copy. -/
def finishOutputCopy (id : Uuid) (installed : Option ObservationFingerprint) :
    Result (Catalog × Option OutputObservation) := do
  let copy ← Result.orElse (c.copies.find? fun copy => copy.operationId = id)
    (.notFound ("Copy to Output " ++ id.hyphenated))
  let state ← Result.orElse (c.storage copy.storageOperationId)
    (.persistenceFailure ("Copy to Output " ++ id.hyphenated ++ " names no storage item"))
  let outcome ← Result.orElse state
    (.invalidInput ("Copy to Output " ++ id.hyphenated ++ " is still copying"))
  let (listing, listed) ←
    if outcome = .copied then do
      let installed ← Result.orElse installed
        (.invalidInput "a verified copy is listed with its installed fingerprint")
      let observation := { copy.planned with
        sizeBytes := installed.sizeBytes, fingerprint := some installed, state := .settled }
      observation.validate
      pure (← c.upsert observation, some observation)
    else pure (c, none)
  let left := { listing with copies := listing.copies.filter fun copy => copy.operationId ≠ id }
  return (← left.settleOperation id, listed)

end Catalog

end PlateVault.Output
