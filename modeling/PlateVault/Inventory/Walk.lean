import PlateVault.Lib.Halting
import PlateVault.Library.Observations

/-!
# The walk of a location's folders

A scan lists the folders below its scope one after the other, looks every entry up and reads the
headers of supported files, while the tree may change between any two system calls: a `Disk` is
what each call answers at each time. What the walk cannot vouch for is an issue and an incomplete
scope.
-/

namespace PlateVault.Inventory

open Library

/-! ## What the system answers -/

inductive IoKind
  | notFound
  | permissionDenied
  | other
  deriving DecidableEq, Repr

structure IoError where
  kind : IoKind
  message : String
  deriving DecidableEq, Repr

/-- Same-session continuity evidence for one directory entry. -/
structure Stamp where
  device : Option Nat
  file : Option Nat
  created : Option Int
  deriving DecidableEq, Repr

def Stamp.sameDevice (left right : Stamp) : Bool := left.device = right.device

/-- An entry's no-follow metadata; `modified` is the time in nanoseconds, where there is one. -/
structure Metadata where
  link : Bool
  isDir : Bool
  isFile : Bool
  stamp : Stamp
  len : Nat
  modified : Option Int
  deriving DecidableEq, Repr

/-- The entries of a directory, read one after the other until an error interrupted it. -/
structure Listing where
  names : List Text
  interrupted : Option IoError
  deriving DecidableEq, Repr

inductive Extracted (M : Type)
  | raw (metadata : M)
  | declined
  | io (message : String)
  | parse (message : String)

inductive VolumeKind
  | localDisk
  | removable
  | network
  deriving DecidableEq, Repr

/-- Root identity plus its same-session continuity stamp. -/
structure RootObservation where
  identity : FileIdentity
  stamp : Stamp
  kind : VolumeKind
  deriving DecidableEq, Repr

/-- What each call answers at each time; `deliver` is the answer of the scan's `progress`. -/
structure Disk (R : Reader) where
  metadata : Nat → RelPath → Except IoError Metadata
  readDir : Nat → RelPath → Except IoError Listing
  extract : Nat → RelPath → ImageFormat → Extracted R.Metadata
  fileId : Nat → RelPath → Except IoError (Option String)
  observe : Nat → Result RootObservation
  canceled : Nat → Bool
  deliver : Nat → ScanBatch R → Result Unit

/-! ## Entries -/

/-- `Path::extension` of an entry's name. -/
def extension (name : Text) : Option Text :=
  let after := (name.reverse.takeWhile (· ≠ '.')).reverse
  if after.length + 1 < name.length then some after else none

/-- Supported header format, decided by the adapters' own extension rules. -/
def formatOf (path : RelPath) : ImageFormat :=
  match path.getLast?.bind extension with
  | none => .unsupported
  | some extension =>
    let extension := String.ofList (extension.map Char.toLower)
    if extension = "fits" || extension = "fit" || extension = "fts" then .fits
    else if extension = "xisf" then .xisf
    else .unsupported

/-- One entry by the walker's rules, from its no-follow metadata. -/
inductive Kind
  | link
  | folder (stamp : Stamp)
  | foreignVolume
  | file (format : ImageFormat)
  deriving DecidableEq, Repr

def kind (entry : Metadata) (relative : RelPath) (root : Stamp) : Kind :=
  if entry.link then .link
  else if entry.isDir then
    if entry.stamp.sameDevice root then .folder entry.stamp else .foreignVolume
  else if entry.isFile then .file (formatOf relative)
  else .file .unsupported

/-- A folder the walk entered or listed, with the stamp it had then; `id` tells two such records
apart. -/
inductive Folder
  | root (id : Nat) (stamp : Stamp)
  | child (parent : Folder) (name : Text) (id : Nat) (stamp : Stamp)
  deriving DecidableEq, Repr

namespace Folder

def relative : Folder → RelPath
  | .root _ _ => []
  | .child parent name _ _ => parent.relative ++ [name]

def stamp : Folder → Stamp
  | .root _ stamp => stamp
  | .child _ _ _ stamp => stamp

end Folder

def shareUnmounted : String :=
  "the network share of this location is not mounted; its folder is not on a network volume"

def ioAvailability (error : IoError) : Availability :=
  match error.kind with
  | .notFound => .offline
  | _ => .unreadable

/-- `LibraryError::from_io`. -/
def ioError (error : IoError) : LibraryError :=
  match error.kind with
  | .permissionDenied => .accessDenied error.message
  | .notFound => .notFound error.message
  | .other => .sourceUnavailable error.message

/-! ## The walk's state -/

structure ScanProgress where
  discovered : Nat
  metadataRead : Nat
  unsupported : Nat
  unreadable : Nat
  completeDirectories : Nat
  deriving DecidableEq, Repr

structure State (R : Reader) where
  now : Nat
  allocated : Nat
  pending : ScanBatch R
  totals : ScanProgress
  files : List (ScanFile R)
  issues : List ScanIssue
  incomplete : List RelPath
  excluded : List Folder

def State.start (R : Reader) : State R where
  now := 0
  allocated := 0
  pending := ⟨[], []⟩
  totals := ⟨0, 0, 0, 0, 0⟩
  files := []
  issues := []
  incomplete := []
  excluded := []

inductive Halt
  | canceled
  | rootLost (issue : ScanIssue)
  | callback (error : LibraryError)
  | failed (error : LibraryError)

variable {R : Reader} {ε : Type}

abbrev Walk (R : Reader) := Halting (State R) Halt

def tick : Halting (State R) ε Nat :=
  modifyGet fun s => (s.now, { s with now := s.now + 1 })

section

variable (disk : Disk R)

def symlinkMetadata (path : RelPath) : Halting (State R) ε (Except IoError Metadata) := do
  return disk.metadata (← tick) path

/-! ## Folders that change -/

/-- Whether the entry is still the real folder recorded with its stamp. -/
def stillFolder (folder : Folder) : Walk R Bool := do
  match ← symlinkMetadata disk folder.relative with
  | .ok entry => return !entry.link && entry.isDir && entry.stamp = folder.stamp
  | .error _ => return false

/-- The topmost folder from the root down to `folder` that is no longer the real directory the
walk recorded, if any. -/
def changedFolder (folder : Folder) : Walk R (Option Folder) := do
  let above ← match folder with
    | .root _ _ => pure none
    | .child parent _ _ _ => changedFolder parent
  match above with
  | some changed => return some changed
  | none => return if ← stillFolder disk folder then none else some folder

end

/-- Record an issue and exclude its subtree from absence reconciliation. -/
def exclude (relativePath : RelPath) (reason : String) (availability : Availability) :
    Walk R PUnit :=
  modify fun s => { s with
    incomplete := s.incomplete ++ [relativePath]
    pending := { s.pending with
      issues := s.pending.issues ++ [{ relativePath, reason, availability }] } }

def markExcluded (folder : Folder) : Walk R PUnit :=
  modify fun s => { s with excluded := folder :: s.excluded }

/-- Exclude a folder once; later failures below it are already uncertain. -/
def excludeFolder (folder : Folder) (reason : String) (availability : Availability) :
    Walk R PUnit := do
  let s ← get
  if folder ∈ s.excluded then pure ()
  else do
    markExcluded folder
    exclude folder.relative reason availability

def count (f : ScanProgress → ScanProgress) : Walk R PUnit :=
  modify fun s => { s with totals := f s.totals }

def countUnreadable : Walk R PUnit := count fun totals =>
  { totals with unreadable := totals.unreadable + 1 }

/-! ## The root -/

/-- Refuse an observed root that is not the registered volume and folder. -/
def compare (location : Location) (volumeKind : VolumeKind) (observed : RootObservation) :
    Result Unit := do
  let recorded := location.identity
  match validateVolume recorded.volume with
  | .error _ => .error (.identityConflict "registered volume identity is unqualified")
  | .ok () =>
    let volumeName := fun (volume : VolumeIdentity) =>
      volume.filesystem ++ " " ++ volume.stableId.getD "?"
    let refusal := if recorded.volume ≠ observed.identity.volume then
        some ("location volume " ++ volumeName observed.identity.volume ++
          " is not the registered volume " ++ volumeName recorded.volume)
      else if !recorded.volume.fileIdsStable || recorded.fileId.isNone ||
          !fileIdsMatch recorded.fileId observed.identity.fileId then
        some "location root folder is not the registered folder"
      else none
    match refusal with
    | none => .ok ()
    | some refusal =>
      if volumeKind = .network && observed.kind ≠ .network then
        .error (.sourceUnavailable shareUnmounted)
      else .error (.identityConflict refusal)

def rootIssue (error : LibraryError) : ScanIssue where
  relativePath := []
  reason := "location root failed final revalidation: " ++ error.display
  availability := match error with
    | .sourceUnavailable _ | .notFound _ => .offline
    | .accessDenied _ => .unreadable
    | _ => .identityConflict

/-- The location being walked, with what its root was when the walk began. -/
structure Anchor where
  location : Location
  volumeKind : VolumeKind
  root : RootObservation
  batchSize : Nat

section

variable (disk : Disk R)

def observeRoot (location : Location) (volumeKind : VolumeKind) :
    Halting (State R) ε (Result RootObservation) := do
  let observed := disk.observe (← tick)
  return do
    let observed ← observed
    compare location volumeKind observed
    return observed

variable (anchor : Anchor)

/-- Same-session continuity of the root validated at the start. -/
def checkRoot : Walk R PUnit := do
  match ← symlinkMetadata disk [] with
  | .error error => throw (.rootLost
      { relativePath := []
        reason := "location root became unavailable during the scan: " ++ error.message
        availability := .offline })
  | .ok entry =>
    if entry.link || !entry.isDir || entry.stamp ≠ anchor.root.stamp then do
      -- an unmounted share leaves its mount point folder behind on a local volume
      let unmounted ← if entry.isDir && !entry.link && anchor.volumeKind = .network then do
          let observed := disk.observe (← tick)
          pure (observed.toOption.any (·.kind ≠ .network))
        else pure false
      if unmounted then
        throw (.rootLost
          { relativePath := [], reason := shareUnmounted ++ " during the scan"
            availability := .offline })
      else throw (.rootLost
          { relativePath := [], reason := "location root was replaced during the scan"
            availability := .identityConflict })
    else pure ()

def checkCanceled : Walk R PUnit := do
  if disk.canceled (← tick) then throw .canceled else pure ()

/-- The pending batch, which becomes part of what the scan returns. -/
def takePending : Walk R (ScanBatch R) :=
  modifyGet fun s => (s.pending, { s with
    pending := ⟨[], []⟩
    files := s.files ++ s.pending.files
    issues := s.issues ++ s.pending.issues })

/-- Deliver the pending batch once cancellation and root continuity pass. -/
def flush : Walk R PUnit := do
  checkCanceled disk
  checkRoot disk anchor
  let batch ← takePending
  match disk.deliver (← tick) batch with
  | .ok () => pure ()
  | .error error => throw (.callback error)

/-! ## Listing a folder -/

/-- Why a directory below the scan scope could not serve as listing evidence. -/
structure ListingFailure where
  reason : String
  availability : Availability
  error : LibraryError
  keepNames : Bool

namespace ListingFailure

def changed : ListingFailure where
  reason := "directory changed during the scan"
  availability := .unreadable
  error := .sourceUnavailable "directory changed during the scan"
  keepNames := false

def io (what : String) (error : IoError) (keepNames : Bool) : ListingFailure where
  reason := "directory " ++ what ++ ": " ++ error.message
  availability := ioAvailability error
  error := ioError error
  keepNames := keepNames

end ListingFailure

/-- The names read of a directory, and what stands in the way of their being its contents. -/
def readFolder (folder : Folder) : Walk R (List Text × Option (Folder × ListingFailure)) := do
  match ← changedFolder disk folder with
  | some changed => return ([], some (changed, .changed))
  | none =>
    match disk.readDir (← tick) folder.relative with
    | .error error => return ([], some (folder, .io "unreadable" error false))
    | .ok listing =>
      -- a listing taken from a directory swapped mid-read, or through a swapped folder above it,
      -- is not evidence of its contents
      match ← changedFolder disk folder with
      | some changed => return (listing.names, some (changed, .changed))
      | none => return (listing.names, listing.interrupted.map fun error =>
          (folder, .io "listing interrupted" error true))

/-- Sorted entry names of a directory, or `none` when it was excluded. -/
def list (folder : Folder) (isScope : Bool) : Walk R (Option (List Text)) := do
  match ← readFolder disk folder with
  | (names, none) => do
    count fun totals => { totals with completeDirectories := totals.completeDirectories + 1 }
    return some (names.mergeSort (· ≤ ·))
  | (names, some (changed, failure)) =>
    if isScope then throw (.failed failure.error)
    else do
      countUnreadable
      excludeFolder changed failure.reason failure.availability
      -- entries read before an interruption are still observations
      return if failure.keepNames then some (names.mergeSort (· ≤ ·)) else none

/-! ## Entries -/

/-- Refuse an entry when a folder from the root down to `parent` changed since the walk recorded
it. -/
def aboveChanged (parent : Folder) : Walk R Bool := do
  match ← changedFolder disk parent with
  | none => return false
  | some changed => do
    countUnreadable
    excludeFolder changed ListingFailure.changed.reason ListingFailure.changed.availability
    return true

def excludeUnreadable (relative : RelPath) (reason : String) : Walk R PUnit := do
  countUnreadable
  exclude relative reason .unreadable

/-- Whether the entry is still the regular file observed before its header was read. -/
def sameFile (before : Metadata) (after : Except IoError Metadata) : Bool :=
  after.toOption.any fun after => !after.link && after.isFile && after.stamp = before.stamp &&
    after.len = before.len && after.modified = before.modified

def pend (file : ScanFile R) : Walk R PUnit :=
  modify fun s => { s with pending := { s.pending with files := s.pending.files ++ [file] } }

/-- A readable header counts while the entry and every folder above it are unchanged. -/
def readUnchanged (parent : Folder) (relative : RelPath) (before : Metadata) (format : ImageFormat)
    (metadata : R.Metadata) : Walk R PUnit := do
  let after ← symlinkMetadata disk relative
  if !sameFile before after then
    excludeUnreadable relative "file changed while its header was read"
  else match before.modified with
  | none => excludeUnreadable relative "modification time unavailable"
  | some modifiedNs =>
    match disk.fileId (← tick) relative with
    | .error error => excludeUnreadable relative ("file ID unreadable: " ++ error.message)
    | .ok fileId =>
      if ← aboveChanged disk parent then pure ()
      else do
        count fun totals => { totals with metadataRead := totals.metadataRead + 1 }
        pend
          { relativePath := relative
            fingerprint :=
              { identity := ⟨anchor.root.identity.volume, fileId⟩, sizeBytes := before.len
                modifiedNs, contentSha256 := none }
            format, metadata }

def read (parent : Folder) (relative : RelPath) (before : Metadata) (format : ImageFormat) :
    Walk R PUnit := do
  -- the adapters open by path: never open one through a folder that changed
  if ← aboveChanged disk parent then pure ()
  else match disk.extract (← tick) relative format with
  | .raw metadata => readUnchanged disk anchor parent relative before format metadata
  | .declined => excludeUnreadable relative "metadata unreadable: the adapter declined the file"
  | .io message => excludeUnreadable relative ("header unreadable: " ++ message)
  | .parse message => excludeUnreadable relative ("metadata unreadable: " ++ message)

def allocate {ε : Type} : Halting (State R) ε Nat :=
  modifyGet fun s => (s.allocated, { s with allocated := s.allocated + 1 })

/-- What looking an entry up does; the folder to enter, where it is one. -/
def lookUp (parent : Folder) (name : Text) : Walk R (Option Folder) := do
  let relative := parent.relative ++ [name]
  match ← symlinkMetadata disk relative with
  | .error error => do
    countUnreadable
    exclude relative ("entry unreadable: " ++ error.message) (ioAvailability error)
    return none
  | .ok entry =>
    match kind entry relative anchor.root.stamp with
    | .link => do
      exclude relative "link or junction not followed" .unreadable
      return none
    | .folder stamp => return some (.child parent name (← allocate) stamp)
    | .foreignVolume => do
      exclude relative "a different volume is mounted here; not traversed" .identityConflict
      return none
    | .file format => do
      count fun totals => { totals with discovered := totals.discovered + 1 }
      match format with
      | .unsupported => count fun totals => { totals with unsupported := totals.unsupported + 1 }
      | format => read disk anchor parent relative entry format
      return none

def visit (parent : Folder) (name : Text) : Walk R (Option Folder) := do
  let entered ← lookUp disk anchor parent name
  let s ← get
  if s.pending.files.length + s.pending.issues.length ≥ anchor.batchSize then
    flush disk anchor
  return entered

def visitAll (parent : Folder) : List Text → Walk R (List Folder)
  | [] => return []
  | name :: names => do
    checkCanceled disk
    let entered ← visit disk anchor parent name
    let rest ← visitAll parent names
    return entered.toList ++ rest

/-! ## The walk -/

/-- The folders of the stack one after the other; `false` where `fuel` is too little for them. -/
def walk (scope : Folder) : Nat → List Folder → Walk R Bool
  | 0, _ => return false
  | _ + 1, [] => return true
  | fuel + 1, directory :: stack => do
    checkCanceled disk
    match ← list disk directory (directory = scope) with
    | none => walk scope fuel stack
    | some names => do
      let children ← visitAll disk anchor directory names
      walk scope fuel (children ++ stack)

/-- Full remount-stable revalidation plus same-session continuity guard the final batch and the
completeness claim. -/
def finish : Walk R PUnit := do
  match ← observeRoot disk anchor.location anchor.volumeKind with
  | .error error => throw (.rootLost (rootIssue error))
  | .ok _ => do
    let s ← get
    if s.pending.files.isEmpty && s.pending.issues.isEmpty then checkRoot disk anchor
    else flush disk anchor

def run (scope : Folder) (fuel : Nat) : Walk R Bool := do
  if ← walk disk anchor scope fuel [scope] then do
    finish disk anchor
    return true
  else return false

end

/-! ## A scan -/

section

variable (disk : Disk R)

/-- Descend to the scan scope without following links or leaving the volume. -/
def enterScope (root : Stamp) (folder : Folder) :
    RelPath → Halting (State R) LibraryError Folder
  | [] => return folder
  | part :: parts => do
    match ← symlinkMetadata disk (folder.relative ++ [part]) with
    | .error error => throw (ioError error)
    | .ok entry =>
      if entry.link then
        throw (.invalidInput "scan scope passes through a link or junction")
      else if !entry.isDir then throw (.invalidInput "scan scope is not a directory")
      else if !entry.stamp.sameDevice root then
        throw (.identityConflict "scan scope is on a different volume")
      else do
        let id ← allocate
        enterScope root (.child folder part id entry.stamp) parts

/-- What a scan needs before it walks: its root observed, and its scope entered. -/
def begin (location : Location) (volumeKind : VolumeKind) (scope : RelPath) (batchSize : Nat) :
    Halting (State R) LibraryError (Anchor × Folder) := do
  match ← observeRoot disk location volumeKind with
  | .error error => throw error
  | .ok root => do
    let id ← allocate
    let folder ← enterScope disk root.stamp (.root id root.stamp) scope
    return (⟨location, volumeKind, root, max batchSize 1⟩, folder)

/-- What a scan returns: its observation and what it counted, and the time it ended at. -/
structure Scanned (R : Reader) where
  observation : ScanObservation R
  progress : ScanProgress
  ended : Nat

def completed (anchor : Anchor) (scope : RelPath) (s : State R) : Scanned R where
  observation :=
    { locationId := anchor.location.id, rootIdentity := anchor.root.identity
      files := s.files, issues := s.issues
      completeScopes := [scope], incompleteScopes := s.incomplete
      state := if s.incomplete.isEmpty then .completed else .partially }
  progress := s.totals
  ended := s.now

def halted (anchor : Anchor) (scope : RelPath) (s : State R) (issues : List ScanIssue)
    (state : ScanState) : Scanned R where
  observation :=
    { locationId := anchor.location.id, rootIdentity := anchor.root.identity
      files := s.files, issues := s.issues ++ issues
      completeScopes := [], incompleteScopes := s.incomplete ++ [scope], state }
  progress := s.totals
  ended := s.now

/-- `scan`; `none` where `fuel` is too little for the folders the walk finds. -/
def scan (location : Location) (volumeKind : VolumeKind) (scope : Option RelPath)
    (batchSize fuel : Nat) : Option (Result (Scanned R)) :=
  match relativePath (scope.getD []) with
  | .error error => some (.error error)
  | .ok scope =>
    match (begin disk location volumeKind scope batchSize) (State.start R) with
    | (.error error, _) => some (.error error)
    | (.ok (anchor, folder), s) =>
      match (run disk anchor folder fuel) s with
      | (.ok false, _) => none
      | (.ok true, s) => some (.ok (completed anchor scope s))
      | (.error .canceled, s) => some (.ok (halted anchor scope s [] .canceled))
      | (.error (.rootLost issue), s) => some (.ok (halted anchor scope s [issue] .failed))
      | (.error (.callback error), _) => some (.error error)
      | (.error (.failed error), _) => some (.error error)

end

end PlateVault.Inventory
