import PlateVault.Inventory.Walk
import PlateVault.Lib.Prog
import PlateVault.Storage.Records

/-!
# Re-verification of recorded entries

Whether an entry is still the one that was reviewed, and holds the bytes it had then. Every look at
the disk answers for itself, so anything may change between two of them; an entry with a registered
root is reached from it without following a link.
-/

namespace PlateVault.Custody

open Inventory (IoKind Listing Metadata)

/-- `Path::display`. -/
def display (path : PathBuf) : String :=
  let texts := path.parts.map fun
    | .curDir => ['.']
    | .parentDir => ['.', '.']
    | .normal name => name
  String.ofList ((if path.absolute then ['/'] else []) ++ ['/'].intercalate texts)

inductive TrashUnsupported
  | deletesImmediately
  | noTrash
  | readOnly
  | unqualified
  deriving DecidableEq, Repr

inductive TrashSupport
  | supported
  | unsupported (reason : TrashUnsupported) (detail : String)
  deriving DecidableEq, Repr

inductive Check
  | unavailable (detail : String)
  | changed (detail : String)
  deriving DecidableEq, Repr

def Check.detail : Check → String
  | .unavailable detail => detail
  | .changed detail => detail

/-- Why a folder could not be entered as itself: a link, a junction or no folder, or an error. -/
inductive Unentered
  | notAFolder
  | io (error : Inventory.IoError)
  deriving DecidableEq, Repr

/-- One entry a folder lists, and whether it was a real folder then. -/
structure Listed where
  name : Text
  folder : Bool
  deriving DecidableEq, Repr

structure Folder where
  handle : Nat
  path : PathBuf
  deriving DecidableEq, Repr

/-- A call of the system, with the handles of opened folders and files by number. -/
inductive Look
  | support (path : PathBuf) (sizeBytes : Nat)
  | beforeMove
  | enter (root path : PathBuf)
  | holdsPath (below : Nat)
  | symlinkMetadata (path : PathBuf)
  | probeFingerprint (path : PathBuf)
  | linkFingerprint (path : PathBuf)
  | openEntry (below : Nat)
  | openFile (path : PathBuf)
  | fileMetadata (file : Nat)
  | openedFileId (file : Nat)
  | readToEnd (file : Nat)
  | openFolder (path : PathBuf)
  | childFolder (folder : Folder) (name : Text)
  | listFolder (folder : Folder)
  | fileStartsWith (folder : Folder) (name : Text) (magic : List Nat)
  | readDir (path : PathBuf)
  | moveToTrash (path : PathBuf)
  | removeFile (path : PathBuf)
  | removeDir (path : PathBuf)

def Look.changes : Look → Bool
  | .moveToTrash _ | .removeFile _ | .removeDir _ => true
  | _ => false

abbrev Look.Answer : Look → Type
  | .support .. => TrashSupport
  | .beforeMove => Except ItemReason Unit
  | .enter .. | .openEntry _ => Except Check Nat
  | .holdsPath _ => Bool
  | .symlinkMetadata _ | .fileMetadata _ => Except Inventory.IoError Metadata
  | .probeFingerprint _ => Result ObservationFingerprint
  | .linkFingerprint _ => Result (ObservationFingerprint × NativePath)
  | .openFile _ => Except Inventory.IoError Nat
  | .openedFileId _ => Option String
  | .readToEnd _ => Except Inventory.IoError Text
  | .openFolder _ | .childFolder .. => Except Unentered Nat
  | .listFolder _ => Except Inventory.IoError (List Listed)
  | .fileStartsWith .. => Bool
  | .readDir _ => Except Inventory.IoError Listing
  | .moveToTrash _ => Except String Unit
  | .removeFile _ | .removeDir _ => Except Inventory.IoError Unit

abbrev Looks (α : Type) := Prog Look Look.Answer α

abbrev Checks (α : Type) := ExceptT Check (Prog Look Look.Answer) α

def see (e : Look) : Looks e.Answer := Prog.act e

def look (e : Look) : Checks e.Answer := ExceptT.lift (see e)

def ensure (condition : Bool) (check : Check) : Checks Unit :=
  if condition then pure () else throw check

/-! ## Checks -/

def unavailable (path : PathBuf) (error : Inventory.IoError) : Check :=
  .unavailable (display path ++ " cannot be read: " ++ error.message)

def folderChanged (path : PathBuf) : Check :=
  .changed ("a folder above " ++ display path ++
    " changed while it was checked; links are not followed")

def orCheck {ε α : Type} (answer : Except ε α) (check : ε → Check) : Checks α :=
  match answer with
  | .ok a => pure a
  | .error error => throw (check error)

/-- The folders between `root` and the entry, entered without following a link. -/
def enterBelow (root : NativePath) (path : PathBuf) : Checks Nat := do
  let root ← orCheck root.toPathBuf fun error => .unavailable (error.display ++ ": " ++ display path)
  orCheck (← look (.enter root path)) id

def enterRoot (root : Option NativePath) (path : PathBuf) : Checks (Option Nat) :=
  match root with
  | none => pure none
  | some root => do return some (← enterBelow root path)

def stillBelow (below : Option Nat) (path : PathBuf) : Checks Unit :=
  match below with
  | none => pure ()
  | some below => do ensure (← look (.holdsPath below)) (folderChanged path)

/-- `check` observes the entry by its path alone, below its root. -/
def rootedCheck {α : Type} (root : Option NativePath) (path : PathBuf) (check : Checks α) :
    Checks α := do
  let below ← enterRoot root path
  let checked ← check
  stillBelow below path
  return checked

def linkHolds (path : PathBuf) (recorded : ObservationFingerprint) (target : NativePath) :
    Checks Unit := do
  let metadata ← orCheck (← look (.symlinkMetadata path)) (unavailable path)
  ensure metadata.link (.changed (display path ++ " is no longer a link"))
  let (observed, observedTarget) ← orCheck (← look (.linkFingerprint path)) fun error =>
    .unavailable (display path ++ ": " ++ error.display)
  ensure (observedTarget = target) (.changed (display path ++ " points somewhere else now"))
  ensure (observed.equivalent recorded) (.changed (display path ++ " is not the reviewed link"))

structure Expect where
  identity : FileIdentity
  sizeBytes : Nat
  modifiedNs : Option Int
  root : Option NativePath

def Expect.recorded (fingerprint : ObservationFingerprint) : Expect where
  identity := fingerprint.identity
  sizeBytes := fingerprint.sizeBytes
  modifiedNs := some fingerprint.modifiedNs
  root := none

def Expect.source (source : EntryEvidence) : Expect :=
  { Expect.recorded source.fingerprint with root := source.root }

def sameStats (left right : Metadata) : Bool := left.len = right.len && left.modified = right.modified

/-- Whether two no-follow observations are the same directory entry, on Unix. -/
def sameEntry (left right : Metadata) : Bool :=
  left.stamp.device = right.stamp.device && left.stamp.file = right.stamp.file &&
    right.link = left.link

/-- Whether an opened handle is the inspected entry and, where file IDs are stable, holds the
recorded one. -/
def handleIs (file : Nat) (inspected : Metadata) (identity : FileIdentity) : Checks Bool := do
  match ← look (.fileMetadata file) with
  | .error _ => return false
  | .ok handle =>
    if !sameEntry inspected handle then return false
    else if !identity.volume.fileIdsStable then return true
    else
      let opened ← look (.openedFileId file)
      return opened.isSome && fileIdsMatch identity.fileId opened

/-- A regular file opened through a handle proven to be the expected entry. -/
structure Opened where
  file : Nat
  before : Metadata
  below : Option Nat

def openUnchanged (path : PathBuf) (expect : Expect) : Checks Opened := do
  let below ← enterRoot expect.root path
  let before ← orCheck (← look (.symlinkMetadata path)) (unavailable path)
  ensure (!before.link && before.isFile) (.changed (display path ++ " is no longer a regular file"))
  let probed ← orCheck (← look (.probeFingerprint path)) fun error =>
    .unavailable (display path ++ ": " ++ error.display)
  ensure (sameIdentity probed.identity expect.identity)
    (.changed (display path ++ " is not the reviewed entry"))
  ensure (probed.sizeBytes = expect.sizeBytes &&
      expect.modifiedNs.all fun modified => probed.modifiedNs = modified)
    (.changed (display path ++ " changed size or modification time since its review"))
  let file ← match below with
    | some below => do orCheck (← look (.openEntry below)) id
    | none => do orCheck (← look (.openFile path)) (unavailable path)
  ensure (← handleIs file before expect.identity)
    (.changed (display path ++ " was replaced while it was opened"))
  return ⟨file, before, below⟩

abbrev Observes (α : Type) := ExceptT LibraryError (Prog Look Look.Answer) α

def conflict {α : Type} (check : Checks α) : Observes α :=
  ExceptT.mk do return (← ExceptT.run check).mapError fun check => .identityConflict check.detail

/-- `LibraryError::from_io`. -/
def fromIo (error : Inventory.IoError) : LibraryError :=
  match error.kind with
  | .permissionDenied => .accessDenied error.message
  | .notFound => .notFound error.message
  | .other => .sourceUnavailable error.message

section Digests

variable (digest : Text → Text)

/-- The SHA-256 of a regular file's bytes, read through the handle of the expected entry. -/
def readUnchanged (path : PathBuf) (expect : Expect) : Checks Text := do
  let opened ← openUnchanged path expect
  let bytes ← orCheck (← look (.readToEnd opened.file)) (unavailable path)
  let readStats ← orCheck (← look (.fileMetadata opened.file)) (unavailable path)
  let after ← orCheck (← look (.symlinkMetadata path)) (unavailable path)
  ensure (sameStats opened.before readStats && sameEntry opened.before after &&
      sameStats opened.before after)
    (.changed (display path ++ " changed while it was read"))
  stillBelow opened.below path
  return digest bytes

/-- The entry at a path, a file by its bytes; with a root it is reached from there. -/
def observe (path : PathBuf) (root : Option NativePath) : Observes EntryEvidence := do
  liftM (Result.require path.absolute (.invalidInput "custody paths must be absolute"))
  let metadata ← liftM ((← conflict (rootedCheck root path (look (.symlinkMetadata path)))).mapError
    fromIo)
  if metadata.link then
    let (fingerprint, target) ← liftM (← conflict (rootedCheck root path (look (.linkFingerprint path))))
    return { path := .fromPath path, root, kind := .link target, fingerprint, sha256 := none }
  else
    let fingerprint ← liftM (← ExceptT.lift (see (.probeFingerprint path)))
    let sha256 ← conflict (readUnchanged digest path { Expect.recorded fingerprint with root })
    return { path := .fromPath path, root, kind := .file, fingerprint, sha256 := some sha256 }

/-- Whether the reviewed entry is still at its path, without reading its bytes. -/
def inPlace (source : EntryEvidence) : Looks Bool :=
  match source.path.toPathBuf with
  | .error _ => pure false
  | .ok path => do
    let checked ← ExceptT.run (rootedCheck source.root path (match source.kind with
      | .file => do
        ensure ((← look (.probeFingerprint path)).toOption.any fun observed =>
            observed.equivalent source.fingerprint)
          (.changed (display path ++ " is not the reviewed entry"))
      | .link target => linkHolds path source.fingerprint target))
    return checked.isOk

def pathOf (path : NativePath) : Except ItemReason PathBuf :=
  path.toPathBuf.mapError fun error => { code := .sourceUnavailable, detail := error.display }

/-- The reviewed identity and, for a file, the reviewed SHA-256. -/
def sourceCheck (source : EntryEvidence) (path : PathBuf) : Checks Unit :=
  match source.kind with
  | .link target => rootedCheck source.root path (linkHolds path source.fingerprint target)
  | .file => do
    let found ← readUnchanged digest path (.source source)
    ensure (some found = source.sha256)
      (.changed (display path ++ " no longer holds its reviewed bytes (SHA-256 differs)"))

def verifySource (source : EntryEvidence) : Looks (Except ItemReason Unit) :=
  match pathOf source.path with
  | .error reason => pure (.error reason)
  | .ok path => do
    match ← ExceptT.run (sourceCheck digest source path) with
    | .ok () => return .ok ()
    | .error (.unavailable detail) => return .error { code := .sourceUnavailable, detail }
    | .error (.changed detail) => return .error { code := .sourceDrift, detail }

def verifyKept (kept : KeptCopy) : Looks (Except ItemReason Unit) :=
  match pathOf kept.path with
  | .error reason => pure (.error reason)
  | .ok path => do
    match ← ExceptT.run (readUnchanged digest path
        { Expect.recorded kept.fingerprint with root := kept.root }) with
    | .error check => return .error { code := .keptCopyUnproven, detail := check.detail }
    | .ok found =>
      if found = kept.sha256 then return .ok ()
      else return .error {
        code := .keptCopyUnproven
        detail := display path ++ " no longer holds the bytes this item relies on" }

end Digests

end PlateVault.Custody
