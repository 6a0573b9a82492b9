import PlateVault.Base.Basic

/-!
# Paths and recorded identities

`NativePath`, a `PathBuf` by its components, and the identity and fingerprint an entry is recorded
with. Two file IDs match when both are absent or both are present and equal; a volume without
stable file IDs records none, so an identity there names the volume only.
-/

namespace PlateVault

inductive Component
  | curDir
  | parentDir
  | normal (name : Text)
  deriving DecidableEq, Repr

/-- A path as `Path::components` reads it; two paths are equal exactly when their components are.
`.` only survives as the first component. -/
structure PathBuf where
  absolute : Bool
  parts : List Component
  deriving DecidableEq, Repr

namespace PathBuf

/-- `Path::join`: an absolute path replaces, and a leading `.` of the joined path vanishes. -/
def join (path other : PathBuf) : PathBuf :=
  if other.absolute then other
  else match path.parts, other.parts with
    | [], parts => { path with parts := if path.absolute then parts.filter (· ≠ .curDir) else parts }
    | own, parts => { path with parts := own ++ parts.filter (· ≠ .curDir) }

/-- `Path::parent`. -/
def parent (path : PathBuf) : Option PathBuf :=
  if path.parts = [] then none else some { path with parts := path.parts.dropLast }

/-- `Path::file_name`. -/
def fileName (path : PathBuf) : Option Text :=
  match path.parts.getLast? with
  | some (.normal name) => some name
  | _ => none

/-- `Path::with_file_name`. -/
def withFileName (path : PathBuf) (name : Text) : PathBuf :=
  match path.fileName with
  | some _ => { path with parts := path.parts.dropLast ++ [.normal name] }
  | none => { path with parts := path.parts ++ [.normal name] }

end PathBuf

/-- A recorded path. A payload of another system's encoding, or one holding NUL, is no path of
this host. -/
inductive NativePath
  | host (path : PathBuf)
  | foreign (payload : List Nat)
  deriving DecidableEq, Repr

namespace NativePath

def fromPath (path : PathBuf) : NativePath := .host path

def toPathBuf : NativePath → Result PathBuf
  | .host path => .ok path
  | .foreign _ => .error (.invalidInput "path encoding belongs to another OS")

/-- A location-relative path: neither absolute nor leaving its location. -/
def relativePath (path : NativePath) : Result PathBuf := do
  let path ← path.toPathBuf
  if path.absolute || path.parts.contains .parentDir then
    .error (.invalidInput "relative path escapes its location")
  else .ok path

@[simp] theorem toPathBuf_fromPath (path : PathBuf) : (fromPath path).toPathBuf = .ok path := rfl

end NativePath

inductive PathSensitivity
  | sensitive
  | insensitive
  | unknown
  deriving DecidableEq, Repr

structure VolumeIdentity where
  filesystem : String
  stableId : Option String
  fileIdsStable : Bool
  case : PathSensitivity
  normalization : PathSensitivity
  deriving DecidableEq, Repr

structure FileIdentity where
  volume : VolumeIdentity
  fileId : Option String
  deriving DecidableEq, Repr

def fileIdsMatch (left right : Option String) : Bool := left = right

/-- Whether this observed identity is the `recorded` entry: the same volume and, where the recorded
volume's file IDs are stable, file IDs that match. -/
def FileIdentity.isRecorded (observed recorded : FileIdentity) : Bool :=
  observed.volume = recorded.volume &&
    (!recorded.volume.fileIdsStable || fileIdsMatch observed.fileId recorded.fileId)

/-- Same volume, and the same file ID where the volume's IDs are stable. -/
def sameIdentity (observed recorded : FileIdentity) : Bool := observed.isRecorded recorded

/-- A file's no-follow observation. `modifiedNs` is in nanoseconds since the Unix epoch. -/
structure ObservationFingerprint where
  identity : FileIdentity
  sizeBytes : Nat
  modifiedNs : Int
  contentSha256 : Option Text
  deriving DecidableEq, Repr

/-- Mount-unstable file IDs must not invalidate retained decisions. -/
def ObservationFingerprint.equivalent (left right : ObservationFingerprint) : Bool :=
  left.identity.volume = right.identity.volume && left.sizeBytes = right.sizeBytes &&
    left.modifiedNs = right.modifiedNs && left.contentSha256 = right.contentSha256 &&
    (!left.identity.volume.fileIdsStable ||
      fileIdsMatch left.identity.fileId right.identity.fileId)

theorem ObservationFingerprint.equivalent_sha {left right : ObservationFingerprint}
    (h : left.equivalent right = true) : left.contentSha256 = right.contentSha256 := by
  simp only [equivalent, Bool.and_eq_true, decide_eq_true_eq] at h
  exact h.1.2

end PlateVault
