import PlateVault.Base.Paths
import PlateVault.Grouping.Metadata
import Mathlib.Order.WithBot
import Mathlib.Data.Prod.Lex

/-!
# The basis of a View

What a View is built from: the Project's groups, their sessions with their captures, and each
session's settled calibration. A pinned target carries the check it was stored with, so a raw set
names each of its frames once and a master is exactly one file.
-/

namespace PlateVault.View

/-- What the layout uses beyond a `Platform`: the compatibility form and the case mappings of
Unicode, SHA-256 in hex, the lossy text of a file name, and the calendar. `windows` is
`cfg!(windows)`. -/
structure Host extends Platform where
  nfkd : Text → Text
  lower : Text → Text
  upper : Text → Text
  sha256 : Text → Text
  lossy : Text → Text
  windows : Bool
  dateOrder : LinearOrder Date
  year : Date → Int
  month : Date → Nat
  day : Date → Nat

namespace Host

instance (H : Host) : LinearOrder H.Date := H.dateOrder

end Host

inductive ViewMode
  | symlinks
  | copies
  deriving DecidableEq, Repr

inductive InputKind
  | bias
  | dark
  | flat
  deriving DecidableEq, Repr

/-! ## Calibration -/

inductive InputRef
  | rawSet (sessionId : Uuid) (groupingRevision : Nat)
  | master (masterId : Uuid) (revision : Nat)
  deriving DecidableEq, Repr

/-- One file a pin binds. A raw set's frames name their assets; a master's one file has none. -/
structure PinnedFile where
  assetId : Option Uuid
  sha256 : Text
  fingerprint : ObservationFingerprint

def requireSha256 (field : String) (value : Text) : Result Unit :=
  Result.require (value.length = 64 && value.all fun c => c.isDigit || ('a' ≤ c && c ≤ 'f'))
    (.invalidInput (field ++ " is not a lowercase SHA-256 digest"))

def validateFrames (sessionId : Uuid) (seen : List Uuid) : List PinnedFile → Result Unit
  | [] => .ok ()
  | file :: files =>
    match file.assetId with
    | none => .error (.invalidInput ("raw set " ++ sessionId.hyphenated ++ " names each frame"))
    | some asset =>
      if asset ∈ seen then
        .error (.invalidInput
          ("raw set " ++ sessionId.hyphenated ++ " names " ++ asset.hyphenated ++ " twice"))
      else validateFrames sessionId (asset :: seen) files

/-- `PinTarget::validate`. -/
def validateFiles (input : InputRef) (files : List PinnedFile) : Result Unit := do
  Result.require (!files.isEmpty) (.invalidInput "a pin names at least one file")
  files.forM fun file => requireSha256 "a pinned file's digest" file.sha256
  match input with
  | .master masterId _ =>
    Result.require (files.length = 1 && files.all fun file => file.assetId.isNone)
      (.invalidInput ("master " ++ masterId.hyphenated ++ " is pinned as its one file"))
  | .rawSet sessionId _ => validateFrames sessionId [] files

/-- What a pin names: a raw set or a master version, the date its age counts from, and its exact
files. A pin is stored only after `validate`. -/
structure PinTarget (H : Host) where
  input : InputRef
  captured : Option H.Date
  files : List PinnedFile
  valid : validateFiles input files = .ok ()

inductive SettledPin (H : Host)
  | pinned (target : PinTarget H)
  | declined

def SettledPin.target {H : Host} : SettledPin H → Option (PinTarget H)
  | .pinned target => some target
  | .declined => none

structure SettledCalibration (H : Host) where
  dark : SettledPin H
  flat : SettledPin H
  bias : SettledPin H

def SettledCalibration.kind {H : Host} (calibration : SettledCalibration H) :
    InputKind → SettledPin H
  | .bias => calibration.bias
  | .dark => calibration.dark
  | .flat => calibration.flat

/-! ## Groups, sessions, captures -/

structure CopyBasis where
  assetId : Uuid
  fingerprint : ObservationFingerprint

structure BasisCapture where
  captureKey : Uuid
  included : Bool
  copies : List CopyBasis

structure BasisSession (H : Host) where
  sessionId : Uuid
  night : Option H.Date
  captures : List BasisCapture
  calibration : SettledCalibration H

structure BasisGroup (H : Host) where
  id : Uuid
  name : Text
  panel : Bool
  sessions : List (BasisSession H)

structure GroupKeywords where
  group : Text
  panel : Text

structure ProjectBasis (H : Host) where
  mode : ViewMode
  keywords : GroupKeywords
  groups : List (BasisGroup H)

/-- Only a Project with several groups gets group folders. -/
def ProjectBasis.hasGroupFolders {H : Host} (basis : ProjectBasis H) : Bool :=
  1 < basis.groups.length

/-! ## Entries -/

inductive EntryInput
  | capture (captureKey : Uuid)
  | calibrationFrame (assetId : Uuid)
  | master (masterId : Uuid)
  deriving DecidableEq, Repr

namespace EntryInput

/-- The capture key, asset id or master id the name is reserved by. -/
def id : EntryInput → Uuid
  | .capture captureKey => captureKey
  | .calibrationFrame assetId => assetId
  | .master masterId => masterId

def rank : EntryInput → Nat ×ₗ Uuid
  | .capture captureKey => toLex (0, captureKey)
  | .calibrationFrame assetId => toLex (1, assetId)
  | .master masterId => toLex (2, masterId)

end EntryInput

/-- What an entry places: a light capture's copy, a raw calibration frame or an adopted master
version. -/
inductive EntrySource
  | light (captureKey assetId : Uuid)
  | calibrationFrame (kind : InputKind) (sessionId assetId : Uuid)
  | master (kind : InputKind) (masterId : Uuid) (revision : Nat)
  deriving DecidableEq, Repr

namespace EntrySource

def input : EntrySource → EntryInput
  | .light captureKey _ => .capture captureKey
  | .calibrationFrame _ _ assetId => .calibrationFrame assetId
  | .master _ masterId _ => .master masterId

/-- The asset or master id its original is recorded under. -/
def sourceId : EntrySource → Uuid
  | .light _ assetId => assetId
  | .calibrationFrame _ _ assetId => assetId
  | .master _ masterId _ => masterId

end EntrySource

inductive EntryPlacement
  | symlink
  | copy
  | clone
  deriving DecidableEq, Repr

end PlateVault.View
