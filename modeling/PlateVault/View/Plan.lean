import PlateVault.View.Layout
import PlateVault.Grouping.Key
import PlateVault.Lib.Ordered
import Mathlib.Data.List.Lex
import Mathlib.Data.Char

/-!
# The View layout

`plan` lays out one build. `draftsOf` puts every included light and every file of a pinned
calibration into its folder; `finish` gives each input its name and places the drafts, the first
one of each path. Folders and paths are their components below `View/`.
-/

namespace PlateVault.View

variable {H : Host}

/-! ## Settings -/

/-- The settings a session's folders are named and matched by. -/
structure Settings where
  filter : Option Text
  exposure : Option Text
  gain : Option Text
  offset : Option Text
  camera : Text
  binning : Option (Nat × Nat)

def filterRaw (meta_ : CaptureMetadata H.toPlatform) : Option Text :=
  (meta_.filter.map trim).filter fun filter => !filter.isEmpty

namespace Settings

def of (metadata : Option (CaptureMetadata H.toPlatform)) : Settings :=
  match metadata with
  | none => ⟨none, none, none, none, [], none⟩
  | some meta_ =>
    { filter := (filterRaw meta_).map (nameKey H)
      exposure := meta_.exposureSeconds.map H.display
      gain := meta_.gain.map H.display
      offset := meta_.offset.map decimalInt
      camera := nameKey H (meta_.camera.getD [] ++ '|' :: meta_.cameraId.getD [])
      binning := meta_.binningX.bind fun x => meta_.binningY.map fun y => (x, y) }

/-- `{:?}` of an option. -/
def debugOption {α : Type} (debug : α → Text) : Option α → Text
  | none => "None".toList
  | some a => "Some(".toList ++ debug a ++ [')']

def debugBinning (binning : Nat × Nat) : Text :=
  '(' :: decimal binning.1 ++ ", ".toList ++ decimal binning.2 ++ [')']

/-- What a dark must match: camera, exposure, gain, offset and binning. -/
def darkKey (H : Host) (settings : Settings) : Text :=
  settings.camera ++ '|' :: debugOption H.debug settings.exposure ++
    '|' :: debugOption H.debug settings.gain ++ '|' :: debugOption H.debug settings.offset ++
    '|' :: debugOption debugBinning settings.binning

/-- What a bias must match: the dark's settings without the exposure. -/
def biasKey (H : Host) (settings : Settings) : Text :=
  settings.camera ++ '|' :: debugOption H.debug settings.gain ++
    '|' :: debugOption H.debug settings.offset ++ '|' :: debugOption debugBinning settings.binning

end Settings

/-- A session some capture of which is included, in its group. -/
structure Lit (H : Host) where
  group : BasisGroup H
  session : BasisSession H
  settings : Settings

structure SourcePath where
  path : NativePath

structure PlanInput (H : Host) where
  basis : ProjectBasis H
  metadata : Uuid → Option (CaptureMetadata H.toPlatform)
  sources : Uuid → Option SourcePath
  names : List (EntryInput × ReservedName)
  chosen : Uuid → Option Uuid

def PlanInput.lit (input : PlanInput H) : List (Lit H) :=
  (input.basis.groups.flatMap fun group => (group.sessions.filter fun session =>
    session.captures.any BasisCapture.included).map fun session =>
      { group, session, settings := Settings.of (input.metadata session.sessionId) })

/-! ## Errors -/

inductive ApplyBlocker
  | folderClash (detail : String)
  | entryNameRefused (path : NativePath) (name : Text)

def orClash {α : Type} : Result α → Except ApplyBlocker α
  | .ok a => .ok a
  | .error error => .error (.folderClash (error.display))

/-! ## Folder names -/

def filterRoom : Nat := componentLimit - 64

structure Names where
  groupFolders : List (Uuid × Option Text)
  filters : List (Text × Text)
  mixedGain : Bool
  mixedOffset : Bool
  calibrationInGroups : Bool

/-- Each group's folder and name, refusing a folder that reads like one before. -/
def groupFoldersFrom (keywords : GroupKeywords) (taken : List (Text × Text)) :
    List (BasisGroup H) → Except ApplyBlocker (List (Uuid × Option Text))
  | [] => .ok []
  | group :: groups => do
    let folder ← orClash (groupFolder H keywords group.name group.panel)
    match taken.lookup (nameKey H folder) with
    | some other => .error (.folderClash ("the groups '" ++ String.ofList other ++ "' and '" ++
        String.ofList group.name ++ "' would share the folder " ++ String.ofList folder ++
        "; rename one"))
    | none =>
      let folders ← groupFoldersFrom keywords ((nameKey H folder, group.name) :: taken) groups
      .ok ((group.id, some folder) :: folders)

/-- Each group's folder, `none` without the group level. -/
def groupFolders (basis : ProjectBasis H) : Except ApplyBlocker (List (Uuid × Option Text)) :=
  if basis.hasGroupFolders then groupFoldersFrom basis.keywords [] basis.groups
  else .ok (basis.groups.map fun group => (group.id, none))

def PlanInput.rawFilters (input : PlanInput H) : List Text :=
  input.lit.filterMap fun lit => (input.metadata lit.session.sessionId).bind filterRaw

/-- Each filter's comparison key, in order, with its smallest text. -/
def filterRaws (H : Host) (raws : List Text) : List (Text × Text) :=
  (Ordered.ascending (raws.map (nameKey H))).filterMap fun key =>
    (Ordered.ascending (raws.filter fun raw => nameKey H raw = key)).head?.map fun raw => (key, raw)

/-- Each filter's token: the plain one, or the suffixed one where it is used. -/
def filterTokens (H : Host) (used : List Text) :
    List (Text × Text) → Except ApplyBlocker (List (Text × Text))
  | [] => .ok []
  | (key, raw) :: raws => do
    let plain ← orClash (token H "filter" raw filterRoom)
    let token ←
      if nameKey H plain ∈ used then orClash (tokenSuffixed H "filter" raw filterRoom)
      else .ok plain
    let filters ← filterTokens H (nameKey H token :: used) raws
    .ok ((key, token) :: filters)

namespace Names

def new (input : PlanInput H) : Except ApplyBlocker Names := do
  let groupFolders ← View.groupFolders input.basis
  let filters ← filterTokens H [] (filterRaws H input.rawFilters)
  let distinct (pick : Settings → Option Text) : Bool :=
    1 < (input.lit.map fun lit => pick lit.settings).dedup.length
  let cameras := (input.lit.map fun lit => lit.settings.camera).dedup
  .ok {
    groupFolders, filters
    mixedGain := distinct Settings.gain
    mixedOffset := distinct Settings.offset
    calibrationInGroups := input.basis.hasGroupFolders && 1 < cameras.length }

def groupFolder (names : Names) (group : Uuid) : Option Text :=
  (names.groupFolders.reverse.lookup group).join

/-- The `GAIN_<g>` and `OFFSET_<o>` parts this Project names. -/
def gainOffset (names : Names) (settings : Settings) : List Text :=
  (if names.mixedGain then (settings.gain.map ("GAIN_".toList ++ ·)).toList else []) ++
    (if names.mixedOffset then (settings.offset.map ("OFFSET_".toList ++ ·)).toList else [])

def filter (names : Names) (settings : Settings) : Option Text :=
  settings.filter.bind fun key => names.filters.lookup key

def joined (parts : List Text) : Option Text :=
  if parts.isEmpty then none else some (['_'].intercalate parts)

/-- `<filter>[_GAIN_g][_OFFSET_o]_<exposure>s`. -/
def lightFolder (names : Names) (settings : Settings) : Option Text :=
  joined ((names.filter settings).toList ++ names.gainOffset settings ++
    (settings.exposure.map (· ++ ['s'])).toList)

/-- `<filter>[_GAIN_g][_OFFSET_o]`. -/
def flatFolder (names : Names) (settings : Settings) : Option Text :=
  joined ((names.filter settings).toList ++ names.gainOffset settings)

/-- `[GAIN_g][_OFFSET_o]` below `Darks/` or `Bias/`. -/
def calibrationFolder (names : Names) (settings : Settings) : Option Text :=
  joined (names.gainOffset settings)

end Names

/-- `{:0width$}`: zeros after the sign. -/
def padded (width : Nat) (n : Int) : Text :=
  match n with
  | .ofNat n => (decimal n).leftpad width '0'
  | .negSucc n => '-' :: (decimal (n + 1)).leftpad (width - 1) '0'

def nightFolder (night : Option H.Date) (index : Nat) : Text :=
  let base := match night with
    | none => "NIGHT_unknown".toList
    | some date => "NIGHT_".toList ++ padded 4 (H.year date) ++
        '-' :: padded 2 (H.month date) ++ '-' :: padded 2 (H.day date)
  if index = 0 then base else base ++ '-' :: decimal (index + 1)

/-! ## Nights -/

/-- A raw set at its grouping revision or a master version. -/
abbrev TargetKey := Nat ×ₗ Uuid ×ₗ Nat

def targetKey (target : PinTarget H) : TargetKey :=
  match target.input with
  | .rawSet sessionId groupingRevision => toLex (0, toLex (sessionId, groupingRevision))
  | .master masterId revision => toLex (1, toLex (masterId, revision))

/-- How flat sets are ordered: by capture date, then by identity. -/
def flatKey (target : PinTarget H) : WithBot H.Date ×ₗ TargetKey :=
  toLex (target.captured.elim ⊥ fun date => (date : WithBot H.Date), targetKey target)

/-- The lights one flat set calibrates: a group, a night and a flat folder. -/
def flatBucket (names : Names) (lit : Lit H) : Uuid × Option H.Date × Option Text :=
  (lit.group.id, lit.session.night, names.flatFolder lit.settings)

/-- A lit session's night index: its flat set's place among those of its bucket. -/
def flatNight (names : Names) (lits : List (Lit H)) (lit : Lit H) : Nat :=
  match lit.session.calibration.flat.target with
  | none => 0
  | some target =>
    let sets := Ordered.ascending ((lits.filter fun other =>
      flatBucket names other = flatBucket names lit).filterMap fun other =>
        other.session.calibration.flat.target.map flatKey)
    (sets.idxOf? (flatKey target)).getD 0

/-- Where lights share a version of `kind`: the settings it must match, in one group when
calibration sits there. -/
def calibrationScope (names : Names) (kind : InputKind) (lit : Lit H) : Option Uuid × Text :=
  (if names.calibrationInGroups then some lit.group.id else none,
    if kind = .dark then lit.settings.darkKey H else lit.settings.biasKey H)

/-- Whether a lit session's `kind` goes into its night folder: lights with the same settings in one
place use more than one version. -/
def perNightCalibration (names : Names) (lits : List (Lit H)) (kind : InputKind) (lit : Lit H) :
    Bool :=
  (lit.session.calibration.kind kind).target.isSome &&
    1 < ((lits.filter fun other =>
      calibrationScope names kind other = calibrationScope names kind lit).filterMap fun other =>
        (other.session.calibration.kind kind).target.map targetKey).dedup.length

/-! ## Drafts -/

structure Draft (H : Host) where
  folder : List Text
  groupId : Option Uuid
  night : Option H.Date
  source : EntrySource
  sourceId : Uuid
  input : EntryInput
  basis : ObservationFingerprint
  sha256 : Option Text

/-- The folder and the group and night an entry belongs to. -/
structure Place (H : Host) where
  folder : List Text
  groupId : Option Uuid
  night : Option H.Date

/-- Every file of a pinned kind, in its folder; a raw set's file without an asset is skipped. -/
def placePin (pin : SettledPin H) (kind : InputKind) (place : Place H) : List (Draft H) :=
  match pin.target with
  | none => []
  | some target => target.files.filterMap fun file =>
    let draft (source : EntrySource) (sourceId : Uuid) (input : EntryInput) : Draft H :=
      { folder := place.folder, groupId := place.groupId, night := place.night, source, sourceId,
        input, basis := file.fingerprint, sha256 := some file.sha256 }
    match target.input, file.assetId with
    | .master masterId revision, _ =>
      some (draft (.master kind masterId revision) masterId (.master masterId))
    | .rawSet sessionId _, some assetId =>
      some (draft (.calibrationFrame kind sessionId assetId) assetId (.calibrationFrame assetId))
    | .rawSet _ _, none => none

def placeLight (chosen : Uuid → Option Uuid) (place : Place H) (capture : BasisCapture) :
    Option (Draft H) := do
  let assetId ← chosen capture.captureKey
  let copy ← capture.copies.find? fun copy => copy.assetId = assetId
  some {
    folder := place.folder, groupId := place.groupId, night := place.night
    source := .light capture.captureKey assetId, sourceId := assetId
    input := .capture capture.captureKey, basis := copy.fingerprint
    sha256 := copy.fingerprint.contentSha256 }

structure Rooms where
  groupRoot : List Text
  nightDir : List Text
  deriving DecidableEq

def rooms (names : Names) (lits : List (Lit H)) (lit : Lit H) : Rooms :=
  let groupRoot := (names.groupFolder lit.group.id).toList
  { groupRoot, nightDir := groupRoot ++ [nightFolder lit.session.night (flatNight names lits lit)] }

def lightsPlace (names : Names) (lits : List (Lit H)) (lit : Lit H) : Place H where
  folder := (rooms names lits lit).nightDir ++ "Lights".toList ::
    (names.lightFolder lit.settings).toList
  groupId := some lit.group.id
  night := lit.session.night

def flatsPlace (names : Names) (lits : List (Lit H)) (lit : Lit H) : Place H where
  folder := (rooms names lits lit).nightDir ++ "Flats".toList ::
    (names.flatFolder lit.settings).toList
  groupId := some lit.group.id
  night := lit.session.night

/-- Darks and bias: with the night's lights, in the group's folder or at the top. -/
def calibrationPlace (names : Names) (lits : List (Lit H)) (kind : InputKind) (folder : Text)
    (lit : Lit H) : Place H :=
  let below := folder :: (names.calibrationFolder lit.settings).toList
  if perNightCalibration names lits kind lit then
    { folder := (rooms names lits lit).nightDir ++ below
      groupId := some lit.group.id, night := lit.session.night }
  else if names.calibrationInGroups then
    { folder := (rooms names lits lit).groupRoot ++ below
      groupId := some lit.group.id, night := none }
  else { folder := below, groupId := none, night := none }

/-- What one lit session places: its lights, then its flats, darks and bias. -/
def sessionDrafts (input : PlanInput H) (names : Names) (lit : Lit H) : List (Draft H) :=
  let calibration := lit.session.calibration
  (lit.session.captures.filter BasisCapture.included).filterMap
      (placeLight input.chosen (lightsPlace names input.lit lit)) ++
    placePin calibration.flat .flat (flatsPlace names input.lit lit) ++
    placePin calibration.dark .dark (calibrationPlace names input.lit .dark "Darks".toList lit) ++
    placePin calibration.bias .bias (calibrationPlace names input.lit .bias "Bias".toList lit)

def draftsOf (input : PlanInput H) : Except ApplyBlocker (List (Draft H)) := do
  let names ← Names.new input
  .ok (input.lit.flatMap (sessionDrafts input names))

/-! ## Names and entries -/

/-- One entry the build places; `path` is relative to `View/`. -/
structure PlanEntry (H : Host) where
  seq : Nat
  path : List Text
  groupId : Option Uuid
  night : Option H.Date
  source : EntrySource
  sourceId : Uuid
  placement : EntryPlacement
  basis : ObservationFingerprint
  sha256 : Option Text

/-- The layout of one build and the names newcomers take. -/
structure Plan (H : Host) where
  entries : List (PlanEntry H)
  names : List (EntryName H)

def PlanInput.reserved (input : PlanInput H) (entryInput : EntryInput) : Option Text :=
  (input.names.lookup entryInput).map ReservedName.text

/-- The inputs without a name, in order, each with its first draft's source. -/
def newcomers (input : PlanInput H) (drafts : List (Draft H)) : List (EntryInput × Uuid) :=
  Ordered.sortBy (fun newcomer => newcomer.1.rank)
    (Ordered.firsts Prod.fst ((drafts.filter fun draft =>
      (input.names.lookup draft.input).isNone).map fun draft => (draft.input, draft.sourceId)))

/-- The file name an original shows, empty where it has none. -/
def sourceName (input : PlanInput H) (sourceId : Uuid) : Text :=
  ((input.sources sourceId).bind fun source =>
    source.path.toPathBuf.toOption.bind PathBuf.fileName).elim [] H.lossy

/-- Name the newcomers one after the other, none with a key that is taken. -/
def nameNewcomers (input : PlanInput H) (taken : List Text) :
    List (EntryInput × Uuid) → Except ApplyBlocker (List (EntryName H))
  | [] => .ok []
  | (entryInput, sourceId) :: rest =>
    let source := sourceName input sourceId
    match entryName H entryInput source fun candidate => taken.contains (nameKey H candidate) with
    | .error _ =>
      -- without an original the name is empty, and so is the path shown
      .error (.entryNameRefused (((input.sources sourceId).map SourcePath.path).getD
        (NativePath.fromPath ⟨false, []⟩)) source)
    | .ok name => do
      let names ← nameNewcomers input (nameKey H name.basename :: taken) rest
      .ok (name :: names)

def nameOf (input : PlanInput H) (names : List (EntryName H)) (entryInput : EntryInput) :
    Option Text :=
  (input.reserved entryInput).or
    ((names.find? fun name => name.input = entryInput).map EntryName.basename)

def placedAt (input : PlanInput H) (names : List (EntryName H)) (draft : Draft H) :
    Option (List Text × Draft H) :=
  (nameOf input names draft.input).map fun name => (draft.folder ++ [name], draft)

def placementOf : ViewMode → EntryPlacement
  | .symlinks => .symlink
  | .copies => .copy

def entryOf (mode : ViewMode) (seq : Nat) (path : List Text) (draft : Draft H) : PlanEntry H where
  seq
  path
  groupId := draft.groupId
  night := draft.night
  source := draft.source
  sourceId := draft.sourceId
  placement := placementOf mode
  basis := draft.basis
  sha256 := draft.sha256

/-- Name every input, drop repeats of one input in one folder, order by path and place. -/
def finish (input : PlanInput H) (drafts : List (Draft H)) : Except ApplyBlocker (Plan H) := do
  let taken := input.names.map fun reserved => nameKey H reserved.2.text
  let names ← nameNewcomers input taken (newcomers input drafts)
  let placed := Ordered.sortBy Prod.fst
    (Ordered.firsts Prod.fst (drafts.filterMap (placedAt input names)))
  .ok {
    entries := placed.zipIdx.map fun placed =>
      entryOf input.basis.mode placed.2 placed.1.1 placed.1.2
    names }

def plan (input : PlanInput H) : Except ApplyBlocker (Plan H) := do
  let drafts ← draftsOf input
  finish input drafts

end PlateVault.View
