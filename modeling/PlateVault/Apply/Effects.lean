import PlateVault.Base.Paths
import PlateVault.Lib.Prog
import Mathlib.Logic.Function.Basic

/-!
# What an Apply acts on

The three folders of a Project that a swap renames, the Project's manifests and the journal of its
unsettled Apply, and the effects an Apply performs on them. A catalog write is one transaction: it
runs whole, under the schema's triggers and unique indexes, or not at all. Any rename and any write
may fail.
-/

namespace PlateVault

/-- The names a swap renames, below the Project folder. -/
inductive Name
  | view
  | building
  | previous
  deriving DecidableEq, Repr

structure Entry where
  fileId : String
  isDir : Bool
  /-- A folder that holds nothing. -/
  empty : Bool
  deriving DecidableEq, Repr

inductive ApplyPhase
  | reserved
  | sourcesVerified
  | building
  | buildVerified
  | waitingForRelease
  | oldMoved
  | newInstalled
  | manifestCommitted
  | foreignTransferred
  | retiringPrevious
  | settled
  deriving DecidableEq, Repr

def ApplyPhase.rank : ApplyPhase → Nat
  | .reserved => 0
  | .sourcesVerified => 1
  | .building => 2
  | .buildVerified => 3
  | .waitingForRelease => 4
  | .oldMoved => 5
  | .newInstalled => 6
  | .manifestCommitted => 7
  | .foreignTransferred => 8
  | .retiringPrevious => 9
  | .settled => 10

/-- Whether `phase` comes before `other` in an Apply's journal. -/
def before (phase other : ApplyPhase) : Bool := phase.rank < other.rank

inductive ManifestState
  | building
  | installed
  | previous
  | retired
  | discarded
  deriving DecidableEq, Repr

structure ViewManifest where
  generation : Nat
  state : ManifestState
  deriving DecidableEq, Repr

structure ExpectedTree where
  rootIdentity : FileIdentity
  view : Option FileIdentity
  building : Option FileIdentity
  deriving DecidableEq, Repr

structure ApplyJournal where
  generation : Nat
  phase : ApplyPhase
  expected : ExpectedTree
  deriving DecidableEq, Repr

/-- A Project's folders, its manifests and its unsettled Apply, if any. -/
structure ProjectState where
  volume : VolumeIdentity
  root : Entry
  entry : Name → Option Entry
  manifests : List ViewManifest
  journal : Option ApplyJournal

/-! ## The folders -/

/-- The identity `observe_folder_identity` reads of a folder on a volume: where the volume's file
IDs are not stable it names the volume only. -/
def folderIdentity (volume : VolumeIdentity) (folder : Entry) : FileIdentity where
  volume
  fileId := if volume.fileIdsStable then some folder.fileId else none

theorem sameIdentity_folderIdentity (volume : VolumeIdentity) (folder other : Entry) :
    sameIdentity (folderIdentity volume folder) (folderIdentity volume other) = true ↔
      volume.fileIdsStable = true → folder.fileId = other.fileId := by
  cases hstable : volume.fileIdsStable <;>
    simp [sameIdentity, FileIdentity.isRecorded, folderIdentity, hstable, fileIdsMatch]

namespace ProjectState

/-- The identity of the folder at a name; none for no folder. -/
def observe (state : ProjectState) (name : Name) : Option FileIdentity :=
  (state.entry name).bind fun entry =>
    if entry.isDir then some (folderIdentity state.volume entry) else none

def put (state : ProjectState) (name : Name) (entry : Option Entry) : ProjectState :=
  { state with entry := Function.update state.entry name entry }

/-- The entry at `source` under the name `target`. -/
def move (state : ProjectState) (source target : Name) : ProjectState :=
  (state.put target (state.entry source)).put source none

@[simp] theorem put_entry (state : ProjectState) (name : Name) (entry : Option Entry) :
    (state.put name entry).entry name = entry := by simp [put]

@[simp] theorem put_entry_of_ne (state : ProjectState) {name other : Name} (h : other ≠ name)
    (entry : Option Entry) : (state.put name entry).entry other = state.entry other := by
  simp [put, h]

@[simp] theorem put_volume (state : ProjectState) (name : Name) (entry : Option Entry) :
    (state.put name entry).volume = state.volume := rfl

@[simp] theorem put_journal (state : ProjectState) (name : Name) (entry : Option Entry) :
    (state.put name entry).journal = state.journal := rfl

@[simp] theorem put_manifests (state : ProjectState) (name : Name) (entry : Option Entry) :
    (state.put name entry).manifests = state.manifests := rfl

@[simp] theorem move_volume (state : ProjectState) (source target : Name) :
    (state.move source target).volume = state.volume := rfl

@[simp] theorem move_journal (state : ProjectState) (source target : Name) :
    (state.move source target).journal = state.journal := rfl

@[simp] theorem move_manifests (state : ProjectState) (source target : Name) :
    (state.move source target).manifests = state.manifests := rfl

@[simp] theorem move_entry_source (state : ProjectState) (source target : Name) :
    (state.move source target).entry source = none := by simp [move]

@[simp] theorem move_entry_target (state : ProjectState) {source target : Name}
    (h : target ≠ source) : (state.move source target).entry target = state.entry source := by
  simp [move, h]

@[simp] theorem move_entry_of_ne (state : ProjectState) {source target other : Name}
    (hsource : other ≠ source) (htarget : other ≠ target) :
    (state.move source target).entry other = state.entry other := by
  simp [move, hsource, htarget]

theorem move_put (state : ProjectState) {source target : Name} (h : source ≠ target)
    (entry : Option Entry) : (state.put target entry).move source target =
      state.move source target := by
  simp [move, put, h, Function.update_idem]

theorem put_none_put (state : ProjectState) {name : Name} (h : state.entry name = none)
    (entry : Option Entry) : (state.put name entry).put name none = state := by
  simp [put, Function.update_idem, ← h]

def Fresh (state : ProjectState) (folder : Entry) : Prop :=
  folder.isDir = true ∧ folder.empty = true ∧
    ∀ name entry, state.entry name = some entry → entry.fileId ≠ folder.fileId

/-- The folder at `name` lists other entries than before. -/
def Filled (state : ProjectState) (name : Name) (next : ProjectState) : Prop :=
  ∃ folder empty, state.entry name = some folder ∧ next = state.put name (some { folder with empty })

end ProjectState

/-! ## The catalog -/

section Catalog

/-- The unique indexes: one manifest building, one installed, one previous. -/
def uniqueStates (manifests : List ViewManifest) : Bool :=
  [ManifestState.building, .installed, .previous].all fun state =>
    (manifests.filter fun manifest => manifest.state = state).length ≤ 1

/-- The trigger `view_manifests_state`: the states a manifest moves through. -/
def canBecome : ManifestState → ManifestState → Bool
  | .building, .installed | .building, .discarded => true
  | .installed, .previous | .installed, .retired => true
  | .previous, .retired => true
  | old, new => old = new

/-- The manifests with `state` set on some. -/
def restated (manifests : List ViewManifest) (which : ViewManifest → Bool)
    (state : ManifestState) : List ViewManifest :=
  manifests.map fun manifest => if which manifest then { manifest with state } else manifest

/-- An `UPDATE view_manifests SET state`, under the trigger and the unique indexes. -/
def updateStates (manifests : List ViewManifest) (which : ViewManifest → Bool)
    (state : ManifestState) : Option (List ViewManifest) :=
  if (manifests.all fun manifest => !which manifest || canBecome manifest.state state) &&
      uniqueStates (restated manifests which state) then
    some (restated manifests which state)
  else none

/-- `set_manifest_state`. -/
def setManifestState (manifests : List ViewManifest) (generation : Nat) (state : ManifestState) :
    Option (List ViewManifest) :=
  updateStates manifests (fun manifest => manifest.generation = generation) state

/-- `retire_previous`. -/
def retirePrevious (manifests : List ViewManifest) : Option (List ViewManifest) :=
  updateStates manifests (fun manifest => manifest.state = .previous) .retired

/-- The previous manifest retires where its folder is gone. -/
def retireIfGone (previousGone : Bool) (manifests : List ViewManifest) :
    Option (List ViewManifest) :=
  if previousGone then retirePrevious manifests else some manifests

inductive CatalogWrite
  | reserveApply (previousGone : Bool) (expected : ExpectedTree)
  | advanceApply (phase : ApplyPhase) (expected : Option ExpectedTree)
  | recordApplyBuild
  | recordApplyWait
  | discardApply
  | commitApply
  | settleApply (previousGone : Bool)
  | retirePreviousView
  deriving DecidableEq, Repr

/-- `advance`: the journal moves forward through its phases. -/
def advance (journal : ApplyJournal) (phase : ApplyPhase) (expected : Option ExpectedTree) :
    Option ApplyJournal :=
  if journal.phase.rank ≤ phase.rank then
    some { journal with phase, expected := expected.getD journal.expected }
  else none

/-- One write on the Project's rows; `none` where the schema refuses it. -/
def CatalogWrite.run (state : ProjectState) : CatalogWrite → Option ProjectState
  | .reserveApply previousGone expected => do
    -- one operation at a time holds a Project
    if state.journal.isSome then none
    let manifests ← retireIfGone previousGone state.manifests
    let generation := (manifests.map ViewManifest.generation).foldl max 0 + 1
    let inserted := manifests ++ [{ generation, state := .building }]
    if uniqueStates inserted then
      some { state with
        manifests := inserted, journal := some { generation, phase := .reserved, expected } }
    else none
  | .advanceApply phase expected => do
    let journal ← advance (← state.journal) phase expected
    some { state with journal := some journal }
  | .recordApplyBuild => do
    let journal ← advance (← state.journal) .buildVerified none
    some { state with journal := some journal }
  | .recordApplyWait => do
    if (← state.journal).phase = .buildVerified then some state else none
  | .discardApply => do
    let journal ← state.journal
    let manifests ← setManifestState state.manifests journal.generation .discarded
    if journal.phase.rank ≤ ApplyPhase.oldMoved.rank then some { state with manifests, journal := none }
    else none
  | .commitApply => do
    let journal ← state.journal
    let manifests ← updateStates state.manifests (fun manifest => manifest.state = .installed) .previous
    let manifests ← setManifestState manifests journal.generation .installed
    let journal ← advance journal .manifestCommitted none
    some { state with manifests, journal := some journal }
  | .settleApply previousGone => do
    let journal ← state.journal
    let manifests ← retireIfGone previousGone state.manifests
    if ApplyPhase.manifestCommitted.rank ≤ journal.phase.rank then
      some { state with manifests, journal := none }
    else none
  | .retirePreviousView => do
    let manifests ← retirePrevious state.manifests
    some { state with manifests }

end Catalog

/-! ## Effects -/

inductive IoError
  | alreadyExists
  | unsupported
  | held
  | other
  deriving DecidableEq, Repr

/-- How the kept files left `View (previous)/`. -/
inductive KeptMoves
  | brokeOff
  | stopped
  | moved (failed : Bool)
  deriving DecidableEq, Repr

inductive Effect
  | renameNoReplace (source target : Name)
  | isDir (name : Name)
  | createDir (name : Name)
  | renameOver (source target : Name)
  | persistFile (source target : Name)
  | removePlaceholder (name : Name) (placeholder : Entry)
  | observe (name : Name)
  | observeRoot
  | present (name : Name)
  | catalog (write : CatalogWrite)
  | stillReserved
  | canceled
  | interrupted
  | moveKeptFiles
  | clearPrevious
  | clearBuilding
  | previousGone
  | removeEmptyPrevious
  | makeRoot
  | snapshotSources
  | placeEntry
  | verifyBuilt
  | foreignInventory
  | settleKeptClaims
  | readPrevious
  | moveForeign
  | retire
  deriving DecidableEq, Repr

abbrev Effect.Answer : Effect → Type
  | .renameNoReplace .. | .renameOver .. | .persistFile .. => Except IoError Unit
  | .isDir _ => Except IoError Bool
  | .createDir _ => Except IoError Entry
  | .removePlaceholder .. => Unit
  | .observe _ | .observeRoot => Option FileIdentity
  | .present _ => Bool
  | .catalog _ => Bool
  | .stillReserved => Option Bool
  | .canceled | .interrupted => Bool
  | .moveKeptFiles => KeptMoves
  | .clearPrevious | .clearBuilding | .previousGone | .retire => Bool
  | .removeEmptyPrevious => Unit
  | .makeRoot | .snapshotSources | .placeEntry | .verifyBuilt | .foreignInventory => Bool
  | .settleKeptClaims | .readPrevious | .moveForeign => Bool

/-- What an effect may answer and do. A failed one changes nothing. -/
def Effect.step (state : ProjectState) : (effect : Effect) → effect.Answer → ProjectState → Prop
  | .renameNoReplace source target, .ok _, next =>
    (state.entry source).isSome = true ∧ state.entry target = none ∧ next = state.move source target
  | .isDir name, .ok dir, next =>
    (state.entry name).map Entry.isDir = some dir ∧ next = state
  | .createDir name, .ok folder, next =>
    state.entry name = none ∧ state.Fresh folder ∧ next = state.put name (some folder)
  -- a folder moves over an empty folder only
  | .renameOver source target, .ok _, next =>
    (state.entry source).isSome = true ∧
      (∀ there, state.entry target = some there → there.isDir = true ∧ there.empty = true) ∧
      next = state.move source target
  -- a link, or a copy under an identity of its own
  | .persistFile source target, .ok _, next =>
    ∃ file copy, state.entry source = some file ∧ file.isDir = false ∧ copy.isDir = false ∧
      state.entry target = none ∧ next = (state.put target (some copy)).put source none
  | .renameNoReplace .., .error _, next | .isDir _, .error _, next | .createDir _, .error _, next
  | .renameOver .., .error _, next | .persistFile .., .error _, next => next = state
  -- only while it names the folder created, and lists nothing
  | .removePlaceholder name folder, _, next =>
    next = state ∨ state.entry name = some folder ∧ folder.empty = true ∧ next = state.put name none
  | .observe name, identity, next => identity = state.observe name ∧ next = state
  | .observeRoot, identity, next => identity = some (folderIdentity state.volume state.root) ∧ next = state
  | .present name, there, next => there = (state.entry name).isSome ∧ next = state
  | .catalog write, true, next => write.run state = some next
  | .catalog _, false, next => next = state
  | .stillReserved, _, next | .canceled, _, next | .interrupted, _, next => next = state
  -- files leave the folder; the folder stays
  | .moveKeptFiles, _, next => next = state ∨ state.Filled .previous next
  | .clearPrevious, gone, next => gone = (next.entry .previous).isNone ∧
    (next = state ∨ next = state.put .previous none)
  -- the build's own files go, and the folder where nothing else stays in it
  | .clearBuilding, cleared, next => (cleared = false → (next.entry .building).isSome = true) ∧
    (next = state ∨ next = state.put .building none ∨ state.Filled .building next)
  | .previousGone, gone, next => next = state ∧
    (state.entry .previous = none → gone = true) ∧
    ∀ there, state.entry .previous = some there →
      (there.empty = true → gone = true) ∧ (gone = true → there.isDir = true)
  | .removeEmptyPrevious, _, next => next = state ∨
    ∃ there, state.entry .previous = some there ∧ there.isDir = true ∧
      next = state.put .previous none
  | .placeEntry, _, next => next = state ∨ state.Filled .building next
  | .makeRoot, _, next | .snapshotSources, _, next | .verifyBuilt, _, next
  | .foreignInventory, _, next => next = state
  | .readPrevious, there, next => next = state ∧
    there = state.manifests.any fun manifest => manifest.state = .previous
  | .settleKeptClaims, _, next => next = state ∨ state.Filled .previous next
  -- files leave `View (previous)/` for `View/`
  | .moveForeign, _, next => next = state ∨
    ∃ left, state.Filled .previous left ∧ (next = left ∨ left.Filled .view next)
  | .retire, gone, next => gone = (next.entry .previous).isNone ∧
    (next = state ∨ next = state.put .previous none ∨ state.Filled .previous next)

abbrev ApplyProg := Prog Effect Effect.Answer

end PlateVault
