import PlateVault.Lib.Runs
import PlateVault.Output.Walk

/-!
# Output under concurrent passes and copies

Passes, copies, edits and the Project's other operations interleave over one Project's records. A
pass reads its basis, walks, and records what it walked, with any steps in between; the storage
journal settles a copy's operation on its own, and verifies the copy before it settles as copied. A
call that fails changes nothing and is no step.
-/

namespace PlateVault.Output

open Inventory (IoKind Metadata)

/-- What a pass takes from its basis and the watcher's memory. -/
structure View where
  rounds : Nat
  panels : List (Uuid × Text)
  steady : Found → Bool

structure PassWalk where
  look : Answers
  folder : OutputFolder
  made : ∃ (view : View) (tree : Tree), walkOutput look view.rounds = some tree ∧
    folder = scanned view.panels view.steady tree

/-- A pass that read its basis, and what it walked since. -/
structure Pass where
  copies : Nat
  walked : Option PassWalk

structure State where
  catalog : Catalog
  passes : Nat → Option Pass

def State.start : State where
  catalog := .empty
  passes := fun _ => none

inductive Event
  | basis (pass : Nat)
  | walk (pass : Nat) (look : Answers)
  | record (pass : Nat) (look : Answers) (folder : OutputFolder) (record : OutputScanRecord)
  | details (path : Text) (kind : Option OutputKind) (channel : Option Text)
  | begin (id storage : Uuid) (name : Text) (source : EntryEvidence)
  | transfer (storage : Uuid) (outcome : ItemOutcome)
  | finish (id : Uuid) (listed : Option OutputObservation)
  | reserve (id : Uuid) (kind : ProjectOperationKind)
  | settle (id : Uuid)
  | lifecycle (lifecycle : ProjectLifecycle)

/-- The copy `copy_to_output` plans of a source under a name. -/
def plannedCopy (name : Text) (source : EntryEvidence) (panel : Option Uuid) : OutputObservation where
  path := name
  kind := none
  channel := none
  panelGroupId := panel
  state := .settled
  sizeBytes := source.fingerprint.sizeBytes
  fingerprint := none
  sha256 := source.sha256
  origin := .copied

/-- What `copy_to_output` checks before it begins a copy; `destination` is the look at the
destination. -/
def copyToOutput (c : Catalog) (id storage : Uuid) (name : Text) (source : EntryEvidence)
    (destination : Except Inventory.IoError Metadata) (panel : Option Uuid) (offered : Option OutputKind) :
    Result Catalog := do
  c.requireOpen
  let _ ← relativePath name
  Result.require (name ≠ []) (.invalidInput "name the copy in Output/")
  match destination with
  | .ok _ =>
    .error (.invalidInput ("Output/" ++ String.ofList name ++ " already exists; choose another name"))
  | .error error =>
    Result.require (error.kind = .notFound) (.sourceUnavailable error.message)
  Result.require (source.kind = .file)
    (.invalidInput "the source is not a regular file; links are not followed")
  c.beginOutputCopy id storage source (plannedCopy name source panel) offered

inductive Step : State → Event → State → Prop
  /-- A pass of an open Project reads its basis, unless a copy runs. -/
  | basis (s : State) (pass : Nat) (hopen : s.catalog.lifecycle = .open)
      (hidle : s.catalog.copyCount.2 = false) :
      Step s (.basis pass) { s with
        passes := Function.update s.passes pass
          (some { copies := s.catalog.copyCount.1, walked := none }) }
  | walk {s : State} {pass : Nat} {p : Pass} (hpass : s.passes pass = some p) (look : Answers)
      (view : View) {tree : Tree} (hwalk : walkOutput look view.rounds = some tree) :
      Step s (.walk pass look) { s with
        passes := Function.update s.passes pass
          (some { p with walked := some ⟨look, _, view, tree, hwalk, rfl⟩ }) }
  | record {s : State} {pass copies : Nat} {walk : PassWalk}
      (hpass : s.passes pass = some { copies, walked := some walk }) {c : Catalog}
      {record : OutputScanRecord}
      (hrecord : s.catalog.recordOutputScan { copies, folder := walk.folder } = .ok (c, record)) :
      Step s (.record pass walk.look walk.folder record)
        { catalog := c, passes := Function.update s.passes pass none }
  | details {s : State} {path : Text} {kind : Option OutputKind} {channel : Option Text} {c : Catalog}
      (hset : s.catalog.setOutputDetails path kind channel = .ok c) :
      Step s (.details path kind channel) { s with catalog := c }
  | begin {s : State} {id storage : Uuid} {name : Text} {source : EntryEvidence}
      {destination : Except Inventory.IoError Metadata} {panel : Option Uuid} {offered : Option OutputKind}
      {c : Catalog} (hid : ∀ operation ∈ s.catalog.operations, operation.id ≠ id)
      (hstorage : s.catalog.storage storage = none)
      (hbegin : copyToOutput s.catalog id storage name source destination panel offered = .ok c) :
      Step s (.begin id storage name source) { s with catalog := c }
  /-- The storage operation of a copy settles, once. -/
  | transfer {s : State} {storage : Uuid} (outcome : ItemOutcome)
      (hrunning : s.catalog.storage storage = some none) :
      Step s (.transfer storage outcome) { s with
        catalog := { s.catalog with
          storage := Function.update s.catalog.storage storage (some (some outcome)) } }
  | finish {s : State} {id : Uuid} {installed : Option ObservationFingerprint} {c : Catalog}
      {listed : Option OutputObservation}
      (hfinish : s.catalog.finishOutputCopy id installed = .ok (c, listed)) :
      Step s (.finish id listed) { s with catalog := c }
  /-- Another operation of the Project starts. -/
  | reserve {s : State} {id : Uuid} {kind : ProjectOperationKind} {c : Catalog}
      (hkind : kind ≠ .copyToOutput) (hid : ∀ operation ∈ s.catalog.operations, operation.id ≠ id)
      (hreserve : s.catalog.reserveOperation id kind = .ok c) :
      Step s (.reserve id kind) { s with catalog := c }
  /-- An operation settles, a Copy to Output only after its copy has. -/
  | settle {s : State} {id : Uuid} {c : Catalog}
      (hcopy : ∀ copy ∈ s.catalog.copies, copy.operationId ≠ id)
      (hsettle : s.catalog.settleOperation id = .ok c) :
      Step s (.settle id) { s with catalog := c }
  | lifecycle (s : State) (lifecycle : ProjectLifecycle) :
      Step s (.lifecycle lifecycle) { s with catalog := { s.catalog with lifecycle } }

abbrev Runs (trace : List Event) (s : State) : Prop := Run Step State.start trace s

/-! ## What holds of a run -/

/-- The names a recorded path leads through below `Output/`. -/
def fileNames (path : Text) : List Text := (components path).filterMap fun
  | .normal name => some name
  | _ => none

/-- A copy of these bytes was begun at the path and its storage operation verified it. -/
def VerifiedAt (trace : List Event) (id : Uuid) (listed : OutputObservation) : Prop :=
  ∃ storage source, .begin id storage listed.path source ∈ trace ∧
    source.sha256 = listed.sha256 ∧ .transfer storage .copied ∈ trace

/-- The pass found the file at `path` with this fingerprint. -/
def FoundAs (folder : OutputFolder) (path : Text) (fingerprint : Option ObservationFingerprint) :
    Prop :=
  ∃ files unreadable, folder = .walked files unreadable ∧
    ∃ file ∈ files, file.path = path ∧ file.fingerprint = fingerprint

/-- A readable pass that does not find the file at `path`. -/
def NotFoundBy (path : Text) : OutputFolder → Prop
  | .absent => True
  | .unreadable => False
  | .walked files unreadable => (∀ file ∈ files, file.path ≠ path) ∧
      ∀ folder ∈ unreadable, ¬ components folder <+: components path

/-- What the pass can read on the way to a file names it, and the file is a regular one. -/
def Leads (look : Answers) (names : List Text) : Prop :=
  ∀ folder name rest, names = folder ++ name :: rest →
    (∀ entries, look.readDir folder = .ok entries →
      .ok name ∈ entries ∨ ∃ error, .error error ∈ entries) ∧
    match look.lstat (folder ++ [name]) with
    | .error error => error.kind ≠ .notFound
    | .ok metadata => metadata.link = false ∧ metadata.isDir = !rest.isEmpty ∧
        metadata.isFile = rest.isEmpty

/-- The file below `Output/` is there with this fingerprint, whatever the pass could read of it. -/
structure Keeps (look : Answers) (names : List Text) (fingerprint : Option ObservationFingerprint) :
    Prop where
  root : ∀ error, look.lstat [] = .error error → error.kind ≠ .notFound
  leads : Leads look names
  probed : look.probe names = fingerprint ∨ look.probe names = none

/-- A file is listed as Copied only with the digest of a copy verified at its path, whose installed
fingerprint every pass that found it since has found. -/
def CopiedVerified (trace : List Event) (s : State) : Prop :=
  ∀ path row, s.catalog.outputs path = some row → row.origin = .copied →
    ∃ front back id listed, trace = front ++ .finish id (some listed) :: back ∧
      listed.path = path ∧ row.sha256 = listed.sha256 ∧ row.fingerprint = listed.fingerprint ∧
      VerifiedAt front id listed ∧
      ∀ pass look folder fingerprint, .record pass look folder .recorded ∈ back →
        FoundAs folder path fingerprint → fingerprint = listed.fingerprint

/-- A verified copy stays listed as Copied with its digest as long as its file keeps the installed
fingerprint. -/
def StaysCopied (trace : List Event) (s : State) : Prop :=
  ∀ front back id listed, trace = front ++ .finish id (some listed) :: back →
    (∀ pass look folder, .record pass look folder .recorded ∈ back →
      Keeps look (fileNames listed.path) listed.fingerprint) →
    ∃ row, s.catalog.outputs listed.path = some row ∧ row.origin = .copied ∧
      row.sha256 = listed.sha256 ∧ row.fingerprint = listed.fingerprint

/-- A Kind and Channel the user set stay until the user sets them again or a readable pass does not
find the file. -/
def KeepsDetails (trace : List Event) (s : State) : Prop :=
  ∀ front back path kind channel, trace = front ++ .details path kind channel :: back →
    (∀ kind' channel', .details path kind' channel' ∉ back) →
    (∀ pass look folder, .record pass look folder .recorded ∈ back → ¬ NotFoundBy path folder) →
    ∃ row, s.catalog.outputs path = some row ∧ row.kind = kind ∧ row.channel = channel

/-- A pass that read its basis before a copy finished records nothing. -/
def StaleOnce (trace : List Event) : Prop :=
  ∀ front middle back id listed pass look folder record,
    trace = front ++ .finish id listed :: (middle ++ .record pass look folder record :: back) →
    .basis pass ∉ middle → record = .stale

/-- While a Copy to Output runs no other operation starts. -/
def OneAtATime (s : State) : Prop :=
  s.catalog.copyCount.2 = true → ∀ e s', Step s e s' →
    (∀ id storage name source, e ≠ .begin id storage name source) ∧ ∀ id kind, e ≠ .reserve id kind

structure Listing (trace : List Event) (s : State) : Prop where
  verified : CopiedVerified trace s
  stays : StaysCopied trace s
  details : KeepsDetails trace s
  stale : StaleOnce trace
  unchanged : ∀ pass look folder s', Step s (.record pass look folder .stale) s' →
    s'.catalog = s.catalog
  single : OneAtATime s

end PlateVault.Output
