import PlateVault.Lib.Table
import PlateVault.Storage.Records
import Mathlib.Data.List.Sort

/-!
# The storage journal's catalog calls

The catalog only records. Every item change is a compare-and-swap on the item's revision; every
call is one write transaction, so a refused one leaves the tables as they were. The rows are those
of `storage_operations` and `storage_items`, with their primary keys, the reference of an item to
its operation and the column checks.
-/

namespace PlateVault

open Result (require orElse)

/-- What the `identity` column holds: the entry kind and its no-follow fingerprint. -/
structure StoredIdentity where
  kind : EntryKind
  fingerprint : ObservationFingerprint
  deriving DecidableEq, Repr

structure OperationRow where
  id : Uuid
  kind : StorageOperationKind
  state : StorageOperationState
  revision : Nat
  createdAt : String
  updatedAt : String
  deriving DecidableEq, Repr

structure ItemRow where
  opId : Uuid
  seq : Nat
  path : NativePath
  root : Option NativePath
  identity : StoredIdentity
  sha256 : Option Text
  reliedOn : List KeptCopy
  destination : Option TransferDestination
  written : Option WrittenCopy
  phase : ItemPhase
  outcome : Option ItemOutcome
  reason : Option ItemReason
  revision : Nat
  updatedAt : String
  deriving DecidableEq, Repr

/-- The primary key of `storage_items`. -/
def ItemRow.key (row : ItemRow) : Uuid × Nat := (row.opId, row.seq)

structure Journal where
  operations : Table Uuid OperationRow OperationRow.id
  items : Table (Uuid × Nat) ItemRow ItemRow.key

namespace Journal

def empty : Journal := ⟨.empty, .empty⟩

end Journal

def invalid (message : String) : LibraryError := .invalidInput message

/-! ## Draft and change checks -/

def absolute (path : NativePath) : Result Unit := do
  require (← path.toPathBuf).absolute (invalid "custody paths must be absolute")

def isHexDigit (c : Char) : Bool := ('0' ≤ c && c ≤ '9') || ('a' ≤ c && c ≤ 'f')

def sha256 (value : Text) : Result Unit :=
  require (value.length = 64 && value.all isHexDigit)
    (invalid "a SHA-256 must be 64 lowercase hex digits")

def validateDigest (source : EntryEvidence) : Result Unit :=
  match source.kind, source.sha256 with
  | .file, some digest => sha256 digest
  | .file, none => .error (invalid "a file entry needs its reviewed SHA-256")
  | .link _, none => .ok ()
  | .link _, some _ =>
    .error (invalid "a link is recorded without following it, so it has no digest")

def validateEvidence (source : EntryEvidence) : Result Unit := do
  absolute source.path
  require source.fingerprint.contentSha256.isNone
    (invalid "entry evidence keeps its digest outside the fingerprint")
  validateDigest source

def validateKept (source : EntryEvidence) (kept : KeptCopy) : Result Unit := do
  absolute kept.path
  sha256 kept.sha256
  require (kept.path ≠ source.path)
    (invalid "an entry cannot be its own retained original or kept copy")

def Component.isNormal : Component → Bool
  | .normal _ => true
  | _ => false

def validateDestination (destination : TransferDestination) : Result Unit := do
  absolute destination.root
  let relative ← destination.relative.relativePath
  require (!relative.parts.isEmpty) (invalid "a transfer destination names a file below its root")
  require (relative.parts.all Component.isNormal)
    (invalid "a transfer destination is a plain relative path")

/-- Check every element in order, stopping at the first refusal. -/
def checkAll {α : Type} (check : α → Result Unit) : List α → Result Unit
  | [] => .ok ()
  | a :: rest => do
    check a
    checkAll check rest

/-- Trash items have no destination; transfers need one, and a file to send there. -/
def validateTransfer (kind : StorageOperationKind) (draft : StorageItemDraft) : Result Unit :=
  match kind, draft.destination with
  | .trash, none => .ok ()
  | .trash, some _ => .error (invalid "a Trash item has no transfer destination")
  | .copy, none | .move, none => .error (invalid "a transfer item needs its destination")
  | .copy, some destination | .move, some destination => do
    require (draft.source.kind = .file)
      (invalid "only files are transferred; links are never followed")
    require draft.reliedOn.isEmpty
      (invalid "a transfer relies on its own verified destination")
    validateDestination destination

def validateDraft (kind : StorageOperationKind) (draft : StorageItemDraft) : Result Unit := do
  validateEvidence draft.source
  checkAll (validateKept draft.source) draft.reliedOn
  validateTransfer kind draft

/-- The phases an item of `kind` passes through. -/
def phaseFits : StorageOperationKind → ItemPhase → Bool
  | .trash, phase => phase = .pending || phase = .retiring || phase = .settled
  | .copy, phase => phase ≠ .retiring
  | .move, _ => true

def outcomeFits (kind : StorageOperationKind) : ItemOutcome → Bool
  | .trashed => kind = .trash
  | .copied => kind = .copy
  | .moved | .sourceKept => kind = .move
  | .blocked | .uncertain => true

def explains : Option ItemOutcome → Bool
  | some .blocked | some .uncertain | some .sourceKept => true
  | _ => false

def wrote (kind : StorageOperationKind) (phase : ItemPhase) : Bool :=
  phase = .writing || phase = .installed || phase = .destinationVerified ||
    (kind = .move && phase = .retiring)

/-- A settled item carries an outcome of its kind, any other item none. -/
def validateOutcome (kind : StorageOperationKind) (change : ItemChange) : Result Unit :=
  match change.phase, change.outcome with
  | .settled, none => .error (invalid "a settled item needs its outcome")
  | .settled, some outcome =>
    require (outcomeFits kind outcome)
      (invalid "the outcome does not belong to this kind of storage operation")
  | _, none => .ok ()
  | _, some _ => .error (invalid "only a settled item carries an outcome")

def validateChange (kind : StorageOperationKind) (change : ItemChange) : Result Unit := do
  require (phaseFits kind change.phase)
    (invalid "the phase does not belong to this kind of storage operation")
  validateOutcome kind change
  require (explains change.outcome = change.reason.isSome)
    (invalid
      "blocked, uncertain and source-kept outcomes carry a reason; other changes carry none")
  require (!(wrote kind change.phase && change.written.isNone))
    (invalid "a transfer phase past pending names the copy it wrote")
  require (!(kind = .trash && change.written.isSome)) (invalid "a Trash item writes no copy")

/-! ## Rows -/

def maxColumn : Nat := 2 ^ 63 - 1

def itemFromRow (row : ItemRow) : Result StorageItem := do
  require (row.seq < 2 ^ 32) (.persistenceFailure s!"corrupt item {row.seq}")
  return {
    seq := row.seq
    source := {
      path := row.path
      root := row.root
      kind := row.identity.kind
      fingerprint := row.identity.fingerprint
      sha256 := row.sha256 }
    reliedOn := row.reliedOn
    destination := row.destination
    written := row.written
    phase := row.phase
    outcome := row.outcome
    reason := row.reason
    revision := row.revision
    updatedAt := row.updatedAt }

def ItemRow.change (row : ItemRow) (change : ItemChange) (updatedAt : String) : ItemRow :=
  { row with
    phase := change.phase
    outcome := change.outcome
    reason := change.reason
    written := change.written
    revision := row.revision + 1
    updatedAt }

@[simp] theorem ItemRow.key_change (row : ItemRow) (change : ItemChange) (updatedAt : String) :
    (row.change change updatedAt).key = row.key := rfl

def ItemRow.ofDraft (opId : Uuid) (seq : Nat) (draft : StorageItemDraft) (updatedAt : String) :
    ItemRow where
  opId
  seq
  path := draft.source.path
  root := draft.source.root
  identity := { kind := draft.source.kind, fingerprint := draft.source.fingerprint }
  sha256 := draft.source.sha256
  reliedOn := draft.reliedOn
  destination := draft.destination
  written := none
  phase := .pending
  outcome := none
  reason := none
  revision := 1
  updatedAt

def readAll {α β : Type} (read : α → Result β) : List α → Result (List β)
  | [] => .ok []
  | a :: rest => do
    let b ← read a
    return b :: (← readAll read rest)

namespace Journal

def operationRow (journal : Journal) (id : Uuid) : Result OperationRow :=
  orElse (journal.operations.find? id) (.notFound s!"storage operation {id.hyphenated}")

def operationState (journal : Journal) (id : Uuid) : Result StorageOperationState := do
  return (← journal.operationRow id).state

def itemRows (journal : Journal) (id : Uuid) : List ItemRow :=
  journal.items.rows.filter fun row => row.opId = id

def loadOperation (journal : Journal) (id : Uuid) : Result StorageOperation := do
  let row ← journal.operationRow id
  let items ← readAll itemFromRow
    ((journal.itemRows id).insertionSort fun left right => left.seq ≤ right.seq)
  return {
    id
    kind := row.kind
    state := row.state
    revision := row.revision
    items
    createdAt := row.createdAt
    updatedAt := row.updatedAt }

def loadItem (journal : Journal) (id : Uuid) (seq : Nat) : Result StorageItem := do
  let row ← orElse (journal.items.find? (id, seq))
    (.notFound s!"storage item {seq} of operation {id.hyphenated}")
  itemFromRow row

/-- `UPDATE storage_operations SET state, revision = revision + 1, updated_at`. -/
def updateOperation (journal : Journal) (id : Uuid) (state : StorageOperationState)
    (updatedAt : String) : Journal :=
  { journal with
    operations := journal.operations.modify id
      (fun row => { row with state, revision := row.revision + 1, updatedAt }) fun _ => rfl }

/-- `UPDATE storage_items SET phase, outcome, reason, written, revision = revision + 1,
updated_at`. -/
def updateItem (journal : Journal) (id : Uuid) (seq : Nat) (change : ItemChange)
    (updatedAt : String) : Journal :=
  { journal with
    items := journal.items.modify (id, seq) (fun row => row.change change updatedAt)
      fun row => row.key_change change updatedAt }

/-- A revision that leaves the integer column's range is refused by the strict table. -/
def setOperationState (journal : Journal) (id : Uuid) (state : StorageOperationState)
    (now : Result String) : Result Journal := do
  let updatedAt ← now
  let row ← journal.operationRow id
  require (row.revision < maxColumn)
    (.persistenceFailure "cannot store REAL value in INTEGER column storage_operations.revision")
  return journal.updateOperation id state updatedAt

/-! ## The calls -/

/-- One `INSERT INTO storage_items`. -/
def insertItem (journal : Journal) (id : Uuid) (seq : Nat) (draft : StorageItemDraft)
    (updatedAt : String) : Result Journal := do
  require (seq ≤ maxColumn) (invalid "too many storage items")
  require (journal.operations.find? id).isSome (.persistenceFailure "FOREIGN KEY constraint failed")
  require (draft.source.sha256.all fun digest => digest.length = 64)
    (.persistenceFailure "CHECK constraint failed: sha256 IS NULL OR length(sha256) = 64")
  let items ← orElse (journal.items.insert? (.ofDraft id seq draft updatedAt))
    (.persistenceFailure "UNIQUE constraint failed: storage_items.op_id, storage_items.seq")
  return { journal with items }

/-- The loop over the drafts, numbered from `seq`. -/
def insertItems (journal : Journal) (id : Uuid) (updatedAt : String) (seq : Nat) :
    List StorageItemDraft → Result Journal
  | [] => .ok journal
  | draft :: drafts => do
    let journal ← journal.insertItem id seq draft updatedAt
    journal.insertItems id updatedAt (seq + 1) drafts

/-- Insert a reviewed operation and its items; `id` is the new UUID. -/
def insertOperation (journal : Journal) (kind : StorageOperationKind)
    (drafts : List StorageItemDraft) (id : Uuid) (now : Result String) : Result Journal := do
  require (!drafts.isEmpty) (invalid "a storage operation needs an item")
  checkAll (validateDraft kind) drafts
  let at_ ← now
  let operations ← orElse (journal.operations.insert? {
      id, kind, state := .reviewed, revision := 1, createdAt := at_, updatedAt := at_ })
    (.persistenceFailure "UNIQUE constraint failed: storage_operations.id")
  insertItems { journal with operations } id at_ 0 drafts

def recordStorageOperation (journal : Journal) (kind : StorageOperationKind)
    (drafts : List StorageItemDraft) (id : Uuid) (now : Result String) :
    Result (StorageOperation × Journal) := do
  let journal ← journal.insertOperation kind drafts id now
  return (← journal.loadOperation id, journal)

/-- Mark a reviewed operation running; a running one is returned unchanged. -/
def startStorageOperation (journal : Journal) (id : Uuid) (now : Result String) :
    Result (StorageOperation × Journal) := do
  let journal ← match ← journal.operationState id with
    | .running => .ok journal
    | .reviewed => journal.setOperationState id .running now
    | .settled =>
      .error (invalid "storage operation is settled; review the remaining items again")
  return (← journal.loadOperation id, journal)

/-- Record one item change of a running operation by compare-and-swap. -/
def advanceStorageItem (journal : Journal) (id : Uuid) (seq expected : Nat) (change : ItemChange)
    (now : Result String) : Result (StorageItem × Journal) := do
  let operation ← journal.operationRow id
  validateChange operation.kind change
  let state ← journal.operationState id
  require (state = .running) (invalid "only a running storage operation records item progress")
  let current ← journal.loadItem id seq
  require current.outcome.isNone
    (invalid s!"storage item {seq} is settled and does not change again")
  require (current.revision = expected) (.conflict id current.revision)
  let updatedAt ← now
  require (current.revision < maxColumn)
    (.persistenceFailure "cannot store REAL value in INTEGER column storage_items.revision")
  require (decide (change.phase = .settled) = change.outcome.isSome)
    (.persistenceFailure "CHECK constraint failed: (phase = 'settled') = (outcome IS NOT NULL)")
  let journal := journal.updateItem id seq change updatedAt
  return (← journal.loadItem id seq, journal)

/-- Settle a running operation once every item carries an outcome. -/
def settleStorageOperation (journal : Journal) (id : Uuid) (now : Result String) :
    Result (StorageOperation × Journal) := do
  match ← journal.operationState id with
  | .settled => return (← journal.loadOperation id, journal)
  | .reviewed => .error (invalid "a storage operation that never started cannot settle")
  | .running =>
    let open_ := ((journal.itemRows id).filter fun row => row.outcome.isNone).length
    require (open_ = 0) (invalid s!"{open_} storage item(s) have no outcome yet")
    let journal ← journal.setOperationState id .settled now
    return (← journal.loadOperation id, journal)

end Journal

/-- A call of the journal, with the new UUID and the time the call takes from its surroundings. -/
inductive JournalCall
  | record (kind : StorageOperationKind) (drafts : List StorageItemDraft) (id : Uuid)
      (now : Result String)
  | start (id : Uuid) (now : Result String)
  | advance (id : Uuid) (seq expected : Nat) (change : ItemChange) (now : Result String)
  | settle (id : Uuid) (now : Result String)

inductive JournalAnswer
  | operation (operation : StorageOperation)
  | item (item : StorageItem)
  deriving DecidableEq, Repr

/-- `write_txn!`: a body that fails leaves the tables as they were. -/
def writeTxn {α : Type} (journal : Journal) (answer : α → JournalAnswer)
    (body : Result (α × Journal)) : Result JournalAnswer × Journal :=
  match body with
  | .ok (value, after) => (.ok (answer value), after)
  | .error error => (.error error, journal)

def Journal.call (journal : Journal) : JournalCall → Result JournalAnswer × Journal
  | .record kind drafts id now =>
    writeTxn journal .operation (journal.recordStorageOperation kind drafts id now)
  | .start id now => writeTxn journal .operation (journal.startStorageOperation id now)
  | .advance id seq expected change now =>
    writeTxn journal .item (journal.advanceStorageItem id seq expected change now)
  | .settle id now => writeTxn journal .operation (journal.settleStorageOperation id now)

end PlateVault
