import PlateVault.Lib.Prog
import PlateVault.Storage.Journal

/-!
# The custody executor

`step` advances one open item of a recorded operation, `runStorageOperation` steps until the
operation settles. Both read and write the journal through the catalog's calls and ask the file
system in between; every such effect may fail. A phase that leads into a change on disk is recorded
before the change.
-/

namespace PlateVault.Custody

inductive Retirement
  | moved
  | unsupported (reason : ItemReason)
  | blocked (reason : ItemReason)
  | uncertain (reason : ItemReason)

/-- What the executor asks of the catalog and the file system. -/
inductive Act
  | storageOperation (id : Uuid)
  | startStorageOperation (id : Uuid)
  | advanceStorageItem (id : Uuid) (seq expected : Nat) (change : ItemChange)
  | settleStorageOperation (id : Uuid)
  | inPlace (source : EntryEvidence)
  | begin (id : Uuid) (seq : Nat) (destination : TransferDestination)
  | write (source : EntryEvidence) (destination : TransferDestination) (written : WrittenCopy)
  | verify (source : EntryEvidence) (destination : TransferDestination) (written : WrittenCopy)
  | retire (source : EntryEvidence) (reliedOn : List KeptCopy)
      (target : Option (TransferDestination × WrittenCopy))

abbrev Act.Answer : Act → Type
  | .storageOperation _ | .startStorageOperation _ | .settleStorageOperation _ => StorageOperation
  | .advanceStorageItem .. => StorageItem
  | .inPlace _ => Bool
  | .begin .. | .write .. => Except ItemReason WrittenCopy
  | .verify .. => Except ItemReason Unit
  | .retire .. => Retirement

abbrev Exec (α : Type) := Prog.Trying Act LibraryError Act.Answer α

/-- One effect, awaited with `?`. -/
abbrev ask (act : Act) : Exec act.Answer := Prog.ask act

/-! ## Item changes -/

def change (item : StorageItem) (phase : ItemPhase) : ItemChange :=
  { phase, outcome := none, reason := none, written := item.written }

def settled (item : StorageItem) (outcome : ItemOutcome) (reason : Option ItemReason) : ItemChange :=
  { phase := .settled, outcome := some outcome, reason, written := item.written }

def interrupted (item : StorageItem) : ItemChange :=
  settled item .uncertain (some {
    code := .interrupted
    detail := "the move to the OS Trash was requested before an interruption and the entry is no " ++
      "longer in place with its recorded identity; check the OS Trash" })

def destination (item : StorageItem) : Result TransferDestination :=
  Result.orElse item.destination
    (.persistenceFailure s!"transfer item {item.seq} has no destination")

def written (item : StorageItem) : Result WrittenCopy :=
  Result.orElse item.written
    (.persistenceFailure s!"transfer item {item.seq} names no written copy")

def ItemPhase.debug : ItemPhase → String
  | .pending => "Pending"
  | .writing => "Writing"
  | .installed => "Installed"
  | .destinationVerified => "DestinationVerified"
  | .retiring => "Retiring"
  | .settled => "Settled"

def StorageOperationKind.debug : StorageOperationKind → String
  | .trash => "Trash"
  | .copy => "Copy"
  | .move => "Move"

def cannotAdvance (kind : StorageOperationKind) (item : StorageItem) : LibraryError :=
  .persistenceFailure ("storage item " ++ toString item.seq ++ " cannot advance from " ++
    ItemPhase.debug item.phase ++ " in a " ++ StorageOperationKind.debug kind ++ " operation")

def retirementChange (kind : StorageOperationKind) (item : StorageItem) : Retirement → ItemChange
  | .moved => settled item (if kind = .move then .moved else .trashed) none
  | .unsupported reason =>
    settled item (if kind = .move then .sourceKept else .blocked) (some reason)
  | .blocked reason => settled item .blocked (some reason)
  | .uncertain reason => settled item .uncertain (some reason)

/-! ## The executor -/

def record (id : Uuid) (item : StorageItem) (change : ItemChange) : Exec StorageItem :=
  ask (.advanceStorageItem id item.seq item.revision change)

def retire (kind : StorageOperationKind) (item : StorageItem) :
    Exec (ItemChange × StorageItem) := do
  let target ← match kind with
    | .move => do
      let destination ← liftM (destination item)
      let written ← liftM (written item)
      pure (some (destination, written))
    | _ => pure none
  let retirement ← ask (.retire item.source item.reliedOn target)
  return (retirementChange kind item retirement, item)

def startRetiring (id : Uuid) (kind : StorageOperationKind) (item : StorageItem) :
    Exec (ItemChange × StorageItem) := do
  let retiring ← record id item (change item .retiring)
  retire kind retiring

def resumeRetiring (kind : StorageOperationKind) (item : StorageItem) :
    Exec (ItemChange × StorageItem) := do
  if ← ask (.inPlace item.source) then retire kind item else return (interrupted item, item)

def beginCopy (id : Uuid) (item : StorageItem) : Exec (ItemChange × StorageItem) := do
  let destination ← liftM (destination item)
  match ← ask (.begin id item.seq destination) with
  | .ok written => return ({ change item .writing with written := some written }, item)
  | .error reason => return (settled item .blocked (some reason), item)

/-- The copy now at the destination may carry an identity of its own. -/
def writeCopy (item : StorageItem) : Exec (ItemChange × StorageItem) := do
  let destination ← liftM (destination item)
  let written ← liftM (written item)
  match ← ask (.write item.source destination written) with
  | .ok installed => return ({ change item .installed with written := some installed }, item)
  | .error reason => return (settled item .blocked (some reason), item)

def verifyCopy (kind : StorageOperationKind) (item : StorageItem) :
    Exec (ItemChange × StorageItem) := do
  let destination ← liftM (destination item)
  let written ← liftM (written item)
  match ← ask (.verify item.source destination written) with
  | .ok () =>
    return (if kind = .copy then settled item .copied none else change item .destinationVerified, item)
  | .error reason => return (settled item .blocked (some reason), item)

/-- The change an item takes next, and the item as it is then recorded. -/
def nextChange (id : Uuid) (kind : StorageOperationKind) (item : StorageItem) :
    Exec (ItemChange × StorageItem) :=
  match kind, item.phase with
  | .trash, .pending | .move, .destinationVerified => startRetiring id kind item
  | .trash, .retiring | .move, .retiring => resumeRetiring kind item
  | .copy, .pending | .move, .pending => beginCopy id item
  | .copy, .writing | .move, .writing => writeCopy item
  | .copy, .installed | .move, .installed => verifyCopy kind item
  | _, _ => throw (cannotAdvance kind item)

def advance (id : Uuid) (kind : StorageOperationKind) (item : StorageItem) : Exec Unit := do
  let (next, current) ← nextChange id kind item
  let _ ← record id current next

def settleDone (id : Uuid) (operation : StorageOperation) : Exec StorageOperation :=
  if operation.items.all fun item => item.outcome.isSome then ask (.settleStorageOperation id)
  else return operation

def stepRunning (id : Uuid) (operation : StorageOperation) : Exec StorageOperation :=
  match operation.items.find? fun item => item.outcome.isNone with
  | some item => do
    advance id operation.kind item
    settleDone id (← ask (.storageOperation id))
  | none => settleDone id operation

def step (id : Uuid) : Exec StorageOperation := do
  let operation ← ask (.storageOperation id)
  match operation.state with
  | .settled => return operation
  | .reviewed => stepRunning id (← ask (.startStorageOperation id))
  | .running => stepRunning id operation

/-- The loop of `run_storage_operation`, for at most `steps` steps. -/
def runStorageOperation (id : Uuid) (steps : Nat) : Exec (Option StorageOperation) :=
  match steps with
  | 0 => return none
  | steps + 1 => do
    let operation ← step id
    if operation.state = .settled then return some operation else runStorageOperation id steps

end PlateVault.Custody
