import PlateVault.Grouping.Metadata
import PlateVault.Library.Observations

/-!
# Measurement runs and records in the catalog

A run counts the frames it was asked for, queues those without a current record and settles each with
a record or an issue. Every write is one transaction: an error leaves the catalog as it was.
-/

namespace PlateVault.Measurements

open Library

inductive RunState
  | running
  | completed
  | canceled
  | interrupted
  | failed
  deriving DecidableEq, Repr

def RunState.text : RunState → String
  | .running => "running"
  | .completed => "completed"
  | .canceled => "canceled"
  | .interrupted => "interrupted"
  | .failed => "failed"

structure MeasurementMethod where
  name : Text
  version : Nat
  deriving DecidableEq, Repr

/-- Whether the method measured the bytes or could not. -/
inductive MeasurementOutcome
  | measured
  | failed
  deriving DecidableEq, Repr

/-- What a worker measured; `basis` is the fingerprint of the bytes it read. -/
structure MeasurementRecord where
  id : Uuid
  assetId : Uuid
  runId : Uuid
  method : MeasurementMethod
  dequeueSequence : Nat
  basis : ObservationFingerprint
  outcome : MeasurementOutcome
  deriving DecidableEq, Repr

structure RunIssue where
  assetId : Uuid
  kind : Text
  deriving DecidableEq, Repr

/-- A row of `measurement_runs`. -/
structure RunRow where
  id : Uuid
  method : MeasurementMethod
  state : RunState
  revision : Nat
  requested : Nat
  alreadyCached : Nat
  measured : Nat
  failed : Nat
  unavailable : Nat
  deriving DecidableEq, Repr

/-- A row of `measurement_run_queue`. -/
structure QueueRow where
  runId : Uuid
  assetId : Uuid
  settled : Bool
  deriving DecidableEq, Repr

structure Asset where
  id : Uuid
  fingerprint : ObservationFingerprint
  availability : Availability
  deriving DecidableEq, Repr

structure Catalog where
  runs : List RunRow
  queue : List QueueRow
  issues : List (Uuid × RunIssue)
  records : List MeasurementRecord
  assets : List Asset
  deriving DecidableEq, Repr

structure RunCounters where
  requested : Nat
  alreadyCached : Nat
  measured : Nat
  failed : Nat
  unavailable : Nat
  remaining : Nat
  deriving DecidableEq, Repr

structure MeasurementRun where
  operationId : Uuid
  revision : Nat
  state : RunState
  method : MeasurementMethod
  counters : RunCounters
  issues : List RunIssue
  deriving DecidableEq, Repr

namespace Catalog

/-! ## Reads -/

def remaining (c : Catalog) (run : Uuid) : Nat :=
  (c.queue.filter fun row => row.runId = run && !row.settled).length

def view (c : Catalog) (row : RunRow) : MeasurementRun where
  operationId := row.id
  revision := row.revision
  state := row.state
  method := row.method
  counters := {
    requested := row.requested, alreadyCached := row.alreadyCached, measured := row.measured
    failed := row.failed, unavailable := row.unavailable, remaining := c.remaining row.id }
  issues := (c.issues.filter fun issue => issue.1 = row.id).map Prod.snd

def loadRun (c : Catalog) (id : Uuid) : Result MeasurementRun :=
  Result.orElse ((c.runs.find? fun row => row.id = id).map c.view)
    (.notFound ("measurement run " ++ id.hyphenated))

def runningRun (c : Catalog) : Option MeasurementRun :=
  (c.runs.find? fun row => row.state = .running).map c.view

def loadAsset (c : Catalog) (id : Uuid) : Result Asset :=
  Result.orElse (c.assets.find? fun asset => asset.id = id)
    (.notFound ("asset " ++ id.hyphenated))

def loadAssets (c : Catalog) (ids : List Uuid) : Result Unit :=
  Result.require (ids.all fun id => c.assets.any fun asset => asset.id = id)
    (.notFound "one or more assets")

def runAssets (c : Catalog) (run : Uuid) : List Uuid :=
  (c.queue.filter fun row => row.runId = run).map QueueRow.assetId

end Catalog

/-! ## Checks -/

def validateMethod (method : MeasurementMethod) : Result Unit :=
  Result.require (!(trim method.name).isEmpty && method.version ≠ 0)
    (.invalidInput "a measurement method needs a name and a version above 0")

def uniqueFrom (seen : List Uuid) : List Uuid → Result Unit
  | [] => .ok ()
  | id :: ids => do
    Result.require (!seen.contains id) (.invalidInput ("asset " ++ id.hyphenated ++ " is listed twice"))
    uniqueFrom (id :: seen) ids

def unique (ids : List Uuid) : Result Unit := uniqueFrom [] ids

def conflict (run : MeasurementRun) : LibraryError := .conflict run.operationId run.revision

def requireRunning (run : MeasurementRun) : Result Unit :=
  Result.require (run.state = .running) (conflict run)

/-- `db_count`: what a column holds. -/
def dbCount (value : Nat) : Result Unit :=
  Result.require (value < 2 ^ 63) (.invalidInput "count out of range")

namespace Catalog

def requireUnsettled (c : Catalog) (run : MeasurementRun) (asset : Uuid) : Result Unit :=
  match c.queue.find? fun row => row.runId = run.operationId && row.assetId = asset with
  | none => .error (.invalidInput ("run " ++ run.operationId.hyphenated ++ " does not hold asset " ++
      asset.hyphenated))
  | some row => Result.require (!row.settled) (conflict run)

/-! ## Writes -/

def updateRun (c : Catalog) (id : Uuid) (f : RunRow → RunRow) : Catalog :=
  { c with runs := c.runs.map fun row => if row.id = id then f row else row }

def enqueue (c : Catalog) (run : Uuid) (assets : List Uuid) : Catalog :=
  { c with queue := c.queue ++ assets.map fun asset =>
      { runId := run, assetId := asset, settled := false } }

def settle (c : Catalog) (run asset : Uuid) : Catalog :=
  updateRun
    { c with queue := c.queue.map fun row =>
        if row.runId = run ∧ row.assetId = asset then { row with settled := true } else row }
    run fun row => { row with revision := row.revision + 1 }

def addIssue (c : Catalog) (run : Uuid) (issue : RunIssue) : Catalog :=
  updateRun { c with issues := c.issues ++ [(run, issue)] } run
    fun row => { row with unavailable := row.unavailable + 1 }

def others (c : Catalog) (record : MeasurementRecord) : List MeasurementRecord :=
  c.records.filter fun old =>
    ¬ (old.assetId = record.assetId ∧ old.method.name = record.method.name)

/-- Replace the asset's record for the method name and count its outcome. -/
def storeRecord (c : Catalog) (record : MeasurementRecord) : Catalog :=
  updateRun
    { c with records := c.others record ++ [record] }
    record.runId fun row => match record.outcome with
      | .measured => { row with measured := row.measured + 1 }
      | .failed => { row with failed := row.failed + 1 }

def changedIssue : Text := "identity_conflict".toList

def retiredIssue : Text := "source_unavailable".toList

/-- Start the catalog's one Running run with `queued` in queue order. -/
def beginMeasurementRun (c : Catalog) (id : Uuid) (method : MeasurementMethod) (queued : List Uuid)
    (alreadyCached : Nat) : Result Catalog := do
  validateMethod method
  unique queued
  Result.require (queued.length + alreadyCached < 2 ^ 64)
    (.invalidInput "requested count out of range")
  match c.runningRun with
  | some running => .error (conflict running)
  | none =>
    c.loadAssets queued
    dbCount (queued.length + alreadyCached)
    dbCount alreadyCached
    Result.require (c.runs.all fun row => row.id ≠ id)
      (.persistenceFailure "UNIQUE constraint failed: measurement_runs.id")
    let run : RunRow := {
      id, method, state := .running, revision := 1, requested := queued.length + alreadyCached
      alreadyCached, measured := 0, failed := 0, unavailable := 0 }
    return { c with runs := c.runs ++ [run] }.enqueue id queued

/-- Join more frames to the Running run; those it already holds are not queued twice. -/
def extendMeasurementRun (c : Catalog) (run : Uuid) (queued : List Uuid) (alreadyCached : Nat) :
    Result Catalog := do
  unique queued
  let current ← c.loadRun run
  requireRunning current
  c.loadAssets queued
  let fresh := queued.filter fun id => !(c.runAssets run).contains id
  Result.require (fresh.length + alreadyCached < 2 ^ 64)
    (.invalidInput "requested count out of range")
  dbCount (fresh.length + alreadyCached)
  dbCount alreadyCached
  return (c.enqueue run fresh).updateRun run fun row => { row with
    requested := row.requested + (fresh.length + alreadyCached)
    alreadyCached := row.alreadyCached + alreadyCached
    revision := row.revision + 1 }

/-- Settle one queued frame with its record, or with an issue where the asset is Retired or its
current fingerprint no longer matches the record's basis. -/
def recordMeasurement (c : Catalog) (run : Uuid) (record : MeasurementRecord) : Result Catalog := do
  Result.require (record.runId = run) (.invalidInput ("measurement " ++
    record.id.hyphenated ++ " belongs to run " ++ record.runId.hyphenated ++ ", not " ++ run.hyphenated))
  let current ← c.loadRun run
  requireRunning current
  Result.require (record.method = current.method) (.invalidInput ("measurement method " ++
    String.ofList record.method.name ++ " v" ++ String.ofList (decimal record.method.version) ++
    " differs from the run's " ++ String.ofList current.method.name ++ " v" ++
    String.ofList (decimal current.method.version)))
  c.requireUnsettled current record.assetId
  let asset ← c.loadAsset record.assetId
  if asset.availability = .retired then
    return (c.addIssue run { assetId := asset.id, kind := retiredIssue }).settle run record.assetId
  else if fingerprintMatches asset.fingerprint record.basis then
    Result.require ((c.others record).all fun old => old.id ≠ record.id)
      (.persistenceFailure "UNIQUE constraint failed: measurement_records.id")
    return (c.storeRecord record).settle run record.assetId
  else
    return (c.addIssue run { assetId := asset.id, kind := changedIssue }).settle run record.assetId

def recordRunIssue (c : Catalog) (run : Uuid) (issue : RunIssue) : Result Catalog := do
  Result.require (!issue.kind.isEmpty) (.invalidInput "a run issue needs a kind")
  let current ← c.loadRun run
  requireRunning current
  c.requireUnsettled current issue.assetId
  return (c.addIssue run issue).settle run issue.assetId

def finishMeasurementRun (c : Catalog) (run : Uuid) (state : RunState) : Result Catalog := do
  Result.require (state = .completed || state = .canceled || state = .failed)
    (.invalidInput ("a run finishes as completed, canceled or failed, not " ++ state.text))
  let current ← c.loadRun run
  requireRunning current
  Result.require (!(state = .completed && current.counters.remaining > 0))
    (.invalidInput ("run " ++ run.hyphenated ++ " still has " ++
      String.ofList (decimal current.counters.remaining) ++ " unsettled frames"))
  return c.updateRun run fun row => { row with state, revision := row.revision + 1 }

def recoverInterrupted (c : Catalog) : Catalog :=
  { c with runs := c.runs.map fun row =>
      if row.state = .running then { row with state := .interrupted, revision := row.revision + 1 }
      else row }

end Catalog

/-! ## Validity -/

inductive RecordValidity
  | absent
  | stale
  | valid
  deriving DecidableEq, Repr

def validity (asset : Asset) (record : Option MeasurementRecord) (method : MeasurementMethod) :
    RecordValidity :=
  match record with
  | none => .absent
  | some record =>
    if asset.availability ≠ .retired ∧ record.method = method ∧
        fingerprintMatches asset.fingerprint record.basis then .valid
    else .stale

/-- An asset with its latest record for a method name and that record's validity. -/
structure FrameRecordBasis where
  asset : Asset
  record : Option MeasurementRecord
  validity : RecordValidity
  deriving DecidableEq, Repr

def Catalog.latestRecord (c : Catalog) (asset : Uuid) (name : Text) : Option MeasurementRecord :=
  c.records.find? fun record => record.assetId = asset ∧ record.method.name = name

/-- Each asset in request order with its latest record for the method's name. -/
def Catalog.frameRecords (c : Catalog) (assets : List Uuid) (method : MeasurementMethod) :
    Result (List FrameRecordBasis) := do
  c.loadAssets assets
  unique assets
  assets.mapM fun id => do
    let asset ← c.loadAsset id
    let record := c.latestRecord id method.name
    return { asset, record, validity := validity asset record method }

end PlateVault.Measurements
