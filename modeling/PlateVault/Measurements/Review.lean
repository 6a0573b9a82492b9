import PlateVault.Measurements.Accounts

/-!
# Measuring frames

The one run a review works on, in memory, and the workers that measure its frames. What a call does
under the run's lock is one step, and so are a worker's read of the abort flag, its write and its
mark of a failed run. A catalog write of any step may fail and then leaves the catalog as it was.
-/

namespace PlateVault.Measurements

structure ActiveRun where
  id : Uuid
  pending : List Uuid
  /-- Every asset the run's queue has held. -/
  held : List Uuid
  /-- The state the run ends in once its workers stop, when not Completed. -/
  ends : Option RunState
  dequeued : Nat
  workers : Nat
  deriving DecidableEq, Repr

/-- What came of measuring a frame: the bytes' fingerprint with the outcome, or why they could not be
read. -/
inductive Measured
  | read (basis : ObservationFingerprint) (outcome : MeasurementOutcome)
  | unread (kind : Text)
  deriving DecidableEq, Repr

inductive WorkerAt
  /-- About to take the next frame. -/
  | next
  | measuring (asset : Uuid) (sequence : Nat)
  /-- About to settle a frame it measured while the run was not stopping. -/
  | settling (asset : Uuid) (sequence : Nat) (measured : Measured)
  /-- Its settle failed. -/
  | refused
  /-- About to mark the run failed. -/
  | failing
  /-- The run is marked; about to stop the other workers. -/
  | stopping
  deriving DecidableEq, Repr

structure Worker where
  run : Uuid
  place : WorkerAt
  deriving DecidableEq, Repr

structure State where
  catalog : Catalog
  run : Option ActiveRun
  abort : Bool
  shutdown : Bool
  workers : List Worker
  deriving DecidableEq, Repr

def written {α : Type} (writes : Bool) (r : Result α) : Result α :=
  if writes then r else .error (.persistenceFailure "the catalog could not be written")

/-- The queued ones of `assets` in the order given, and the frames left in the queue. -/
def taken : List Uuid → List Uuid → List Uuid × List Uuid
  | pending, [] => ([], pending)
  | pending, asset :: assets =>
    if pending.contains asset then
      let later := taken (pending.erase asset) assets
      (asset :: later.1, later.2)
    else taken pending assets

def moveToHead (pending assets : List Uuid) : List Uuid :=
  (taken pending assets).1 ++ (taken pending assets).2

def runConflict (c : Catalog) (run : Uuid) : Result LibraryError := do
  let status ← c.loadRun run
  return conflict status

namespace State

/-- Bring the run's workers up to the pool size for its pending frames, and to at least `minimum`. -/
def spawnWorkers (s : State) (pool : Nat) (active : ActiveRun) (minimum : Nat) : State :=
  let wanted := max (min pool active.pending.length) minimum
  { s with
    run := some { active with workers := max active.workers wanted }
    workers := s.workers ++
      List.replicate (wanted - active.workers) { run := active.id, place := .next } }

def queuedOf (order : List FrameRecordBasis) : List Uuid :=
  (order.filter fun basis => basis.validity ≠ .valid).map fun basis => basis.asset.id

def begin (s : State) (pool : Nat) (method : MeasurementMethod) (id : Uuid)
    (order : List FrameRecordBasis) (writes : Bool) : Result State := do
  let cached := (order.filter fun basis => basis.validity = .valid).length
  let ids := queuedOf order
  let catalog ← written writes (s.catalog.beginMeasurementRun id method ids cached)
  return { s with catalog, abort := false }.spawnWorkers pool {
    id, pending := ids, held := ids, ends := none, dequeued := 0, workers := 0 } 1

/-- The frames of `order` that a run counts as cached: a frame it measured is counted once. -/
def cachedBefore (run : Uuid) (order : List FrameRecordBasis) : Nat :=
  (order.filter fun basis => basis.validity = .valid &&
    basis.record.any fun record => record.runId ≠ run).length

def join (s : State) (pool : Nat) (active : ActiveRun) (order : List FrameRecordBasis)
    (priority : List Uuid) (writes : Bool) : Result State :=
  if active.ends.isSome then do
    let error ← runConflict s.catalog active.id
    .error error
  else do
    let ids := (queuedOf order).filter fun asset => !active.held.contains asset
    let catalog ← written writes
      (s.catalog.extendMeasurementRun active.id ids (cachedBefore active.id order))
    return { s with catalog }.spawnWorkers pool { active with
      held := active.held ++ ids
      pending := moveToHead (active.pending ++ ids) priority } 0

/-- The requested frames as `read` has them, the priority ones first. -/
def ordered (read : Catalog) (method : MeasurementMethod) (assets priority : List Uuid) :
    Result (List FrameRecordBasis) := do
  Result.require (!assets.isEmpty) (.invalidInput "a measurement needs at least one asset")
  match priority.find? fun asset => !assets.contains asset with
  | some outside => .error (.invalidInput ("priority asset " ++ outside.hyphenated ++
      " is not one of the requested assets"))
  | none =>
    let records ← read.frameRecords assets method
    match records.find? fun basis => basis.asset.availability = .trashed with
    | some trashed => .error (.invalidInput ("asset " ++ trashed.asset.id.hyphenated ++
        " is in the Trash and is never measured"))
    | none =>
      return (priority ++ assets).eraseDups.filterMap fun asset =>
        records.find? fun basis => basis.asset.id = asset

/-- Queue every asset without a valid record. While a run is Running the frames join it. -/
def startMeasurement (s : State) (pool : Nat) (method : MeasurementMethod) (read : Catalog)
    (assets priority : List Uuid) (id : Uuid) (writes : Bool) : Result State := do
  let order ← ordered read method assets priority
  match s.run with
  | some active => s.join pool active order priority writes
  | none => s.begin pool method id order writes

/-- Move those of `assets` still queued in `run` to the head of its queue. -/
def prioritize (s : State) (run : Uuid) (assets : List Uuid) : State :=
  match s.run.filter fun active => active.id = run with
  | some active => { s with run := some { active with pending := moveToHead active.pending assets } }
  | none => s

/-- Stop dequeuing; the run reads Canceled once its in-flight frames settle. -/
def cancelMeasurement (s : State) (run : Uuid) : State :=
  match s.run.filter fun active => active.id = run with
  | some active =>
    { s with run := some { active with ends := active.ends.or (some .canceled) }, abort := true }
  | none => s

/-- What the last worker leaves of a run: its end, or Failed where that could not be written. -/
def finish (c : Catalog) (run : Uuid) (state : RunState) (writes again : Bool) : Catalog :=
  match written writes (c.finishMeasurementRun run state) with
  | .ok finished => finished
  | .error _ =>
    if state ≠ .failed then
      match written again (c.finishMeasurementRun run .failed) with
      | .ok finished => finished
      | .error _ => c
    else c

/-- The next queued frame with its dequeue sequence. A worker without one leaves; the last one
settles the run. -/
def nextFrame (s : State) (run : Uuid) (writes again : Bool) : State × Option (Uuid × Nat) :=
  match s.run.filter fun active => active.id = run with
  | none => (s, none)
  | some active =>
    if s.shutdown then (s, none)
    else match active.ends, active.pending with
      | none, asset :: pending =>
        let active := { active with pending, dequeued := active.dequeued + 1 }
        ({ s with run := some active }, some (asset, active.dequeued))
      | _, _ =>
        let active := { active with workers := active.workers - 1 }
        if active.workers > 0 then ({ s with run := some active }, none)
        else
          let catalog := finish s.catalog run (active.ends.getD .completed) writes again
          ({ s with catalog, run := none }, none)

/-- Settle a measured frame with its record, or with an issue for a source that could not be read. -/
def settle (s : State) (method : MeasurementMethod) (run asset : Uuid) (sequence : Nat)
    (measured : Measured) (id : Uuid) (writes : Bool) : Result State := do
  let catalog ← written writes (match measured with
    | .read basis outcome => s.catalog.recordMeasurement run {
        id, assetId := asset, runId := run, method, dequeueSequence := sequence, basis, outcome }
    | .unread kind => s.catalog.recordRunIssue run { assetId := asset, kind })
  return { s with catalog }

def markFailed (s : State) (run : Uuid) : State :=
  match s.run.filter fun active => active.id = run with
  | some active => { s with run := some { active with ends := some .failed } }
  | none => s

end State

/-! ## Steps -/

inductive Event
  /-- Frames joined the queue of the run in memory. -/
  | started (joined : List (Uuid × Uuid))
  | canceled (run : Uuid)
  | measured (run asset : Uuid) (measured : Measured)
  | settled (run asset : Uuid)
  | failed (run : Uuid)
  | quiet

/-- The frames that joined the in-memory queue between two states. -/
def joinedBy (s s' : State) : List (Uuid × Uuid) :=
  match s'.run with
  | none => []
  | some active =>
    (active.held.drop ((s.run.map fun before => before.held.length).getD 0)).map (active.id, ·)

/-- A step of a review whose workers number at most `pool`: a call, a worker's move, an observation
of the assets by another part of the library, an exit or the next open. -/
inductive Step (pool : Nat) (method : MeasurementMethod) : State → Event → State → Prop
  | start {s s' : State} {read : Catalog} {assets priority : List Uuid} {id : Uuid} {writes : Bool} :
      s.shutdown = false →
      s.startMeasurement pool method read assets priority id writes = .ok s' →
      Step pool method s (.started (joinedBy s s')) s'
  | prioritize {s : State} (run : Uuid) (assets : List Uuid) :
      s.shutdown = false → Step pool method s .quiet (s.prioritize run assets)
  | cancel {s : State} {run : Uuid} :
      s.shutdown = false → (s.run.filter fun active => active.id = run).isSome = true →
      Step pool method s (.canceled run) (s.cancelMeasurement run)
  | take {s s' : State} {before after : List Worker} {run asset : Uuid} {sequence : Nat}
      {writes again : Bool} :
      s.workers = before ++ { run, place := .next } :: after →
      s.nextFrame run writes again = (s', some (asset, sequence)) →
      Step pool method s .quiet
        { s' with workers := before ++ { run, place := .measuring asset sequence } :: after }
  | leave {s s' : State} {before after : List Worker} {run : Uuid} {writes again : Bool} :
      s.workers = before ++ { run, place := .next } :: after →
      s.nextFrame run writes again = (s', none) →
      Step pool method s .quiet { s' with workers := before ++ after }
  | measure {s : State} {before after : List Worker} {run asset : Uuid} {sequence : Nat}
      (measured : Measured) :
      s.workers = before ++ { run, place := .measuring asset sequence } :: after →
      Step pool method s (.measured run asset measured) { s with
        workers := before ++ { run, place :=
          if s.abort then .next else .settling asset sequence measured } :: after }
  | settle {s s' : State} {before after : List Worker} {run asset id : Uuid} {sequence : Nat}
      {measured : Measured} {writes : Bool} :
      s.workers = before ++ { run, place := .settling asset sequence measured } :: after →
      s.settle method run asset sequence measured id writes = .ok s' →
      Step pool method s (.settled run asset)
        { s' with workers := before ++ { run, place := .next } :: after }
  | refuse {s : State} {before after : List Worker} {run asset : Uuid} {sequence : Nat}
      {measured : Measured} :
      s.workers = before ++ { run, place := .settling asset sequence measured } :: after →
      Step pool method s .quiet
        { s with workers := before ++ { run, place := .refused } :: after }
  | check {s : State} {before after : List Worker} {run : Uuid} :
      s.workers = before ++ { run, place := .refused } :: after →
      Step pool method s .quiet { s with
        workers := before ++ { run, place := if s.abort then .next else .failing } :: after }
  | fail {s : State} {before after : List Worker} {run : Uuid} :
      s.workers = before ++ { run, place := .failing } :: after →
      Step pool method s (.failed run)
        { s.markFailed run with workers := before ++ { run, place := .stopping } :: after }
  | stop {s : State} {before after : List Worker} {run : Uuid} :
      s.workers = before ++ { run, place := .stopping } :: after →
      Step pool method s .quiet
        { s with abort := true, workers := before ++ { run, place := .next } :: after }
  | observe {s : State} (assets : List Asset) :
      Step pool method s .quiet { s with catalog := { s.catalog with assets } }
  | close {s : State} : Step pool method s .quiet { s with shutdown := true, abort := true }
  | reopen {s : State} :
      Step pool method s .quiet {
        catalog := s.catalog.recoverInterrupted, run := none, abort := false, shutdown := false
        workers := [] }

structure Initial (s : State) : Prop where
  runs : s.catalog.runs = []
  queue : s.catalog.queue = []
  records : s.catalog.records = []
  run : s.run = none
  workers : s.workers = []

end PlateVault.Measurements
