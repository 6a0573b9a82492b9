import Mathlib.Data.Char
import Mathlib.Data.List.Lex
import PlateVault.Lib.Runs
import PlateVault.Reminders.Runtime

/-!
# The system of tasks and calls

A catalog, the scheduler tasks spawned so far and the planning calls begun so far. A step is one
effect of a task or of a call, or what happens around them: a call dropped at an await, a task that
panics, the catalog reopened with its scheduler dropped, the process killed, the clock.
-/

namespace PlateVault.Reminders

open Planning

/-- A scheduler: the lifecycle word, the stored permit of its `Notify`, whether a stop was requested
or its handle dropped, and what is left of the task's turn; no program once the task has finished. -/
structure Scheduler (A : Almanac) where
  word : Word
  permit : Bool
  stop : Bool
  program : Option (Task A Flow)

/-- The planning runtime behind its mutex: the call that holds it, whether a notifier is attached, the
scheduler's handle, and a handle its holder took out. -/
structure Runtime where
  holder : Option Nat
  attached : Bool
  scheduler : Option Nat
  taken : Option Nat
  deriving DecidableEq, Repr

structure System (A : Almanac) where
  tables : Tables A
  wall : Int
  tasks : Nat → Scheduler A
  spawned : Nat
  runtime : Runtime
  calls : Nat → Option (Call A Unit)

inductive Label (A : Almanac)
  | task (i : Nat) (e : Effect A) (r : Answer e)
  | call (c : Nat) (e : CallEffect A) (r : CallAnswer e)
  | begin (c : Nat) (call : LibraryCall A)
  | cancel (c : Nat)
  | panicked (i : Nat)
  | reopen
  | crash
  | tick (wall : Int)
  | saveTarget (target : TargetRecord A.toAstronomy)

section Steps

variable {A : Almanac}

namespace System

/-- A catalog just created, before any notifier is attached. -/
def init (A : Almanac) : System A where
  tables := .empty A
  wall := 0
  tasks _ := ⟨0, false, false, none⟩
  spawned := 0
  runtime := ⟨none, false, none, none⟩
  calls _ := none

def setTask (s : System A) (i : Nat) (task : Scheduler A) : System A :=
  { s with tasks := Function.update s.tasks i task }

def setProgram (s : System A) (i : Nat) (program : Option (Task A Flow)) : System A :=
  s.setTask i { s.tasks i with program }

def setCall (s : System A) (c : Nat) (program : Call A Unit) : System A :=
  { s with calls := Function.update s.calls c (some program) }

def dropped (s : System A) : System A :=
  { s with
    tasks := fun i => { s.tasks i with stop := true }
    runtime := ⟨none, false, none, none⟩
    calls := fun c => (s.calls c).map fun _ => pure () }

/-- The catalog opened again while the old tasks may still run. -/
def reopened (s : System A) : System A :=
  { s.dropped with tables := recoverSending s.tables }

/-- The catalog opened again after the process was killed. -/
def crashed (s : System A) : System A :=
  { s.reopened with tasks := fun i => { s.tasks i with stop := true, program := none } }

/-- The call's future is dropped: what it holds is released, a handle it took out is dropped. -/
def cancelled (s : System A) (c : Nat) : System A :=
  let s := s.setCall c (pure ())
  if s.runtime.holder = some c then
    let released := { s with runtime := { s.runtime with holder := none, taken := none } }
    match s.runtime.taken with
    | some i => released.setTask i { s.tasks i with stop := true }
    | none => released
  else s

end System

def Read {α : Type} (found answer : Result α) : Prop := answer = found ∨ ∃ error, answer = .error error

/-- A write commits and returns its answer, or fails and changes nothing. -/
def Wrote {α : Type} (write : Tables A → Result (α × Tables A)) (s : System A) (answer : Result α)
    (s' : System A) : Prop :=
  (∃ a t, write s.tables = .ok (a, t) ∧ answer = .ok a ∧ s' = { s with tables := t }) ∨
    ((∃ error, answer = .error error) ∧ s' = s)

/-- The effects of task `i`. -/
def Performs (s : System A) (i : Nat) : (e : Effect A) → Answer e → System A → Prop
  | .load, word, s' => word = (s.tasks i).word ∧ s' = s
  | .compareExchange seen new, done, s' =>
    done = decide ((s.tasks i).word = seen) ∧
      s' = if done then s.setTask i { s.tasks i with word := new } else s
  | .wait _, .slept, s' => s' = s
  | .wait _, .notified, s' =>
    (s.tasks i).permit = true ∧ s' = s.setTask i { s.tasks i with permit := false }
  | .wait _, .stopped, s' => (s.tasks i).stop = true ∧ s' = s
  | .stopRequested, stop, s' => stop = (s.tasks i).stop ∧ s' = s
  | .now, now, s' => now = s.wall ∧ s' = s
  | .subscriptions, answer, s' =>
    Read (.ok (s.tables.reminderSubscriptions (some .enabled))) answer ∧ s' = s
  | .target id, answer, s' => Read (s.tables.loadTarget id) answer ∧ s' = s
  | .site id, answer, s' => Read (s.tables.loadSite id) answer ∧ s' = s
  | .compute target site query, answer, s' => Read (computeWindows target site query) answer ∧ s' = s
  | .permission, answer, s' => (answer = none → (s.tasks i).stop = true) ∧ s' = s
  | .block target revision reason, answer, s' =>
    Wrote (setSubscriptionState target revision .blocked (some reason)) s answer s'
  | .claim claim, answer, s' => Wrote (claimReminderDelivery claim) s answer s'
  | .submit _, answer, s' => (answer = none → (s.tasks i).stop = true) ∧ s' = s
  | .finish key outcome, answer, s' => Wrote (finishReminderDelivery key outcome) s answer s'

def settle : Task A Flow → Option (Task A Flow)
  | .pure .again => some (turn A)
  | .pure .finished => none
  | .perform e next => some (.perform e next)

def spawnedTask (A : Almanac) : Scheduler A := ⟨0, false, false, some (turn A)⟩

/-- Whether the call is the one that holds the runtime's mutex. -/
def System.Holds (s : System A) (c : Nat) : Prop := s.runtime.holder = some c

/-- The effects of call `c`. The runtime's fields are reached only under its mutex. -/
def CallPerforms (s : System A) (c : Nat) : (e : CallEffect A) → CallAnswer e → System A → Prop
  | .lock, _, s' =>
    s.runtime.holder = none ∧ s' = { s with runtime := { s.runtime with holder := some c } }
  | .unlock, _, s' => s.Holds c ∧ s' = { s with runtime := { s.runtime with holder := none } }
  | .attached, attached, s' => s.Holds c ∧ attached = s.runtime.attached ∧ s' = s
  | .attach, _, s' => s.Holds c ∧ s' = { s with runtime := { s.runtime with attached := true } }
  | .hasScheduler, found, s' => s.Holds c ∧ found = s.runtime.scheduler.isSome ∧ s' = s
  | .takeScheduler, taken, s' =>
    s.Holds c ∧ taken = s.runtime.scheduler ∧
      s' = { s with runtime := { s.runtime with scheduler := none, taken } }
  | .keepScheduler i, _, s' =>
    s.Holds c ∧ s' = { s with runtime := { s.runtime with scheduler := some i, taken := none } }
  | .spawn, i, s' =>
    s.Holds c ∧ i = s.spawned ∧
      s' = { s.setTask i (spawnedTask A) with
        spawned := i + 1, runtime := { s.runtime with taken := some i } }
  | .count i, counted, s' =>
    counted = decide ((s.tasks i).word &&& ended = 0) ∧
      s' = if counted then s.setTask i { s.tasks i with word := (s.tasks i).word + oneWake } else s
  | .notify i, _, s' => s' = s.setTask i { s.tasks i with permit := true }
  | .isFinished i, finished, s' => finished = (s.tasks i).program.isNone ∧ s' = s
  | .sendStop i, _, s' =>
    s.Holds c ∧ s.runtime.taken = some i ∧ s' = s.setTask i { s.tasks i with stop := true }
  | .join i, _, s' =>
    s.Holds c ∧ (s.tasks i).program = none ∧
      s' = { s with runtime := { s.runtime with taken := none } }
  | .anyEnabled, answer, s' =>
    Read (.ok !(s.tables.reminderSubscriptions (some .enabled)).isEmpty) answer ∧ s' = s
  | .listSites, answer, s' =>
    Read (.ok ⟨Ordered.sortBy (fun site => toLex (site.name, site.id)) s.tables.sites.rows,
      s.tables.settings.defaultSiteId, s.tables.settings.revision⟩) answer ∧ s' = s
  -- a site is created under an id that no site has
  | .saveSite id expected input, answer, s' =>
    ∃ fresh, s.tables.sites.find? fresh = none ∧
      Wrote (saveSite id expected input fresh) s answer s'
  | .setDefaultSite site expected, answer, s' => Wrote (setDefaultSite site expected) s answer s'
  | .putReminderSubscription write, answer, s' =>
    ∃ now, Wrote (putReminderSubscription write now) s answer s'
  | .disable target expected, answer, s' =>
    Wrote (setSubscriptionState target expected .disabled none) s answer s'
  | .permission, _, s' => s' = s
  | .requestPermission, _, s' => s' = s

inductive Step : System A → Label A → System A → Prop
  | task {s s' : System A} {i : Nat} {e : Effect A} {next : Answer e → Task A Flow} {r : Answer e}
      (hprogram : (s.tasks i).program = some (.perform e next)) (h : Performs s i e r s') :
      Step s (.task i e r) (s'.setProgram i (settle (next r)))
  | call {s s' : System A} {c : Nat} {e : CallEffect A} {next : CallAnswer e → Call A Unit}
      {r : CallAnswer e} (hprogram : s.calls c = some (.perform e next))
      (h : CallPerforms s c e r s') : Step s (.call c e r) (s'.setCall c (next r))
  | begin (s : System A) (c : Nat) (call : LibraryCall A) (hnew : s.calls c = none) :
      Step s (.begin c call) (s.setCall c call.program)
  | cancel (s : System A) (c : Nat) (hbegun : s.calls c ≠ none) :
      Step s (.cancel c) (s.cancelled c)
  | panicked (s : System A) (i : Nat) : Step s (.panicked i) (s.setProgram i none)
  | reopen (s : System A) : Step s .reopen s.reopened
  | crash (s : System A) : Step s .crash s.crashed
  | tick (s : System A) (wall : Int) : Step s (.tick wall) { s with wall }
  | saveTarget (s : System A) (target : TargetRecord A.toAstronomy) :
      Step s (.saveTarget target)
        { s with tables := { s.tables with
          targets := Function.update s.tables.targets target.id (some target) } }

end Steps

end PlateVault.Reminders
