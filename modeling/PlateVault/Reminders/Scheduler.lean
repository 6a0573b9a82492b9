import PlateVault.Lib.Prog
import PlateVault.Reminders.Schedule

/-!
# The scheduler task

One turn of the task's loop as a program: load the lifecycle word, run a pass, and wait or end. Every
read, write, clock reading and wait is one effect, and anything may happen between two of them.
-/

namespace PlateVault.Reminders

open Planning

/-! ## Ports -/

inductive UnavailableReason
  | unbundledProcess
  | platformNotQualified
  | limitedAuthorization
  | notifierNotAttached
  deriving DecidableEq, Repr

inductive PermissionState
  | granted
  | denied
  | notDetermined
  | unavailable (reason : UnavailableReason)
  deriving DecidableEq, Repr

/-- Why a permission blocks a subscription; none when granted. -/
def PermissionState.blockReason : PermissionState → Option BlockReason
  | .granted => none
  | .denied => some .permissionDenied
  | .notDetermined => some .permissionNotDetermined
  | .unavailable .unbundledProcess => some .unbundledProcess
  | .unavailable .platformNotQualified => some .platformNotQualified
  | .unavailable .limitedAuthorization => some .limitedAuthorization
  | .unavailable .notifierNotAttached => some .notifierNotAttached

inductive SubmitOutcome
  | submitted
  | failed (reason : Text)
  deriving DecidableEq, Repr

def SubmitOutcome.delivery : SubmitOutcome → DeliveryOutcome
  | .submitted => .submitted
  | .failed reason => .failed reason

/-! ## Effects -/

/-- The lifecycle word: its lowest bit is set once the task ended on its own, the bits above count
wakes. -/
abbrev Word := BitVec 64

def ended : Word := 1

def oneWake : Word := 2

inductive Woken
  | slept
  | notified
  | stopped
  deriving DecidableEq, Repr

inductive Effect (A : Almanac)
  | load
  | compareExchange (seen new : Word)
  | wait (delay : Int)
  | stopRequested
  | now
  | subscriptions
  | target (id : Uuid)
  | site (id : Uuid)
  | compute (target : TargetRecord A.toAstronomy) (site : SavedSite A) (query : WindowQuery A)
  | permission
  | block (target : Uuid) (revision : Nat) (reason : BlockReason)
  | claim (claim : DeliveryClaim A)
  | submit (notice : ReminderNotice)
  | finish (key : WindowKey) (outcome : DeliveryOutcome)

/-- What an effect is answered with; `none` where a stop came first. -/
abbrev Answer {A : Almanac} : Effect A → Type
  | .load => Word
  | .compareExchange .. => Bool
  | .wait _ => Woken
  | .stopRequested => Bool
  | .now => Int
  | .subscriptions => Result (List (ReminderSubscription A))
  | .target _ => Result (TargetRecord A.toAstronomy)
  | .site _ => Result (SavedSite A)
  | .compute .. => Result (WindowSet A)
  | .permission => Option PermissionState
  | .block .. => Result (ReminderSubscription A)
  | .claim _ => Result Bool
  | .submit _ => Option SubmitOutcome
  | .finish .. => Result (ReminderDelivery A)

abbrev Task (A : Almanac) (α : Type) := Prog (Effect A) Answer α

section Run

variable {A : Almanac}

abbrev ask (e : Effect A) : Task A (Answer e) := Prog.act e

/-- A subscription's windows around the current site-local night, at its subscribed site with its
criteria. -/
def scheduledWindows (subscription : ReminderSubscription A) (now : Int) :
    Task A (Result (WindowSet A)) := do
  match ← ask (.target subscription.targetId) with
  | .error error => pure (.error error)
  | .ok target =>
    match ← ask (.site subscription.siteId) with
    | .error error => pure (.error error)
    | .ok site =>
      match scheduleQuery subscription.targetId site subscription.criteria now with
      | .error error => pure (.error error)
      | .ok query => ask (.compute target site query)

inductive Stopped
  | stopped
  deriving DecidableEq, Repr

/-- Permission, claim, submission and outcome for each due window, in that order. True when a
permission that is not granted blocked the subscription. -/
def remindDue (subscription : ReminderSubscription A) (schedule : Schedule A)
    (windows : WindowSet A) : List (ObservingWindow A.toAstronomy) → Task A (Except Stopped Bool)
  | [] => pure (.ok false)
  | window :: rest => do
    match ← ask .permission with
    | none => pure (.error .stopped)
    | some permission =>
      match permission.blockReason with
      | some reason => do
        let blocked ← ask (.block subscription.targetId subscription.revision reason)
        pure (.ok blocked.toBool)
      | none => do
        let now ← ask .now
        if window.startUtc ≤ now then remindDue subscription schedule windows rest
        else do
          match ← ask (.claim ⟨window.key, window.endUtc, window.night,
            window.startUtc - schedule.lead⟩) with
          | .ok true => do
            match ← ask (.submit (notice subscription window windows.basis.designation)) with
            | none => pure (.error .stopped)
            | some outcome => do
              -- a record that fails leaves the identity `sending`
              let _ ← ask (.finish window.key outcome.delivery)
              remindDue subscription schedule windows rest
          | _ => remindDue subscription schedule windows rest

def remind (subscription : ReminderSubscription A) (windows : WindowSet A) (now : Int) :
    Task A (Except Stopped Bool) :=
  match Schedule.of subscription with
  | none => pure (.ok false)
  | some schedule => remindDue subscription schedule windows (schedule.due windows now)

inductive Pass
  | idle
  | blocked
  | wait (nextDue : Option Int)
  deriving DecidableEq, Repr

def earliest : Option Int → Option Int → Option Int
  | some a, some b => some (min a b)
  | some a, none => some a
  | none, b => b

/-- The loop of `pass` over the subscriptions it read. -/
def passOver : List (ReminderSubscription A) → Option Int → Bool → Task A (Except Stopped Pass)
  | [], nextDue, blocked => pure (.ok (if blocked then .blocked else .wait nextDue))
  | subscription :: rest, nextDue, blocked => do
    if ← ask .stopRequested then pure (.error .stopped)
    else do
      let now ← ask .now
      match ← scheduledWindows subscription now with
      | .error _ => passOver rest nextDue blocked
      | .ok windows => do
        match ← remind subscription windows now with
        | .error stop => pure (.error stop)
        | .ok reminded => do
          let now ← ask .now
          let ahead := ((upcomingReminders subscription windows now).map (·.dueAt)).find? (now < ·)
          passOver rest (earliest nextDue ahead) (blocked || reminded)

/-- Remind every due window of every enabled subscription, and return the next due instant still
ahead. -/
def pass : Task A (Except Stopped Pass) := do
  match ← ask .subscriptions with
  | .error _ => pure (.ok (.wait none))
  | .ok [] => pure (.ok .idle)
  | .ok (subscription :: rest) => passOver (subscription :: rest) none false

/-- The longest the task goes without reading the clock again. -/
def recheckInterval : Int := 30 * second

/-- How long the task waits for `due`. -/
def delayUntil (due now : Int) : Int :=
  if 0 ≤ due - now then min (due - now) recheckInterval else recheckInterval

def delay : Option Int → Task A Int
  | none => pure recheckInterval
  | some due => do
    let now ← ask .now
    pure (delayUntil due now)

inductive Flow
  | again
  | finished
  deriving DecidableEq, Repr

/-- One turn of `until_stopped`. -/
def turn (A : Almanac) : Task A Flow := do
  -- read before the pass reads the subscriptions
  let seen ← ask .load
  match ← pass with
  | .error _ => pure .finished
  | .ok .blocked => pure .again
  | .ok .idle => do
    let done ← ask (.compareExchange seen (seen ||| ended))
    pure (if done then .finished else .again)
  | .ok (.wait nextDue) => do
    let delay ← delay nextDue
    match ← ask (.wait delay) with
    | .slept => pure .again
    | .notified => pure .again
    | .stopped => pure .finished

end Run

end PlateVault.Reminders
