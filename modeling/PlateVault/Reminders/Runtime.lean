import Mathlib.Logic.Function.Basic
import PlateVault.Reminders.Scheduler

/-!
# The planning runtime

The library's planning calls as programs over the catalog, the mutex of the planning runtime and the
scheduler handle in it, and the system they run in beside the scheduler tasks. Any of them takes the
next step.
-/

namespace PlateVault.Reminders

open Planning

/-! ## Calls -/

structure PlanningSites (A : Almanac) where
  sites : List (SavedSite A)
  defaultSiteId : Option Uuid
  settingsRevision : Nat

structure EnableReminders (A : Almanac) where
  reminder : ReminderInput A
  siteId : Uuid
  siteRevision : Nat
  settingsRevision : Nat
  expectedRevision : Option Nat

/-- What a planning call does between two awaits. A task is named by when it was spawned. -/
inductive CallEffect (A : Almanac)
  | lock
  | unlock
  | attached
  | attach
  | hasScheduler
  | takeScheduler
  | keepScheduler (task : Nat)
  | spawn
  | count (task : Nat)
  | notify (task : Nat)
  | isFinished (task : Nat)
  | sendStop (task : Nat)
  | join (task : Nat)
  | anyEnabled
  | listSites
  | saveSite (id : Option Uuid) (expected : Option Nat) (input : SiteInput A)
  | setDefaultSite (site : Option Uuid) (expected : Nat)
  | putReminderSubscription (write : SubscriptionWrite A)
  | disable (target : Uuid) (expected : Nat)
  | permission
  | requestPermission

abbrev CallAnswer {A : Almanac} : CallEffect A → Type
  | .lock | .unlock | .attach | .keepScheduler _ | .notify _ | .sendStop _ | .join _ => Unit
  | .attached | .hasScheduler | .count _ | .isFinished _ => Bool
  | .takeScheduler => Option Nat
  | .spawn => Nat
  | .anyEnabled => Result Bool
  | .listSites => Result (PlanningSites A)
  | .saveSite .. => Result (SiteSaved A)
  | .setDefaultSite .. => Result DefaultSiteSaved
  | .putReminderSubscription _ | .disable .. => Result (ReminderSubscription A)
  | .permission | .requestPermission => PermissionState

abbrev Call (A : Almanac) (α : Type) := Prog (CallEffect A) CallAnswer α

section Calls

variable {A : Almanac}

abbrev request (e : CallEffect A) : Call A (CallAnswer e) := Prog.act e

def wake (task : Nat) : Call A Bool := do
  let counted ← request (.count task)
  request (.notify task)
  if counted then do
    let finished ← request (.isFinished task)
    pure !finished
  else pure false

def stop (task : Nat) : Call A Unit := do
  request (.sendStop task)
  request (.join task)

def start : Call A Unit := do
  if ← request .attached then do
    let task ← request .spawn
    request (.keepScheduler task)
  else pure ()

def stopThenStart (task : Nat) (enabled : Bool) : Call A Unit := do
  stop task
  if enabled then start else pure ()

/-- Run, wake or stop the scheduler so it runs exactly while `enabled`. -/
def sync (enabled : Bool) : Call A Unit := do
  match ← request .takeScheduler with
  | some task =>
    if enabled then do
      if ← wake task then request (.keepScheduler task)
      else stopThenStart task enabled
    else stopThenStart task enabled
  | none => if enabled then start else pure ()

/-- Bring the scheduler in line with the committed subscriptions. -/
def syncReminders : Call A Unit := do
  request .lock
  if ← request .attached then do
    match ← request .anyEnabled with
    | .ok enabled => sync enabled
    | .error _ => do
      let enabled ← request .hasScheduler
      sync enabled
    request .unlock
  else request .unlock

def stopTaken : Call A Unit := do
  match ← request .takeScheduler with
  | some task => stop task
  | none => pure ()

def attachNotifier : Call A (Result Unit) := do
  request .lock
  stopTaken
  request .attach
  match ← request .anyEnabled with
  | .error error => do
    request .unlock
    pure (.error error)
  | .ok enabled => do
    sync enabled
    request .unlock
    pure (.ok ())

/-- The answer of a call that wrote, after the scheduler followed the write. -/
def synced {α : Type} (saved : Result α) : Call A (Result α) :=
  match saved with
  | .error error => pure (.error error)
  | .ok a => do
    syncReminders
    pure (.ok a)

def librarySaveSite (id : Option Uuid) (expected : Option Nat) (input : SiteInput A) :
    Call A (Result (SiteSaved A)) :=
  match (do input.validate; validateTimeZone A input.timeZone : Result Unit) with
  | .error error => pure (.error error)
  | .ok () => do
    let saved ← request (.saveSite id expected input)
    synced saved

def librarySetDefaultSite (site : Option Uuid) (expected : Nat) :
    Call A (Result DefaultSiteSaved) := do
  let saved ← request (.setDefaultSite site expected)
  synced saved

def disableReminders (target : Uuid) (expected : Nat) :
    Call A (Result (ReminderSubscription A)) := do
  let saved ← request (.disable target expected)
  synced saved

def defaultSite (sites : PlanningSites A) : Result (SavedSite A) := do
  let id ← Result.orElse sites.defaultSiteId
    (.invalidInput "defaultSite: no default site is set; reminders use the default site")
  Result.orElse (sites.sites.find? (·.id = id)) (.notFound ("default site " ++ id.hyphenated))

/-- The permission an activation commits with: one that was never decided is requested first. -/
def activationPermission : Call A PermissionState := do
  request .lock
  let attached ← request .attached
  request .unlock
  if attached then do
    match ← request .permission with
    | .notDetermined => request .requestPermission
    | permission => pure permission
  else pure (.unavailable .notifierNotAttached)

def activationState (permission : PermissionState) : SubscriptionState × Option BlockReason :=
  match permission.blockReason with
  | none => (.enabled, none)
  | some reason => (.blocked, some reason)

def EnableReminders.write (request : EnableReminders A) (permission : PermissionState) :
    SubscriptionWrite A where
  targetId := request.reminder.targetId
  siteId := request.siteId
  siteRevision := request.siteRevision
  settingsRevision := request.settingsRevision
  criteria := request.reminder.criteria
  leadMinutes := request.reminder.leadMinutes
  expected := request.expectedRevision
  state := (activationState permission).1
  blockReason := (activationState permission).2

def enableReminders (activation : EnableReminders A) :
    Call A (Result (ReminderSubscription A)) := do
  match activation.reminder.validate.mapError (withinField "reminder") with
  | .error error => pure (.error error)
  | .ok () => do
    match ← request .listSites with
    | .error error => pure (.error error)
    | .ok sites =>
      match defaultSite sites with
      | .error error => pure (.error error)
      | .ok _ => do
        let permission ← activationPermission
        let saved ← request (.putReminderSubscription (activation.write permission))
        synced saved

/-- The planning calls that touch the scheduler, and a wake by whoever holds its handle. -/
inductive LibraryCall (A : Almanac)
  | attachNotifier
  | saveSite (id : Option Uuid) (expected : Option Nat) (input : SiteInput A)
  | setDefaultSite (site : Option Uuid) (expected : Nat)
  | enableReminders (activation : EnableReminders A)
  | disableReminders (target : Uuid) (expected : Nat)
  | wake (task : Nat)

def LibraryCall.program : LibraryCall A → Call A Unit
  | .attachNotifier => do let _ ← Reminders.attachNotifier
  | .saveSite id expected input => do let _ ← librarySaveSite id expected input
  | .setDefaultSite site expected => do let _ ← librarySetDefaultSite site expected
  | .enableReminders activation => do let _ ← Reminders.enableReminders activation
  | .disableReminders target expected => do let _ ← Reminders.disableReminders target expected
  | .wake task => do let _ ← Reminders.wake task

end Calls

end PlateVault.Reminders
