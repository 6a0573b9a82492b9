import PlateVault.Grouping.Metadata
import PlateVault.Lib.Table
import PlateVault.Planning.Sky

/-!
# Planning records

Saved sites, the default site, reminder subscriptions and delivery identities. Every write is one
serialized transaction, so a write is a function of the tables: it returns the new ones, or fails and
leaves them as they are.
-/

namespace PlateVault.Reminders

open Planning

/-- The sky and the calendar a schedule counts its nights by. -/
structure Almanac extends Astronomy where
  /-- The date of a local time. -/
  localDate : LocalTime → Date
  previousDay : Date → Option Date

/-- The error of a value that is the field `parent` of another. -/
def withinField (parent : String) : LibraryError → LibraryError
  | .invalidField field message => .invalidField (parent ++ "." ++ field) message
  | .invalidInput message => .invalidField parent message
  | error => error

/-! ## Records -/

structure SavedSite (A : Almanac) extends ObservingSite A.toAstronomy where
  revision : Nat

structure PlanningSettings where
  defaultSiteId : Option Uuid
  revision : Nat
  deriving DecidableEq, Repr

inductive SubscriptionState
  | enabled
  | blocked
  | needsReconfirmation
  | disabled
  deriving DecidableEq, Repr

def SubscriptionState.debug : SubscriptionState → String
  | .enabled => "Enabled"
  | .blocked => "Blocked"
  | .needsReconfirmation => "NeedsReconfirmation"
  | .disabled => "Disabled"

inductive BlockReason
  | permissionDenied
  | permissionNotDetermined
  | unbundledProcess
  | platformNotQualified
  | limitedAuthorization
  | notifierNotAttached
  deriving DecidableEq, Repr

def BlockReason.debug : BlockReason → String
  | .permissionDenied => "PermissionDenied"
  | .permissionNotDetermined => "PermissionNotDetermined"
  | .unbundledProcess => "UnbundledProcess"
  | .platformNotQualified => "PlatformNotQualified"
  | .limitedAuthorization => "LimitedAuthorization"
  | .notifierNotAttached => "NotifierNotAttached"

def debugReason : Option BlockReason → String
  | none => "None"
  | some reason => "Some(" ++ reason.debug ++ ")"

structure ReminderSubscription (A : Almanac) where
  targetId : Uuid
  siteId : Uuid
  siteRevision : Nat
  settingsRevision : Nat
  criteria : PlanCriteria A.toAstronomy
  leadMinutes : Nat
  state : SubscriptionState
  blockReason : Option BlockReason
  revision : Nat
  activatedAt : Int

inductive DeliveryState
  | sending
  | submitted
  | failed
  | uncertain
  deriving DecidableEq, Repr

def DeliveryState.label : DeliveryState → String
  | .sending => "sending"
  | .submitted => "submitted"
  | .failed => "failed"
  | .uncertain => "uncertain"

structure ReminderDelivery (A : Almanac) where
  key : WindowKey
  windowEndUtc : Int
  night : A.Date
  dueAt : Int
  state : DeliveryState
  reason : Option Text

/-- The planning tables, beside the saved Targets they refer to. -/
structure Tables (A : Almanac) where
  targets : Uuid → Option (TargetRecord A.toAstronomy)
  sites : Table Uuid (SavedSite A) (fun site => site.id)
  settings : PlanningSettings
  subscriptions : Table Uuid (ReminderSubscription A) (fun subscription => subscription.targetId)
  deliveries : Table WindowKey (ReminderDelivery A) (fun delivery => delivery.key)

def Tables.empty (A : Almanac) : Tables A :=
  ⟨fun _ => none, .empty, ⟨none, 0⟩, .empty, .empty⟩

/-! ## Revisions -/

/-- What an `i64` column holds at most. -/
def maxRevision : Nat := 2 ^ 63 - 1

def dbRevision (value : Nat) : Result Unit :=
  Result.require (value ≤ maxRevision) (.invalidInput "revision out of range")

def nextRevision (id : Uuid) (current expected : Option Nat) (what : String) : Result Nat :=
  match current, expected with
  | none, none => .ok 1
  | none, some _ => .error (.notFound (what ++ " " ++ id.hyphenated))
  | some current, some expected =>
    if current = expected then .ok (current + 1) else .error (.conflict id current)
  | some current, none => .error (.conflict id current)

/-- The identity a conflict on the planning settings names. -/
def planningSettingsId : Uuid := 0x7a3c51e0007250008000000000000001

section Writes

variable {A : Almanac}

namespace Tables

def loadSite (t : Tables A) (id : Uuid) : Result (SavedSite A) :=
  Result.orElse (t.sites.find? id) (.notFound ("site " ++ id.hyphenated))

def loadTarget (t : Tables A) (id : Uuid) : Result (TargetRecord A.toAstronomy) :=
  Result.orElse (t.targets id) (.notFound ("target " ++ id.hyphenated))

/-- Subscriptions in activation order, only those in `state` where one is given. -/
def reminderSubscriptions (t : Tables A) (state : Option SubscriptionState) :
    List (ReminderSubscription A) :=
  Ordered.sortBy (fun subscription => toLex (subscription.activatedAt, subscription.targetId))
    (t.subscriptions.rows.filter fun subscription => state.all (subscription.state = ·))

end Tables

/-! ## Sites -/

structure SiteInput (A : Almanac) where
  name : Text
  latitudeDeg : A.F64
  longitudeDeg : A.F64
  elevationM : Option A.F64
  timeZone : Text

/-- Whether `value` is a number of `[-limit, limit]`. -/
def withinDegrees (A : Almanac) (limit : Int) (value : A.F64) : Bool :=
  A.isFinite value && A.le (A.literal (-limit)) value && A.le value (A.literal limit)

def SiteInput.validate (input : SiteInput A) : Result Unit := do
  Result.require (!(trim input.name).isEmpty)
    (.invalidField "name" "name: a site needs a non-empty name")
  Result.require (withinDegrees A 90 input.latitudeDeg)
    (.invalidField "latitudeDeg" ("latitudeDeg " ++ String.ofList (A.display input.latitudeDeg) ++
      " is not a finite angle in [-90, 90]"))
  Result.require (withinDegrees A 180 input.longitudeDeg)
    (.invalidField "longitudeDeg" ("longitudeDeg " ++
      String.ofList (A.display input.longitudeDeg) ++
      " is not a finite east-positive angle in [-180, 180]"))
  match input.elevationM.filter fun value => !A.isFinite value with
  | some elevation =>
    .error (.invalidField "elevationM" ("elevationM " ++ String.ofList (A.display elevation) ++
      " is not a finite height"))
  | none => .ok ()
  Result.require (!(trim input.timeZone).isEmpty)
    (.invalidField "timeZone" "timeZone: a site needs an IANA time-zone name")

def validateTimeZone (A : Almanac) (name : Text) : Result Unit :=
  ((zone A.toAstronomy name).map fun _ => ()).mapError (withinField "timeZone")

/-- Which subscriptions a planning write moves to `needsReconfirmation`. -/
inductive Reconfirm
  | onSite (site : Uuid)
  | offSite (site : Uuid)
  | all
  deriving DecidableEq, Repr

def Reconfirm.covers : Reconfirm → Uuid → Bool
  | .onSite site, id => id = site
  | .offSite site, id => id ≠ site
  | .all, _ => true

namespace ReminderSubscription

def active (subscription : ReminderSubscription A) : Bool :=
  subscription.state = .enabled || subscription.state = .blocked

def reconfirmed (subscription : ReminderSubscription A) : ReminderSubscription A :=
  { subscription with
    state := .needsReconfirmation
    blockReason := none
    revision := subscription.revision + 1 }

end ReminderSubscription

namespace Tables

/-- Move the enabled and blocked subscriptions of the scope to `needsReconfirmation`, and name them.
A revision past the column's range fails the transaction. -/
def reconfirm (scope : Reconfirm) (t : Tables A) : Result (List Uuid × Tables A) := do
  let moves := fun subscription : ReminderSubscription A =>
    subscription.active && scope.covers subscription.siteId
  let moved := t.subscriptions.rows.filter moves
  Result.require (moved.all fun subscription => subscription.revision + 1 ≤ maxRevision)
    (.persistenceFailure
      "cannot store REAL value in INTEGER column reminder_subscriptions.revision")
  pure ((moved.map (·.targetId)).insertionSort (· ≤ ·),
    { t with
      subscriptions := t.subscriptions.updateWhere moves
        ReminderSubscription.reconfirmed fun _ => rfl })

end Tables

def Tables.currentRevision (t : Tables A) : Option Uuid → Result (Option Nat)
  | some id => do
    let site ← t.loadSite id
    pure (some site.revision)
  | none => pure none

structure SiteSaved (A : Almanac) where
  site : SavedSite A
  needsReconfirmation : List Uuid

/-- Create a site under the id `fresh` at revision 1, or edit one at its expected revision. -/
def saveSite (id : Option Uuid) (expected : Option Nat) (input : SiteInput A) (fresh : Uuid)
    (t : Tables A) : Result (SiteSaved A × Tables A) := do
  input.validate
  let name := trim input.name
  let current ← t.currentRevision id
  let id := id.getD fresh
  let next ← nextRevision id current expected "site"
  match t.sites.rows.find? fun site => site.name = name && site.id ≠ id with
  | some holder =>
    .error (.invalidField "name" ("name " ++ A.debug name ++ " already names site " ++
      holder.id.hyphenated))
  | none => do
    dbRevision next
    let site : SavedSite A := {
      id, name
      latitudeDeg := input.latitudeDeg
      longitudeDeg := input.longitudeDeg
      elevationM := input.elevationM
      timeZone := input.timeZone
      revision := next }
    let t := { t with sites := t.sites.upsert site }
    if 1 < next then do
      let (moved, t) ← t.reconfirm (.onSite id)
      pure (⟨site, moved⟩, t)
    else pure (⟨site, []⟩, t)

/-- What a new default site, or none, leaves to be confirmed again. -/
def defaultScope : Option Uuid → Reconfirm
  | some site => .offSite site
  | none => .all

structure DefaultSiteSaved where
  settings : PlanningSettings
  needsReconfirmation : List Uuid

/-- Set or clear the default site at the expected settings revision. -/
def setDefaultSite (site : Option Uuid) (expected : Nat) (t : Tables A) :
    Result (DefaultSiteSaved × Tables A) := do
  Result.require (t.settings.revision = expected) (.conflict planningSettingsId t.settings.revision)
  let _ ← t.currentRevision site
  let next := t.settings.revision + 1
  dbRevision next
  let settings : PlanningSettings := ⟨site, next⟩
  let (moved, t) ← { t with settings }.reconfirm (defaultScope site)
  pure (⟨settings, moved⟩, t)

/-! ## Subscriptions -/

def minLeadMinutes : Nat := 31

def maxLeadMinutes : Nat := 7 * 24 * 60

def validateLeadMinutes (leadMinutes : Nat) : Result Unit :=
  Result.require (minLeadMinutes ≤ leadMinutes && leadMinutes ≤ maxLeadMinutes)
    (.invalidField "leadMinutes" ("leadMinutes " ++ String.ofList (decimal leadMinutes) ++
      " is not a whole number of minutes from " ++ String.ofList (decimal minLeadMinutes) ++
      " to " ++ String.ofList (decimal maxLeadMinutes)))

structure ReminderInput (A : Almanac) where
  targetId : Uuid
  criteria : PlanCriteria A.toAstronomy
  leadMinutes : Nat

def ReminderInput.validate (input : ReminderInput A) : Result Unit := do
  validateLeadMinutes input.leadMinutes
  input.criteria.validate.mapError (withinField "criteria")

/-- An activation's write: the default site, its revision and the settings revision the user
confirmed, with explicit criteria and lead time. -/
structure SubscriptionWrite (A : Almanac) where
  targetId : Uuid
  siteId : Uuid
  siteRevision : Nat
  settingsRevision : Nat
  criteria : PlanCriteria A.toAstronomy
  leadMinutes : Nat
  expected : Option Nat
  state : SubscriptionState
  blockReason : Option BlockReason

/-- Whether an activation may commit the state: enabled, or blocked with a reason. -/
def activates : SubscriptionState → Option BlockReason → Bool
  | .enabled, none => true
  | .blocked, some _ => true
  | _, _ => false

def SubscriptionWrite.subscription (write : SubscriptionWrite A) (next : Nat) (now : Int) :
    ReminderSubscription A where
  targetId := write.targetId
  siteId := write.siteId
  siteRevision := write.siteRevision
  settingsRevision := write.settingsRevision
  criteria := write.criteria
  leadMinutes := write.leadMinutes
  state := write.state
  blockReason := write.blockReason
  revision := next
  activatedAt := now

/-- Commit an activation while its site is the default one at the confirmed revisions. -/
def putReminderSubscription (write : SubscriptionWrite A) (now : Int) (t : Tables A) :
    Result (ReminderSubscription A × Tables A) := do
  ReminderInput.validate ⟨write.targetId, write.criteria, write.leadMinutes⟩
  Result.require (activates write.state write.blockReason)
    (.invalidInput ("activation commits enabled, or blocked with a reason, not " ++
      write.state.debug ++ " with " ++ debugReason write.blockReason))
  let _ ← t.loadTarget write.targetId
  let default ← Result.orElse t.settings.defaultSiteId
    (.invalidInput "defaultSite: no default site is set; reminders use the default site")
  Result.require (default = write.siteId && t.settings.revision = write.settingsRevision)
    (.conflict planningSettingsId t.settings.revision)
  let site ← t.loadSite write.siteId
  Result.require (site.revision = write.siteRevision) (.conflict site.id site.revision)
  let current := (t.subscriptions.find? write.targetId).map (·.revision)
  let next ← nextRevision write.targetId current write.expected "reminder subscription"
  dbRevision next
  let subscription := write.subscription next now
  pure (subscription, { t with subscriptions := t.subscriptions.upsert subscription })

/-- Whether a subscription may be moved to the state: only activation enables. -/
def movable : SubscriptionState → Option BlockReason → Bool
  | .enabled, _ => false
  | .blocked, reason => reason.isSome
  | .disabled, reason => reason.isNone
  | .needsReconfirmation, reason => reason.isNone

/-- Disable a subscription, block it with a reason, or mark it for reconfirmation. -/
def setSubscriptionState (target : Uuid) (expected : Nat) (state : SubscriptionState)
    (reason : Option BlockReason) (t : Tables A) :
    Result (ReminderSubscription A × Tables A) := do
  Result.require (movable state reason)
    (.invalidInput ("a subscription cannot move to " ++ state.debug ++ " with " ++
      debugReason reason ++ "; only activation enables"))
  let found := t.subscriptions.find? target
  let next ← nextRevision target (found.map (·.revision)) (some expected) "reminder subscription"
  dbRevision next
  let subscription ← Result.orElse found (.notFound ("reminder subscription " ++ target.hyphenated))
  let moved := fun subscription : ReminderSubscription A =>
    { subscription with state, blockReason := reason, revision := next }
  pure (moved subscription,
    { t with subscriptions := t.subscriptions.modify target moved fun _ => rfl })

/-! ## Deliveries -/

/-- A window identity to take before its reminder is submitted. -/
structure DeliveryClaim (A : Almanac) where
  key : WindowKey
  windowEndUtc : Int
  night : A.Date
  dueAt : Int

inductive DeliveryOutcome
  | submitted
  | failed (reason : Text)
  deriving DecidableEq, Repr

/-- Whether the Target's subscription is enabled at the site. -/
def Tables.enabledAt (t : Tables A) (targetId siteId : Uuid) : Bool :=
  (t.subscriptions.find? targetId).any fun subscription =>
    subscription.siteId = siteId && subscription.state = .enabled

/-- Take a window identity as `sending`; false where it was ever taken or the Target's subscription
is not enabled at that site. -/
def claimReminderDelivery (claim : DeliveryClaim A) (t : Tables A) : Result (Bool × Tables A) :=
  if t.enabledAt claim.key.targetId claim.key.siteId then
    match t.deliveries.insert?
      ⟨claim.key, claim.windowEndUtc, claim.night, claim.dueAt, .sending, none⟩ with
    | some deliveries => .ok (true, { t with deliveries })
    | none => .ok (false, t)
  else .ok (false, t)

/-- The text of a key: `<target>/<site>/<start>`. -/
def displayKey (A : Almanac) (key : WindowKey) : String :=
  key.targetId.hyphenated ++ "/" ++ key.siteId.hyphenated ++ "/" ++ A.displayInstant key.startUtc

def DeliveryOutcome.state : DeliveryOutcome → DeliveryState
  | .submitted => .submitted
  | .failed _ => .failed

def DeliveryOutcome.reason : DeliveryOutcome → Option Text
  | .submitted => none
  | .failed reason => some reason

/-- Record what the adapter answered for a `sending` identity. -/
def finishReminderDelivery (key : WindowKey) (outcome : DeliveryOutcome) (t : Tables A) :
    Result (ReminderDelivery A × Tables A) := do
  let current ← Result.orElse (t.deliveries.find? key)
    (.notFound ("reminder delivery " ++ displayKey A key))
  Result.require (current.state = .sending)
    (.invalidInput ("reminder delivery " ++ displayKey A key ++ " is " ++ current.state.label ++
      "; a claimed identity is never resubmitted"))
  let finished := fun delivery : ReminderDelivery A =>
    { delivery with state := outcome.state, reason := outcome.reason }
  pure (finished current,
    { t with deliveries := t.deliveries.modify key finished fun _ => rfl })

def ReminderDelivery.interrupted (delivery : ReminderDelivery A) : ReminderDelivery A :=
  { delivery with state := .uncertain }

/-- At catalog open, an identity an interrupted run left `sending` becomes `uncertain`. -/
def recoverSending (t : Tables A) : Tables A :=
  { t with
    deliveries := t.deliveries.updateWhere (fun delivery => delivery.state = .sending)
      ReminderDelivery.interrupted fun _ => rfl }

end Writes

end PlateVault.Reminders
