import PlateVault.Reminders.Records

/-!
# Due and upcoming reminders

The windows a subscription's schedule covers, and which of them are due. A reminder is due from its
window's start minus the lead time until the start.
-/

namespace PlateVault.Reminders

open Planning

section Windows

variable {A : Almanac}

/-! ## Window sets -/

structure SiteBasis (A : Almanac) where
  id : Uuid
  name : Text
  revision : Nat
  latitudeDeg : A.F64
  longitudeDeg : A.F64
  elevationM : Option A.F64

def SavedSite.basis (site : SavedSite A) : SiteBasis A :=
  ⟨site.id, site.name, site.revision, site.latitudeDeg, site.longitudeDeg, site.elevationM⟩

structure WindowBasis (A : Almanac) where
  targetId : Uuid
  designation : Text
  site : SiteBasis A
  timeZone : Text
  criteria : PlanCriteria A.toAstronomy

structure WindowSet (A : Almanac) where
  basis : WindowBasis A
  nights : List (NightPlan A.toAstronomy)
  unavailableReason : Option WindowUnavailableReason

def WindowSet.windows (set : WindowSet A) : List (ObservingWindow A.toAstronomy) :=
  set.nights.flatMap (·.windows)

def maxNights : Nat := 366

structure WindowQuery (A : Almanac) where
  targetId : Uuid
  siteId : Uuid
  firstNight : A.Date
  nights : Nat
  criteria : PlanCriteria A.toAstronomy

def WindowQuery.validate (query : WindowQuery A) : Result Unit := do
  Result.require (1 ≤ query.nights && query.nights ≤ maxNights)
    (.invalidField "nights" ("nights " ++ String.ofList (decimal query.nights) ++
      " is not a count from 1 to " ++ String.ofList (decimal maxNights)))
  query.criteria.validate.mapError (withinField "criteria")

/-- The plans of `nights` nights from `night` on. -/
def planNights (sky : Planning.Sky A.toAstronomy) (zone : A.Zone) (target : TargetRecord A.toAstronomy)
    (site : SavedSite A) : Nat → A.Date → Result (List (NightPlan A.toAstronomy))
  | 0, _ => .ok []
  | nights + 1, night => do
    let context ← NightContext.of zone sky.location sky.criteria night
    let plan ← planNight sky zone target site.toObservingSite (sky.spans context)
    match nights with
    | 0 => pure [plan]
    | nights + 1 => do
      let next ← Result.orElse (A.nextDay night) (outOfRange (A.displayDate night))
      let plans ← planNights sky zone target site (nights + 1) next
      pure (plan :: plans)

def computeWindows (target : TargetRecord A.toAstronomy) (site : SavedSite A)
    (query : WindowQuery A) : Result (WindowSet A) := do
  query.validate
  Result.require (query.targetId = target.id && query.siteId = site.id)
    (.invalidInput ("window query names target " ++ query.targetId.hyphenated ++ " at site " ++
      query.siteId.hyphenated ++ ", not target " ++ target.id.hyphenated ++ " at site " ++
      site.id.hyphenated))
  let zone ← Planning.zone A.toAstronomy site.timeZone
  let basis : WindowBasis A := {
    targetId := target.id
    designation := target.designation
    site := site.basis
    timeZone := site.timeZone
    criteria := query.criteria }
  match position target with
  | .error reason => pure ⟨basis, [], some reason⟩
  | .ok position => do
    let location ← Planning.location site.toObservingSite
    let sky : Planning.Sky A.toAstronomy := ⟨position, location, query.criteria⟩
    let nights ← planNights sky zone target site query.nights query.firstNight
    pure ⟨basis, nights, none⟩

/-! ## Local times -/

def localSeconds (instant : LocalTime) : Int := instant.utc / second + instant.offset

def localHour (instant : LocalTime) : Int := localSeconds instant % 86400 / 3600

def localMinute (instant : LocalTime) : Int := localSeconds instant % 3600 / 60

def twoDigits (n : Nat) : String :=
  String.ofList (if n < 10 then '0' :: decimal n else decimal n)

def localText (A : Almanac) (instant : LocalTime) : String :=
  let sign := if instant.offset < 0 then "-" else "+"
  A.displayDate (A.localDate instant) ++ " " ++ twoDigits (localHour instant).toNat ++ ":" ++
    twoDigits (localMinute instant).toNat ++ " (" ++ sign ++
    twoDigits (instant.offset.natAbs / 3600) ++ ":" ++
    twoDigits (instant.offset.natAbs / 60 % 60) ++ ")"

/-- The night, by its site-local evening date, that holds `instant`. -/
def nightOf (instant : Int) (site : SavedSite A) : Result A.Date := do
  let zone ← Planning.zone A.toAstronomy site.timeZone
  let there ← localTime A.toAstronomy zone instant
  if localHour there < 12 then
    Result.orElse (A.previousDay (A.localDate there)) (outOfRange (A.displayInstant instant))
  else pure (A.localDate there)

/-! ## Schedules -/

def minutesPerDay : Nat := 24 * 60

/-- The night before the current one, the current one, and those the longest lead time spans. -/
def scheduledNights : Nat := (maxLeadMinutes + minutesPerDay - 1) / minutesPerDay + 2

def scheduleQuery (targetId : Uuid) (site : SavedSite A) (criteria : PlanCriteria A.toAstronomy)
    (now : Int) : Result (WindowQuery A) := do
  let tonight ← nightOf now site
  let firstNight ← Result.orElse (A.previousDay tonight)
    (.invalidInput ("no night before " ++ A.displayInstant now ++ " at site " ++
      site.id.hyphenated))
  pure ⟨targetId, site.id, firstNight, scheduledNights, criteria⟩

structure Schedule (A : Almanac) where
  targetId : Uuid
  siteId : Uuid
  siteRevision : Nat
  criteria : PlanCriteria A.toAstronomy
  leadMinutes : Nat

/-- `==` of two criteria. -/
def sameCriteria (first second : PlanCriteria A.toAstronomy) : Bool :=
  let same := fun a b : A.F64 => A.le a b && A.le b a
  same first.minAltitudeDeg second.minAltitudeDeg && first.darkness = second.darkness &&
    first.minDurationMinutes = second.minDurationMinutes &&
    match first.moon, second.moon with
    | .none, .none => true
    | .belowHorizon, .belowHorizon => true
    | .minSeparation a, .minSeparation b => same a b
    | _, _ => false

structure UpcomingReminder (A : Almanac) where
  targetId : Uuid
  designation : Text
  siteId : Uuid
  siteName : Text
  windowKey : WindowKey
  dueAt : Int
  startUtc : Int
  endUtc : Int
  startLocal : LocalTime
  endLocal : LocalTime
  timeZone : Text
  night : A.Date
  leadMinutes : Nat

def UpcomingReminder.order (reminder : UpcomingReminder A) : Int ×ₗ Uuid ×ₗ Uuid ×ₗ Int :=
  toLex (reminder.dueAt, toLex (reminder.windowKey.targetId,
    toLex (reminder.windowKey.siteId, reminder.windowKey.startUtc)))

namespace Schedule

/-- The schedule of an enabled subscription; every other state has none. -/
def of (subscription : ReminderSubscription A) : Option (Schedule A) :=
  if subscription.state = .enabled then
    some ⟨subscription.targetId, subscription.siteId, subscription.siteRevision,
      subscription.criteria, subscription.leadMinutes⟩
  else none

/-- Whether the windows were computed for this Target at this site, site revision and criteria. -/
def covers (schedule : Schedule A) (windows : WindowSet A) : Bool :=
  windows.unavailableReason.isNone && windows.basis.targetId = schedule.targetId &&
    windows.basis.site.id = schedule.siteId &&
    windows.basis.site.revision = schedule.siteRevision &&
    sameCriteria windows.basis.criteria schedule.criteria

def lead (schedule : Schedule A) : Int := schedule.leadMinutes * minute

def due (schedule : Schedule A) (windows : WindowSet A) (now : Int) :
    List (ObservingWindow A.toAstronomy) :=
  windows.windows.filter fun window =>
    schedule.covers windows && window.startUtc - schedule.lead ≤ now && now < window.startUtc

def reminder (schedule : Schedule A) (windows : WindowSet A)
    (window : ObservingWindow A.toAstronomy) : UpcomingReminder A where
  targetId := schedule.targetId
  designation := windows.basis.designation
  siteId := schedule.siteId
  siteName := window.siteName
  windowKey := window.key
  dueAt := window.startUtc - schedule.lead
  startUtc := window.startUtc
  endUtc := window.endUtc
  startLocal := window.startLocal
  endLocal := window.endLocal
  timeZone := window.timeZone
  night := window.night
  leadMinutes := schedule.leadMinutes

/-- The covered windows not started by `now`, by due instant. -/
def upcoming (schedule : Schedule A) (windows : WindowSet A) (now : Int) :
    List (UpcomingReminder A) :=
  if schedule.covers windows then
    Ordered.sortBy UpcomingReminder.order
      ((windows.windows.filter fun window => now < window.startUtc).map (schedule.reminder windows))
  else []

end Schedule

/-- Every reminder of the subscription's schedule whose window has not started. -/
def upcomingReminders (subscription : ReminderSubscription A) (windows : WindowSet A)
    (now : Int) : List (UpcomingReminder A) :=
  match Schedule.of subscription with
  | some schedule => schedule.upcoming windows now
  | none => []

structure ReminderNotice where
  window : WindowKey
  title : String
  body : String
  deriving DecidableEq, Repr

def notice (subscription : ReminderSubscription A) (window : ObservingWindow A.toAstronomy)
    (designation : Text) : ReminderNotice :=
  let unit := if subscription.leadMinutes = 1 then "minute" else "minutes"
  { window := window.key
    title := String.ofList designation ++ " at " ++ String.ofList window.siteName
    body := "Observing window " ++ localText A window.startLocal ++ " to " ++
      localText A window.endLocal ++ ", " ++ String.ofList window.timeZone ++ ". Reminder " ++
      String.ofList (decimal subscription.leadMinutes) ++ " " ++ unit ++ " before the start." }

end Windows

end PlateVault.Reminders
