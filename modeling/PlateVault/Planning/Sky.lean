import Mathlib.Data.List.Basic
import PlateVault.Base.Floats
import PlateVault.Lib.Spans

/-!
# The night sky over a site

One night at one site, its dark interval and where the Moon is up, and the windows of one Target in
it. The astronomy, the time zones and the calendar come from outside the repository: an `Astronomy`
gives them, of which nothing is assumed but the ranges a time zone keeps to. Instants are nanoseconds
from the epoch.
-/

namespace PlateVault.Planning



def second : Int := 1000000000

def minute : Int := 60 * second

inductive Twilight
  | civil
  | nautical
  | astronomical
  deriving DecidableEq, Repr

inductive TwilightOutcome
  | night (dusk dawn : Int)
  | alwaysDark
  | neverDark

inductive CrossingOutcome
  | alwaysAbove
  | neverAbove
  | crosses (rise set : Int)

def minTimestamp : Int := -377705023201

def maxTimestamp : Int := 253402207200

def maxOffset : Int := 93599

/-- What planning uses of the sky, of the time zones and of the calendar. -/
structure Astronomy extends Floats where
  Location : Type
  Equatorial : Type
  Zone : Type
  Date : Type
  /-- 29.530589. -/
  synodicDays : F64
  newLocation : (latitude longitude elevation : F64) → Except Text Location
  j2000 : (ra dec : F64) → Option Equatorial
  /-- The altitude of `alt_az` in degrees. -/
  altAz : Equatorial → Int → Location → F64
  sunPosition : Int → Equatorial
  moonPositionTopocentric : Int → Location → Equatorial
  lunarSeparation : Equatorial → Int → Location → F64
  altitudeCrossings : Equatorial → F64 → Int → Location → CrossingOutcome
  moonCrossings : F64 → Int → Location → CrossingOutcome
  twilight : Twilight → Int → Location → TwilightOutcome
  transit : Equatorial → Int → Location → Int
  moonPhaseAngle : Int → F64
  getZone : Text → Option Zone
  ianaName : Zone → Option Text
  isUnknown : Zone → Bool
  /-- The offset in seconds at a timestamp. -/
  zoneOffset : Zone → Int → Int
  /-- The timestamp of a date's local noon. -/
  zonedNoon : Zone → Date → Option Int
  nextDay : Date → Option Date
  displayDate : Date → String
  displayInstant : Int → String
  debug : Text → String
  zoneOffset_range : ∀ zone stamp, -maxOffset ≤ zoneOffset zone stamp ∧
    zoneOffset zone stamp ≤ maxOffset
  zonedNoon_range : ∀ zone date stamp, zonedNoon zone date = some stamp →
    minTimestamp ≤ stamp ∧ stamp ≤ maxTimestamp

/-! ## Inputs -/

inductive Darkness
  | civil
  | nautical
  | astronomical
  deriving DecidableEq, Repr

def Darkness.sunAltitudeDeg (A : Astronomy) : Darkness → A.F64
  | .civil => A.literal (-6)
  | .nautical => A.literal (-12)
  | .astronomical => A.literal (-18)

/-- The Moon limit: none, the Moon below the horizon, or a least separation whenever it is up. -/
inductive MoonCriterion (F64 : Type)
  | none
  | belowHorizon
  | minSeparation (minSeparationDeg : F64)
  deriving DecidableEq, Repr

structure PlanCriteria (A : Astronomy) where
  minAltitudeDeg : A.F64
  darkness : Darkness
  moon : MoonCriterion A.F64
  minDurationMinutes : Nat

def maxMinutes : Nat := 1440

def PlanCriteria.validate {A : Astronomy} (criteria : PlanCriteria A) : Result Unit := do
  Result.require
    (A.isFinite criteria.minAltitudeDeg && A.le (A.literal 0) criteria.minAltitudeDeg &&
      A.lt criteria.minAltitudeDeg (A.literal 90))
    (.invalidField "minAltitudeDeg" ("minAltitudeDeg " ++
      String.ofList (A.display criteria.minAltitudeDeg) ++ " is not a finite altitude in [0, 90)"))
  Result.require (1 ≤ criteria.minDurationMinutes && criteria.minDurationMinutes ≤ maxMinutes)
    (.invalidField "minDurationMinutes" ("minDurationMinutes " ++
      String.ofList (decimal criteria.minDurationMinutes) ++
      " is not a whole number of minutes from 1 to " ++ String.ofList (decimal maxMinutes)))
  match criteria.moon with
  | .minSeparation deg =>
    Result.require (A.isFinite deg && !A.le deg (A.literal 0) && !A.ge deg (A.literal 180))
      (.invalidField "moon.minSeparationDeg" ("moon.minSeparationDeg " ++
        String.ofList (A.display deg) ++ " is not a finite angle in (0, 180)"))
  | _ => .ok ()

structure ObservingSite (A : Astronomy) where
  id : Uuid
  name : Text
  latitudeDeg : A.F64
  longitudeDeg : A.F64
  elevationM : Option A.F64
  timeZone : Text

structure SkyCoordinates (A : Astronomy) where
  raDeg : A.F64
  decDeg : A.F64
  frame : Text

structure TargetRecord (A : Astronomy) where
  id : Uuid
  designation : Text
  coordinates : Option (SkyCoordinates A)

inductive WindowUnavailableReason
  | targetCoordinatesUnknown
  | unsupportedCoordinateFrame
  deriving DecidableEq, Repr

section Inputs

variable (A : Astronomy)

def zone (name : Text) : Result A.Zone :=
  let invalid : LibraryError := .invalidInput ("timeZone " ++ A.debug name ++
    " is not an IANA name in the bundled time-zone database")
  match A.getZone name with
  | none => .error invalid
  | some zone =>
    match A.ianaName zone with
    | some canonical =>
      if canonical = name && !A.isUnknown zone then .ok zone
      else if !A.isUnknown zone then
        .error (.invalidInput ("timeZone " ++ A.debug name ++
          " is not canonical; the bundled database names it " ++ A.debug canonical))
      else .error invalid
    | none => .error invalid

variable {A}

def position (target : TargetRecord A) : Except WindowUnavailableReason A.Equatorial :=
  match target.coordinates with
  | none => .error .targetCoordinatesUnknown
  | some coordinates =>
    if coordinates.frame.map Char.toLower ≠ "icrs".toList then .error .unsupportedCoordinateFrame
    else
      match A.j2000 coordinates.raDeg coordinates.decDeg with
      | some position => .ok position
      | none => .error .targetCoordinatesUnknown

/-- Why a Target has no usable position; `none` when it has one. -/
def positionUnavailable (target : TargetRecord A) : Option WindowUnavailableReason :=
  match position target with
  | .ok _ => none
  | .error reason => some reason

def location (site : ObservingSite A) : Result A.Location :=
  (A.newLocation site.latitudeDeg site.longitudeDeg (site.elevationM.getD (A.literal 0))).mapError
    fun error => .invalidInput ("site " ++ site.id.hyphenated ++ " position: " ++ String.ofList error)

/-! ## Time zones -/

def outOfRange (near : String) : LibraryError :=
  .invalidInput ("night near " ++ near ++ " is outside the supported calendar")

variable (A)

structure LocalTime where
  utc : Int
  offset : Int
  deriving DecidableEq, Repr

def offsetAt (zone : A.Zone) (instant : Int) : Result Int :=
  let stamp := instant / second
  if stamp < minTimestamp || maxTimestamp < stamp then .error (outOfRange (A.displayInstant instant))
  else
    let offset := A.zoneOffset zone stamp
    if offset < -maxOffset || maxOffset < offset then
      .error (outOfRange (A.displayInstant instant))
    else .ok offset

def localTime (zone : A.Zone) (instant : Int) : Result LocalTime := do
  let offset ← offsetAt A zone instant
  pure ⟨instant, offset⟩

/-- Local noon of `date`, in UTC. -/
def localNoon (zone : A.Zone) (date : A.Date) : Result Int :=
  match A.zonedNoon zone date with
  | some stamp => .ok (stamp * second)
  | none => .error (outOfRange (A.displayDate date))

def nightBounds (zone : A.Zone) (night : A.Date) : Result (Span Int) := do
  let start ← localNoon A zone night
  let next ← Result.orElse (A.nextDay night) (outOfRange (A.displayInstant start))
  let finish ← localNoon A zone next
  pure ⟨start, finish⟩

end Inputs

/-! ## One night -/

section Night

variable (A : Astronomy)

def middleOf (bounds : Span Int) : Int :=
  bounds.start + (bounds.finish - bounds.start).tdiv 2

def probesOf (bounds : Span Int) : List Int :=
  [bounds.start, middleOf bounds, bounds.finish]

def crossingSpan (outcome : CrossingOutcome) (bounds : Span Int) : Option (Span Int) :=
  match outcome with
  | .alwaysAbove => some bounds
  | .neverAbove => none
  | .crosses rise set => Span.clip ⟨rise, set⟩ bounds

def twilightSpan (outcome : TwilightOutcome) (bounds : Span Int) : Option (Span Int) :=
  match outcome with
  | .night dusk dawn => Span.clip ⟨dusk, dawn⟩ bounds
  | .alwaysDark => some bounds
  | .neverDark => none

def Darkness.twilight : Darkness → Twilight
  | .civil => .civil
  | .nautical => .nautical
  | .astronomical => .astronomical

/-- Where the Sun is below the `level` limit within the night. -/
def darkSpans (level : Darkness) (probes : List Int) (bounds : Span Int)
    (location : A.Location) : List (Span Int) :=
  Span.merge (probes.filterMap fun near =>
    twilightSpan (A.twilight level.twilight near location) bounds)

/-- Where the Moon's center is above the horizon within the night. -/
def moonUpSpans (probes : List Int) (bounds : Span Int) (location : A.Location) :
    List (Span Int) :=
  Span.merge (probes.filterMap fun near =>
    crossingSpan (A.moonCrossings (A.literal 0) near location) bounds)

/-- The intervals of one night at one site that no Target changes. -/
structure NightContext where
  zone : A.Zone
  location : A.Location
  criteria : PlanCriteria A
  night : A.Date
  bounds : Span Int
  probes : List Int
  dark : List (Span Int)
  moonUp : List (Span Int)
  moonDown : List (Span Int)

variable {A}

/-- Seconds saturated into 32 bits; a negative total saturates too. -/
def saturate32 (n : Int) : Nat := if 0 ≤ n ∧ n < 2 ^ 32 then n.toNat else 2 ^ 32 - 1

/-- `at` rounded to the nearest whole second. -/
def wholeSecond (instant : Int) : Int :=
  let floor := instant - instant % second
  if second / 2 ≤ instant % second then floor + second else floor

namespace NightContext

def of (zone : A.Zone) (location : A.Location) (criteria : PlanCriteria A) (night : A.Date) :
    Result (NightContext A) := do
  let bounds ← nightBounds A zone night
  let probes := probesOf bounds
  let moonUp := moonUpSpans A probes bounds location
  pure {
    zone, location, criteria, night, bounds, probes, moonUp
    dark := darkSpans A criteria.darkness probes bounds location
    moonDown := Span.complement moonUp bounds }

/-- The context of `night` at `site` under `criteria`. -/
def new (site : ObservingSite A) (night : A.Date) (criteria : PlanCriteria A) :
    Result (NightContext A) := do
  criteria.validate
  let zone ← Planning.zone A site.timeZone
  let location ← Planning.location site
  of zone location criteria night

def middle (context : NightContext A) : Int := middleOf context.bounds

def moonAgeDays (context : NightContext A) : A.F64 :=
  A.mul (A.div (A.moonPhaseAngle context.middle) (A.literal 180))
    (A.div A.synodicDays (A.literal 2))

/-- Seconds of darkness, each interval's bounds rounded to whole seconds. -/
def darkSeconds (context : NightContext A) : Nat :=
  saturate32 ((context.dark.map fun span =>
    (wholeSecond span.finish - wholeSecond span.start).tdiv second).sum)

/-- The night under another Moon limit, which no interval of it depends on. -/
def withMoon (context : NightContext A) (moon : MoonCriterion A.F64) : NightContext A :=
  { context with criteria := { context.criteria with moon } }

end NightContext

end Night

/-! ## One Target -/

structure Sky (A : Astronomy) where
  position : A.Equatorial
  location : A.Location
  criteria : PlanCriteria A

structure NightSpans (A : Astronomy) where
  night : A.Date
  start : Int
  finish : Int
  dark : List (Span Int)
  above : List (Span Int)
  moonAllowed : List (Span Int)
  windows : List (Span Int)

/-- The instant within `(low, high]` where `predicate` changes, to one second; `before` is its value
at `low`. -/
def bisect (predicate : Int → Bool) (before : Bool) (low high : Int) : Int :=
  if h : high - low > second then
    let middle := low + (high - low) / 2
    if predicate middle = before then bisect predicate before middle high
    else bisect predicate before low middle
  else if before then low
  else high
termination_by (high - low).toNat
decreasing_by all_goals simp only [second] at *; omega

/-- The loop of `separated` from `previous`, with the span that is open there and the closed ones. -/
def separatedFrom (apart : Int → Bool) (finish previous : Int) (openFrom : Option Int)
    (spans : List (Span Int)) : List (Span Int) × Option Int :=
  if _h : previous < finish then
    let next := min (previous + 10 * minute) finish
    let inside := apart next
    if inside ≠ openFrom.isSome then
      let edge := bisect apart (!inside) previous next
      match openFrom with
      | some start => separatedFrom apart finish next none (spans ++ [⟨start, edge⟩])
      | none => separatedFrom apart finish next (some edge) spans
    else separatedFrom apart finish next openFrom spans
  else (spans, openFrom)
termination_by (finish - previous).toNat
decreasing_by all_goals simp only [minute, second] at *; omega

namespace Sky

variable {A : Astronomy}

/-- Where the separation is at least `limit` degrees. -/
def separated (sky : Sky A) (bounds : Span Int) (limit : A.F64) : List (Span Int) :=
  let apart := fun instant : Int => A.ge (A.lunarSeparation sky.position instant sky.location) limit
  let (spans, openFrom) := separatedFrom apart bounds.finish bounds.start
    (if apart bounds.start then some bounds.start else none) []
  let spans : List (Span Int) :=
    match openFrom with
    | some start => spans ++ [⟨start, bounds.finish⟩]
    | none => spans
  spans.filter fun span => span.start < span.finish

/-- The Target's intervals over the ones of `context`, which shares this sky's site and criteria. -/
def spans (sky : Sky A) (context : NightContext A) : NightSpans A :=
  let above := Span.merge (context.probes.filterMap fun near =>
    crossingSpan (A.altitudeCrossings sky.position sky.criteria.minAltitudeDeg near sky.location)
      context.bounds)
  let moonAllowed :=
    match sky.criteria.moon with
    | .none => [context.bounds]
    | .belowHorizon => context.moonDown
    | .minSeparation deg => Span.union context.moonDown (sky.separated context.bounds deg)
  { night := context.night
    start := context.bounds.start
    finish := context.bounds.finish
    dark := context.dark
    above
    moonAllowed
    windows := Span.intersect (Span.intersect context.dark above) moonAllowed }

def moonUp (sky : Sky A) (instant : Int) : Bool :=
  A.ge (A.altAz (A.moonPositionTopocentric instant sky.location) instant sky.location) (A.literal 0)

def meetsMoon (sky : Sky A) (instant : Int) : Bool :=
  match sky.criteria.moon with
  | .none => true
  | .belowHorizon => !sky.moonUp instant
  | .minSeparation deg =>
    !sky.moonUp instant || A.ge (A.lunarSeparation sky.position instant sky.location) deg

def meets (sky : Sky A) (instant : Int) : Bool :=
  !A.lt (A.altAz sky.position instant sky.location) sky.criteria.minAltitudeDeg &&
    !A.ge (A.altAz (A.sunPosition instant) instant sky.location)
      (sky.criteria.darkness.sunAltitudeDeg A) &&
    sky.meetsMoon instant

def altitude (sky : Sky A) (instant : Int) : A.F64 := A.altAz sky.position instant sky.location

def peakAltitude (sky : Sky A) (start finish : Int) : A.F64 :=
  let culmination := A.transit sky.position (start + (finish - start).tdiv 2) sky.location
  let edges := A.max (sky.altitude start) (sky.altitude finish)
  if start < culmination ∧ culmination < finish then A.max edges (sky.altitude culmination)
  else edges

end Sky

/-! ## Rounding -/

def floorMinute (instant : Int) : Int := instant - instant % minute

/-- Step `start` on while it is not met and not past `finish`. -/
def advance (meets : Int → Bool) (finish : Int) : Nat → Int → Int
  | 0, start => start
  | steps + 1, start =>
    if start ≤ finish && !meets start then advance meets finish steps (start + minute) else start

/-- Step `finish` back while it is not met and not before `start`. -/
def retreat (meets : Int → Bool) (start : Int) : Nat → Int → Int
  | 0, finish => finish
  | steps + 1, finish =>
    if start ≤ finish && !meets finish then retreat meets start steps (finish - minute) else finish

def stepsBetween (start finish : Int) : Nat := ((finish - start) / minute + 1).toNat

/-- Round a span inward to whole minutes, then step each bound inward until it meets the criteria. -/
def roundInward {A : Astronomy} (sky : Sky A) (span : Span Int) : Option (Span Int) :=
  let start := if floorMinute span.start < span.start then floorMinute span.start + minute
    else floorMinute span.start
  let finish := floorMinute span.finish
  let start := advance sky.meets finish (stepsBetween start finish) start
  let finish := retreat sky.meets start (stepsBetween start finish) finish
  if start < finish then some ⟨start, finish⟩ else none

/-! ## The plan of a night -/

structure WindowKey where
  targetId : Uuid
  siteId : Uuid
  startUtc : Int
  deriving DecidableEq, Repr

structure ObservingWindow (A : Astronomy) where
  key : WindowKey
  startUtc : Int
  endUtc : Int
  startLocal : LocalTime
  endLocal : LocalTime
  timeZone : Text
  durationMinutes : Nat
  night : A.Date
  siteName : Text
  peakAltitudeDeg : A.F64

inductive NoWindowReason
  | neverDark
  | targetNeverAbove
  | moonExcluded
  | shorterThanMinimum
  | noOverlap
  deriving DecidableEq, Repr

structure NightPlan (A : Astronomy) where
  night : A.Date
  windows : List (ObservingWindow A)
  noWindowReason : Option NoWindowReason

section Plan

variable {A : Astronomy}

def WindowKey.new (A : Astronomy) (targetId siteId : Uuid) (start : Int) : Result WindowKey :=
  if start % minute ≠ 0 then
    .error (.invalidInput ("windowKey start " ++ A.displayInstant start ++
      " is not a whole UTC minute"))
  else .ok ⟨targetId, siteId, start⟩

def minutesOf (span : Span Int) : Nat := saturate32 ((span.finish - span.start).tdiv minute)

/-- The window of one span, if it keeps the least duration. -/
def planWindow (sky : Sky A) (zone : A.Zone) (target : TargetRecord A) (site : ObservingSite A)
    (night : A.Date) (span : Span Int) : Result (Option (ObservingWindow A)) :=
  match roundInward sky span with
  | none => .ok none
  | some rounded =>
    if minutesOf rounded < sky.criteria.minDurationMinutes then .ok none
    else do
      let key ← WindowKey.new A target.id site.id rounded.start
      let startLocal ← localTime A zone rounded.start
      let endLocal ← localTime A zone rounded.finish
      pure (some {
        key, startLocal, endLocal, night
        startUtc := rounded.start
        endUtc := rounded.finish
        timeZone := site.timeZone
        durationMinutes := minutesOf rounded
        siteName := site.name
        peakAltitudeDeg := sky.peakAltitude rounded.start rounded.finish })

def noWindowReason (spans : NightSpans A) : NoWindowReason :=
  if spans.dark.isEmpty then .neverDark
  else if spans.above.isEmpty then .targetNeverAbove
  else if (Span.intersect spans.dark spans.above).isEmpty then .noOverlap
  else if spans.windows.isEmpty then .moonExcluded
  else .shorterThanMinimum

def planNight (sky : Sky A) (zone : A.Zone) (target : TargetRecord A) (site : ObservingSite A)
    (spans : NightSpans A) : Result (NightPlan A) := do
  let windows ← spans.windows.mapM (planWindow sky zone target site spans.night)
  let windows := windows.reduceOption
  pure {
    night := spans.night
    windows
    noWindowReason := if windows.isEmpty then some (noWindowReason spans) else none }

def nightWindows (context : NightContext A) (target : TargetRecord A) (site : ObservingSite A) :
    Result (Except WindowUnavailableReason (List (ObservingWindow A))) :=
  match position target with
  | .error reason => .ok (.error reason)
  | .ok position => do
    let sky : Sky A := ⟨position, context.location, context.criteria⟩
    let plan ← planNight sky context.zone target site (sky.spans context)
    pure (.ok plan.windows)

end Plan

end PlateVault.Planning
