import PlateVault.Planning.Sky

/-!
# Grading a night

The grade of every unfinished goal for a night under its channel's Moon-avoidance curve, the search
for the next night that suits one, and the grades of the Targets list's bands. Each keeps the windows
it has computed by Target and Moon limit.
-/

namespace PlateVault.Planning

/-! ## Bands and curves -/

inductive Band
  | l
  | r
  | g
  | b
  | ha
  | sii
  | oiii
  deriving DecidableEq, Repr

def Band.index : Band → Nat
  | .l => 0
  | .r => 1
  | .g => 2
  | .b => 3
  | .ha => 4
  | .sii => 5
  | .oiii => 6

structure MoonAvoidanceCurve (A : Astronomy) where
  distanceDeg : A.F64
  widthDays : A.F64

/-- The least separation, `distance / (1 + (age / width)^2)`. -/
def MoonAvoidanceCurve.minSeparationDeg {A : Astronomy} (curve : MoonAvoidanceCurve A)
    (moonAgeDays : A.F64) : A.F64 :=
  let ratio := A.div (A.max moonAgeDays (A.literal 0)) curve.widthDays
  A.div curve.distanceDeg (A.mulAdd ratio ratio (A.literal 1))

structure MoonAvoidance (A : Astronomy) where
  l : MoonAvoidanceCurve A
  r : MoonAvoidanceCurve A
  g : MoonAvoidanceCurve A
  b : MoonAvoidanceCurve A
  ha : MoonAvoidanceCurve A
  sii : MoonAvoidanceCurve A
  oiii : MoonAvoidanceCurve A

def MoonAvoidance.curve {A : Astronomy} (avoidance : MoonAvoidance A) :
    Band → MoonAvoidanceCurve A
  | .l => avoidance.l
  | .r => avoidance.r
  | .g => avoidance.g
  | .b => avoidance.b
  | .ha => avoidance.ha
  | .sii => avoidance.sii
  | .oiii => avoidance.oiii

def curveCriterion {A : Astronomy} (curve : MoonAvoidanceCurve A) (moonAgeDays : A.F64) :
    MoonCriterion A.F64 :=
  let deg := curve.minSeparationDeg moonAgeDays
  if A.le deg (A.literal 0) then .none
  else if A.ge deg (A.literal 180) then .belowHorizon
  else .minSeparation deg

inductive BandGrade
  | good
  | marginal
  | poor
  deriving DecidableEq, Repr

/-- A band's grade from the minutes of the longest window its curve leaves and of the longest the
Moon-free criteria leave. -/
def bandGrade : (curved free : Option Nat) → BandGrade
  | none, _ => .poor
  | some curved, some free => if 4 * curved < 3 * free then .marginal else .good
  | some _, none => .good

/-- A Moon limit as a map key: the separation by its bits. -/
inductive MoonKey (F64 : Type)
  | none
  | belowHorizon
  | minSeparation (bits : F64)
  deriving DecidableEq, Repr

def MoonKey.of {F64 : Type} : MoonCriterion F64 → MoonKey F64
  | .none => .none
  | .belowHorizon => .belowHorizon
  | .minSeparation deg => .minSeparation deg

/-! ## Goals -/

inductive Ungraded
  | noBand
  | noPosition (reason : WindowUnavailableReason)
  deriving DecidableEq, Repr

structure GoalGrade (A : Astronomy) where
  projectId : Uuid
  projectName : Text
  goalId : Uuid
  subjectId : Uuid
  groupId : Option Uuid
  targetId : Uuid
  designation : Text
  channel : Option Text
  band : Option Band
  grade : Option BandGrade
  ungraded : Option Ungraded
  window : Option (ObservingWindow A)

def GoalGrade.suits {A : Astronomy} (grade : GoalGrade A) : Bool :=
  grade.grade = some .good ∨ grade.grade = some .marginal

structure NightGrade (A : Astronomy) where
  grade : GoalGrade A
  moonRuledOut : Bool

structure UnfinishedGoal (A : Astronomy) where
  projectId : Uuid
  projectName : Text
  goalId : Uuid
  subjectId : Uuid
  groupId : Option Uuid
  target : TargetRecord A
  channel : Option Text
  bands : List Band

namespace UnfinishedGoal

variable {A : Astronomy}

def ungraded (goal : UnfinishedGoal A) : Option Ungraded :=
  if goal.bands.isEmpty then some .noBand
  else (positionUnavailable goal.target).map .noPosition

def graded (goal : UnfinishedGoal A) (band : Option Band) (grade : Except Ungraded BandGrade)
    (window : Option (ObservingWindow A)) : GoalGrade A where
  projectId := goal.projectId
  projectName := goal.projectName
  goalId := goal.goalId
  subjectId := goal.subjectId
  groupId := goal.groupId
  targetId := goal.target.id
  designation := goal.target.designation
  channel := goal.channel
  band
  grade := grade.toOption
  ungraded :=
    match grade with
    | .ok _ => none
    | .error ungraded => some ungraded
  window

end UnfinishedGoal

section Grading

variable {A : Astronomy}

/-- The band that needs the most separation, the earlier in band order on a tie. -/
def strictestBand (goal : UnfinishedGoal A) (avoidance : MoonAvoidance A) (age : A.F64) :
    Option Band :=
  let separation := fun band => (avoidance.curve band).minSeparationDeg age
  Ordered.maxBy (fun first second =>
    (compare (separation first) (separation second)).then (compare second.index first.index))
    goal.bands

/-- The better of two windows of one night: the longer, the higher, the earlier. -/
def better (first second : ObservingWindow A) : ObservingWindow A :=
  let order := ((compare first.durationMinutes second.durationMinutes).then
    (compare first.peakAltitudeDeg second.peakAltitudeDeg)).then
    (compare second.startUtc first.startUtc)
  if order = .lt then second else first

def bestWindow (context : NightContext A) (target : TargetRecord A) (site : ObservingSite A) :
    Result (Option (ObservingWindow A)) := do
  match ← nightWindows context target site with
  | .error _ => pure none
  | .ok [] => pure none
  | .ok (window :: windows) => pure (some (windows.foldl better window))

/-- The best windows computed so far, by Target and Moon limit. -/
abbrev BestWindows (A : Astronomy) := List ((Uuid × MoonKey A.F64) × Option (ObservingWindow A))

/-- The best window under a Moon limit, computed once for each Target and limit. -/
def windowUnder (site : ObservingSite A) (context : NightContext A) (target : TargetRecord A)
    (best : BestWindows A) (moon : MoonCriterion A.F64) :
    Result (Option (ObservingWindow A) × BestWindows A) :=
  let key := (target.id, MoonKey.of moon)
  match best.lookup key with
  | some found => .ok (found, best)
  | none => do
    let found ← bestWindow (context.withMoon moon) target site
    pure (found, (key, found) :: best)

def gradeGoal (site : ObservingSite A) (context : NightContext A) (avoidance : MoonAvoidance A)
    (best : BestWindows A) (goal : UnfinishedGoal A) : Result (NightGrade A × BestWindows A) :=
  let age := context.moonAgeDays
  match strictestBand goal avoidance age, goal.ungraded with
  | some band, none => do
    let (curved, best) ← windowUnder site context goal.target best
      (curveCriterion (avoidance.curve band) age)
    let (free, best) ← windowUnder site context goal.target best .none
    let grade := bandGrade (curved.map (·.durationMinutes)) (free.map (·.durationMinutes))
    pure (⟨goal.graded (some band) (.ok grade) curved, curved.isNone && free.isSome⟩, best)
  | _, ungraded =>
    .ok (⟨goal.graded none (.error (ungraded.getD .noBand)) none, false⟩, best)

def gradeGoals (site : ObservingSite A) (context : NightContext A) (avoidance : MoonAvoidance A)
    (best : BestWindows A) : List (UnfinishedGoal A) → Result (List (NightGrade A))
  | [] => .ok []
  | goal :: goals => do
    let (grade, best) ← gradeGoal site context avoidance best goal
    let grades ← gradeGoals site context avoidance best goals
    pure (grade :: grades)

def rank : Option BandGrade → Nat
  | some .good => 0
  | some .marginal => 1
  | some .poor => 2
  | none => 3

/-- Best first: the grade, the longer window, then the Project, designation, channel and goal. -/
def gradeOrder (first second : GoalGrade A) : Ordering :=
  let minutes := fun grade : GoalGrade A => (grade.window.map (·.durationMinutes)).getD 0
  (compare (rank first.grade) (rank second.grade)).then <|
  (compare (minutes second) (minutes first)).then <|
  (compare first.projectName second.projectName).then <|
  (compare first.designation second.designation).then <|
  (compare first.channel second.channel).then <|
  compare first.goalId second.goalId

def gradeNight (goals : List (UnfinishedGoal A)) (site : ObservingSite A)
    (context : NightContext A) (avoidance : MoonAvoidance A) : Result (List (NightGrade A)) := do
  let graded ← gradeGoals site context avoidance [] goals
  pure (graded.insertionSort fun first second => gradeOrder first.grade second.grade ≠ .gt)

/-! ## The next good night -/

inductive NextGoodNight (A : Astronomy)
  | tonight
  | noGradableGoal
  | night (night : A.Date)
  | noneWithin (nights : Nat)

def nextGoodNightSearch : Nat := 35

/-- Whether some goal has a window under its curve, each Target and Moon limit tried once. -/
def tryGoals (site : ObservingSite A) (context : NightContext A) (avoidance : MoonAvoidance A)
    (tried : List (Uuid × MoonKey A.F64)) : List (UnfinishedGoal A) → Result Bool
  | [] => .ok false
  | goal :: goals =>
    match strictestBand goal avoidance context.moonAgeDays with
    | none => tryGoals site context avoidance tried goals
    | some band =>
      let moon := curveCriterion (avoidance.curve band) context.moonAgeDays
      let key := (goal.target.id, MoonKey.of moon)
      if key ∈ tried then tryGoals site context avoidance tried goals
      else do
        match ← bestWindow (context.withMoon moon) goal.target site with
        | some _ => pure true
        | none => tryGoals site context avoidance (tried ++ [key]) goals

/-- Search the nights after `candidate`, so many of them. -/
def searchNights (gradable : List (UnfinishedGoal A)) (site : ObservingSite A)
    (criteria : PlanCriteria A) (avoidance : MoonAvoidance A) :
    Nat → A.Date → Result (NextGoodNight A)
  | 0, _ => .ok (.noneWithin nextGoodNightSearch)
  | nights + 1, candidate => do
    let candidate ← Result.orElse (A.nextDay candidate) (.invalidInput
      ("night after " ++ A.displayDate candidate ++ " is outside the supported calendar"))
    let context ← NightContext.new site candidate criteria
    if context.darkSeconds = 0 then searchNights gradable site criteria avoidance nights candidate
    else
      if ← tryGoals site context avoidance [] gradable then pure (.night candidate)
      else searchNights gradable site criteria avoidance nights candidate

/-- When goals are next suited after `night`, which none suits. -/
def nextGoodNight (goals : List (UnfinishedGoal A)) (site : ObservingSite A) (night : A.Date)
    (criteria : PlanCriteria A) (avoidance : MoonAvoidance A) : Result (NextGoodNight A) :=
  let gradable := goals.filter (·.ungraded.isNone)
  if gradable.isEmpty then .ok .noGradableGoal
  else searchNights gradable site criteria avoidance nextGoodNightSearch night

/-! ## The Targets list -/

structure BandState where
  band : Band
  grade : BandGrade
  clearMinutes : Nat
  deriving DecidableEq, Repr

/-- The longest window and the total under each Moon limit computed so far. -/
abbrev Computed (A : Astronomy) := List (MoonKey A.F64 × Option Nat × Nat)

def longest (windows : List (ObservingWindow A)) : Option Nat :=
  (windows.map (·.durationMinutes)).max?

/-- The windows under a Moon limit; a Target without a position has none. -/
def bandWindows (context : NightContext A) (record : TargetRecord A) (site : ObservingSite A)
    (moon : MoonCriterion A.F64) : Result (List (ObservingWindow A)) := do
  match ← nightWindows (context.withMoon moon) record site with
  | .ok windows => pure windows
  | .error _ => pure []

/-- The longest window and the total under a curve's limit: none where the Moon-free criteria leave
none. -/
def underMoon (context : NightContext A) (record : TargetRecord A) (site : ObservingSite A)
    (free : Option Nat) (computed : Computed A) (moon : MoonCriterion A.F64) :
    Result ((Option Nat × Nat) × Computed A) :=
  match computed.lookup (MoonKey.of moon) with
  | some found => .ok (found, computed)
  | none =>
    if free.isNone then .ok ((none, 0), computed)
    else do
      let found ← bandWindows context record site moon
      let clear := (found.map (·.durationMinutes)).sum
      pure ((longest found, clear), computed ++ [(MoonKey.of moon, longest found, clear)])

def gradeBands (context : NightContext A) (record : TargetRecord A) (site : ObservingSite A)
    (free : Option Nat) (computed : Computed A) :
    List (Band × MoonAvoidanceCurve A) → Result (List BandState)
  | [] => .ok []
  | (band, curve) :: curves => do
    let ((curved, clear), computed) ← underMoon context record site free computed
      (curveCriterion curve context.moonAgeDays)
    let bands ← gradeBands context record site free computed curves
    pure (⟨band, bandGrade curved free, clear⟩ :: bands)

/-- Each strip band graded for the context's night under its curve. -/
def gradedBands (context : NightContext A) (record : TargetRecord A) (site : ObservingSite A)
    (curves : List (Band × MoonAvoidanceCurve A)) : Result (List BandState) := do
  let free ← bandWindows context record site .none
  gradeBands context record site (longest free) [] curves

end Grading

end PlateVault.Planning
