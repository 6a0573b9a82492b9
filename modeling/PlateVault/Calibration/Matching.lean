import PlateVault.Calibration.Criteria
import PlateVault.Lib.Ordered

/-!
# Matching a session's calibration

One light session against every raw set and master of a kind: the hard checks, the cautions, and
the order of the offers.
-/

namespace PlateVault.Calibration

/-! ## The two sides -/

/-- Which physical camera one side of a match was taken with. -/
inductive MatchCamera
  | known (cameraId : Uuid)
  | ambiguous
  | unlinked
  deriving DecidableEq, Repr

inductive RotatorPresence
  | present
  | absent
  | unknown
  deriving DecidableEq, Repr

def RotatorPresence.needsAngle (rotator : RotatorPresence) : Bool := rotator ≠ .absent

structure RigVersion where
  id : Uuid
  validFrom : Date
  rotator : RotatorPresence
  deriving DecidableEq, Repr

/-- The version of a rig a capture on `night` was taken with; an unknown night reads a rig's only
version. -/
def RigVersion.forNight (versions : List RigVersion) (night : Option Date) : Option RigVersion :=
  match night with
  | none =>
    match versions with
    | [only] => some only
    | _ => none
  | some night =>
    (Ordered.maxBy (compareOn RigVersion.validFrom) (versions.filter (·.validFrom ≤ night))).or
      (Ordered.minBy (compareOn RigVersion.validFrom) versions)

structure LightRig where
  rigId : Uuid
  version : Option RigVersion
  versions : List RigVersion
  deriving DecidableEq, Repr

structure SessionLight (M : Measures) where
  sessionId : Uuid
  capture : CaptureEvidence
  night : Option Date
  camera : MatchCamera
  rig : Option LightRig
  rotatorDeg : Option M.F64

structure PinnedFile where
  assetId : Option Uuid
  sha256 : Text
  fingerprint : Text
  deriving DecidableEq, Repr

structure SessionInput (M : Measures) where
  input : InputRef
  kind : InputKind
  capture : CaptureEvidence
  captured : Option Date
  camera : MatchCamera
  rigVersionId : Option Uuid
  /-- One a frame. -/
  rotatorDeg : List (Option M.F64)
  files : List PinnedFile
  available : Bool

/-! ## Settings -/

structure FlatRules (M : Measures) where
  fineWithinDeg : M.F64
  offeredWithinDeg : M.F64
  windowNights : Nat

def requireAngle (M : Measures) (field : String) (value : M.F64) : Result Unit :=
  if M.isFinite value && M.le (M.literal 0) value && M.gt (M.literal 180) value then .ok ()
  else .error (.invalidField field
    (field ++ " " ++ String.ofList (M.display value) ++ " must be an angle in [0, 180) degrees"))

def FlatRules.validate {M : Measures} (rules : FlatRules M) : Result Unit := do
  requireAngle M "fineWithinDeg" rules.fineWithinDeg
  requireAngle M "offeredWithinDeg" rules.offeredWithinDeg
  if M.gt rules.fineWithinDeg rules.offeredWithinDeg then
    .error (.invalidField "fineWithinDeg"
      ("a flat fine within " ++ String.ofList (M.display rules.fineWithinDeg) ++
        "° is never offered beyond " ++ String.ofList (M.display rules.offeredWithinDeg) ++ "°"))
  else .ok ()

structure DarkBiasRules where
  windowDays : Nat

structure WorkflowSettings (M : Measures) where
  flats : FlatRules M
  darkBias : DarkBiasRules

/-! ## Offers -/

inductive MatchCaution
  | criterionUnknown (criteria : List CriterionId)
  | outsideWindow (days window : Nat)
  | ageUnknown
  | rotationWarning (degrees : Text)
  | unavailable
  | rankingTie
  deriving DecidableEq, Repr

structure PinTarget where
  input : InputRef
  captured : Option Date
  files : List PinnedFile
  evaluation : Evaluation
  deriving DecidableEq, Repr

structure MatchOffer where
  target : PinTarget
  cautions : List MatchCaution
  deriving DecidableEq, Repr

def MatchOffer.pinnable (offer : MatchOffer) : Bool := offer.cautions.isEmpty

structure KindMatch where
  kind : InputKind
  offers : List MatchOffer
  deriving DecidableEq, Repr

inductive PinOrigin
  | automatic
  | confirmed
  | reassigned
  deriving DecidableEq, Repr

inductive DeclineOrigin
  | user
  | cameraDefault
  deriving DecidableEq, Repr

inductive PinState
  | unresolved
  | suggested (target : PinTarget)
  | pinned (target : PinTarget) (origin : PinOrigin)
  | declined (origin : DeclineOrigin)
  deriving DecidableEq, Repr

/-- The top offer pinned automatically when it has no caution, otherwise suggested. -/
def KindMatch.state (found : KindMatch) : PinState :=
  match found.offers.head? with
  | none => .unresolved
  | some top => if top.pinnable then .pinned top.target .automatic else .suggested top.target

/-! ## Criteria of a session -/

section Criteria

variable {M : Measures}

/-- The physical camera when both sides name one; with several cameras of a model and none named,
unknown; otherwise the headers. -/
def sessionCamera (light : SessionLight M) (input : SessionInput M) : CriterionResult :=
  match light.camera, input.camera with
  | .known lights, .known other =>
    let verdict : Verdict := if lights = other then .compatible else .incompatible
    let side := fun id : Uuid => some (id.hyphenated.toList, "camera".toList)
    { row .camera verdict (side lights) (side other) with
      note := if verdict = .incompatible then some "another camera".toList else none }
  | .ambiguous, _ | _, .ambiguous =>
    let header := camera light.capture input.capture
    if header.verdict = .incompatible then header
    else
      noted { header with verdict := .unknown } "several cameras are this model: name the camera"
  | _, _ => camera light.capture input.capture

def versionSide (M : Measures) (version : RigVersion) : Side :=
  some (M.displayDate version.validFrom, "rig version ".toList ++ version.id.hyphenated.toList)

/-- The lights' own version against the one the flats were taken with. -/
def sameVersion (M : Measures) (rig : LightRig) (flats : Option RigVersion) : CriterionResult :=
  match rig.version, flats with
  | some lights, some flats =>
    if lights.id = flats.id then
      noted (row .rigVersion .compatible (versionSide M lights) (versionSide M flats))
        "the same rig version"
    else
      noted (row .rigVersion .incompatible (versionSide M lights) (versionSide M flats))
        "another rig version: the rig changed between them"
  | none, none =>
    if rig.versions.isEmpty then
      noted (row .rigVersion .compatible none none) "the rig has no recorded versions"
    else noted (row .rigVersion .unknown none none) "the rig version is unknown"
  | lights, _ =>
    noted (row .rigVersion .unknown (lights.bind (versionSide M)) none) "the rig version is unknown"

/-- Flats only: the version of the lights' rig the flats were taken with, the one a raw set recorded
or else the one their date falls in. -/
def rigVersion (light : SessionLight M) (input : SessionInput M) : CriterionResult :=
  match light.rig with
  | none => noted (row .rigVersion .unknown none none) "the lights' rig is not confirmed"
  | some rig =>
    match input.rigVersionId with
    | none => sameVersion M rig (RigVersion.forNight rig.versions input.captured)
    | some id =>
      match rig.versions.find? (·.id = id) with
      | some flats => sameVersion M rig (some flats)
      | none =>
        noted (row .rigVersion .incompatible (rig.version.bind (versionSide M))
          (some (id.hyphenated.toList, "rig version".toList))) "a version of another rig"

/-- The smaller angle between two rotator angles in degrees. -/
def angleBetween (M : Measures) (a b : M.F64) : M.F64 :=
  let apart := M.remEuclid (M.sub a b) (M.literal 360)
  M.min apart (M.sub (M.literal 360) apart)

/-- The largest difference over the flats' frames, to a hundredth of a degree. -/
def widestApart (M : Measures) (lights : M.F64) (angles : List M.F64) : M.F64 :=
  let widest := (angles.map (angleBetween M lights)).foldl M.max (M.literal 0)
  M.div (M.round (M.mul widest (M.literal 100))) (M.literal 100)

/-- Every frame's angle; `none` where a frame records none or there is no frame. -/
def knownAngles (angles : List (Option M.F64)) : Option (List M.F64) :=
  (angles.mapM id).bind fun angles => if angles.isEmpty then none else some angles

def rotationVerdict (rules : FlatRules M) (widest : M.F64) : Verdict :=
  if M.le widest rules.fineWithinDeg || M.le widest rules.offeredWithinDeg then .compatible
  else .incompatible

def rotationNote (rules : FlatRules M) (widest : M.F64) : String :=
  let degrees := String.ofList (canonicalDecimal M widest)
  if M.le widest rules.fineWithinDeg then degrees ++ "° apart"
  else if M.le widest rules.offeredWithinDeg then degrees ++ "° apart: a warning, confirm it"
  else degrees ++ "° apart: over " ++
    String.ofList (canonicalDecimal M rules.offeredWithinDeg) ++ "°"

def rotatorOf (light : SessionLight M) : RotatorPresence :=
  match light.rig.bind (·.version) with
  | some version => version.rotator
  | none => .unknown

/-- Flats only: the largest ROTATANG difference over the flats' frames. A missing angle reads unknown
unless the rig has no rotator. -/
def flatRotation (light : SessionLight M) (input : SessionInput M) (rules : FlatRules M) :
    CriterionResult × Option M.F64 :=
  let angles := knownAngles input.rotatorDeg
  let lights := light.rotatorDeg.map fun deg => (canonicalDecimal M deg, "ROTATANG".toList)
  let flats := angles.map fun angles =>
    (", ".toList.intercalate (angles.map (canonicalDecimal M)).eraseReps, "ROTATANG".toList)
  match light.rotatorDeg, angles with
  | some deg, some angles =>
    let widest := widestApart M deg angles
    (noted (row .rotation (rotationVerdict rules widest) lights flats) (rotationNote rules widest),
      some widest)
  | _, _ =>
    if !(rotatorOf light).needsAngle then
      (noted (row .rotation .compatible lights flats) "the rig has no rotator", none)
    else (noted (row .rotation .unknown lights flats) "the rotation is unknown", none)

/-- The rows of one input against the session, the rows that are only shown, and for flats the
largest rotation difference. -/
def hardChecks (kind : InputKind) (light : SessionLight M) (input : SessionInput M)
    (settings : WorkflowSettings M) : List CriterionResult × List EvidenceRow × Option M.F64 :=
  let lights := light.capture
  let other := input.capture
  let criteria :=
    [imageType M kind ⟨input.kind, input.input.form, other⟩, sessionCamera light input,
      pair .dimensions lights other .width .height "x".toList,
      pair .binning lights other .binningX .binningY "x".toList]
  if kind = .flat then
    let (row, degrees) := flatRotation light input settings.flats
    (criteria ++ [exact .channel lights other .filter, opticalTrain lights other,
      rigVersion light input, row], [], degrees)
  else
    (criteria ++ [exact .gain lights other .gain, exact .offset lights other .offset] ++
      (if kind = .dark then [exact .exposure lights other .exposure] else []) ++
      [exact .setTemperature lights other .setTemperature, readoutMode lights other],
      [shown .measuredTemperature lights other .measuredTemperature], none)

def daysApart (light input : Option Date) : Option Nat :=
  match light, input with
  | some light, some input =>
    if (light - input).natAbs < 2 ^ 32 then some (light - input).natAbs else none
  | _, _ => none

/-- Both capture dates and their distance against the window. -/
def ageRow (M : Measures) (light input : Option Date) (days : Option Nat) (window : Nat) :
    EvidenceRow where
  evidence := .nightDistance
  lightValue := light.map M.displayDate
  inputValue := input.map M.displayDate
  note := some <|
    match days with
    | some days =>
      decimal days ++ (if days ≤ window then " days apart, inside the ".toList
        else " days apart, outside the ".toList) ++ decimal window ++ "-day window".toList
    | none => "a capture date is unknown".toList

end Criteria

/-! ## The match -/

structure Ranked (M : Measures) where
  blocked : Bool
  raw : Bool
  days : Option Nat
  rotation : Option M.F64
  offer : MatchOffer

section Match

variable {M : Measures}

def windowOf (kind : InputKind) (settings : WorkflowSettings M) : Nat :=
  match kind with
  | .flat => settings.flats.windowNights
  | .dark | .bias => settings.darkBias.windowDays

def ageCautions (days : Option Nat) (window : Nat) : List MatchCaution :=
  match days with
  | some days => if days ≤ window then [] else [.outsideWindow days window]
  | none => [.ageUnknown]

def rotationCautions (M : Measures) (rotation : Option M.F64) (fine : M.F64) : List MatchCaution :=
  match rotation with
  | some degrees => if M.gt degrees fine then [.rotationWarning (canonicalDecimal M degrees)] else []
  | none => []

def cautionsOf (unknown : List CriterionId) (days : Option Nat) (window : Nat)
    (rotation : Option M.F64) (fine : M.F64) (available : Bool) : List MatchCaution :=
  (if unknown.isEmpty then [] else [.criterionUnknown unknown]) ++ ageCautions days window ++
    rotationCautions M rotation fine ++ (if available then [] else [.unavailable])

/-- The criteria of one input against the session, with the rows only shown. -/
def sessionEvaluation (kind : InputKind) (light : SessionLight M) (settings : WorkflowSettings M)
    (input : SessionInput M) : Evaluation :=
  let (criteria, shownRows, _) := hardChecks kind light input settings
  let days := daysApart light.night input.captured
  Evaluation.new criteria
    (shownRows ++ [ageRow M light.night input.captured days (windowOf kind settings)])

def sessionCautions (kind : InputKind) (light : SessionLight M) (settings : WorkflowSettings M)
    (input : SessionInput M) : List MatchCaution :=
  cautionsOf (sessionEvaluation kind light settings input).blocking
    (daysApart light.night input.captured) (windowOf kind settings)
    (hardChecks kind light input settings).2.2 settings.flats.fineWithinDeg input.available

def ranked (kind : InputKind) (light : SessionLight M) (settings : WorkflowSettings M)
    (input : SessionInput M) : Ranked M where
  blocked := !(sessionCautions kind light settings input).isEmpty
  raw := input.input.form ≠ .master
  days := daysApart light.night input.captured
  rotation := (hardChecks kind light input settings).2.2
  offer :=
    { target := ⟨input.input, input.captured, input.files,
        sessionEvaluation kind light settings input⟩
      cautions := sessionCautions kind light settings input }

/-- One input against the session; `none` when a hard check fails. -/
def sessionOffer (kind : InputKind) (light : SessionLight M) (settings : WorkflowSettings M)
    (input : SessionInput M) : Option (Ranked M) :=
  if (hardChecks kind light input settings).1.any (·.verdict = .incompatible) then none
  else some (ranked kind light settings input)

def distanceOrder (left right : Option Nat) : Ordering := Ordered.knownFirst left right

def sessionRank (left right : Ranked M) : Ordering :=
  (((compare left.blocked right.blocked).then (compare left.raw right.raw)).then
    (distanceOrder left.days right.days)).then
    (Ordered.knownFirst left.rotation right.rotation)

/-- The rank, and the id of the input where two rank the same. -/
def sessionOrder (left right : Ranked M) : Ordering :=
  (sessionRank left right).then
    (compare left.offer.target.input.id right.offer.target.input.id)

/-- A pinnable top input that ties with the next is only suggested. -/
def warnTie : List (Ranked M) → List (Ranked M)
  | first :: second :: rest =>
    if !first.blocked && sessionRank first second = .eq then
      let offer := { first.offer with cautions := first.offer.cautions ++ [.rankingTie] }
      { first with offer } :: second :: rest
    else first :: second :: rest
  | ranked => ranked

/-- Every input of `kind` that passes the hard checks, best first. -/
def matchSession (kind : InputKind) (light : SessionLight M) (inputs : List (SessionInput M))
    (settings : WorkflowSettings M) : KindMatch :=
  let ranked := ((inputs.filter (·.kind = kind)).filterMap
    (sessionOffer kind light settings)).insertionSort fun left right =>
      sessionOrder left right ≠ .gt
  ⟨kind, (warnTie ranked).map (·.offer)⟩

end Match

end PlateVault.Calibration
