import PlateVault.Base.Floats

/-!
# Calibration criteria

The evidence one side of a match carries, and the rows that compare the two sides: each exact on
canonical text, with what it read and from where. Floating point, `{:?}` and the calendar's texts
come from outside the repository.
-/

namespace PlateVault.Calibration

/-- What matching uses of `f64`, of `{:?}` and of the calendar. -/
structure Measures extends Floats where
  debug : Text → Text
  displayDate : Int → Text

abbrev Date := Int

def canonicalDecimal (M : Measures) (value : M.F64) : Text :=
  if M.isZero value then "0".toList else M.display value

/-! ## Inputs -/

inductive InputKind
  | bias
  | dark
  | flat
  deriving DecidableEq, Repr

def InputKind.asStr : InputKind → Text
  | .bias => "bias".toList
  | .dark => "dark".toList
  | .flat => "flat".toList

/-- How an input reaches a Project; a candidate is never an input. -/
inductive InputForm
  | rawSet
  | master
  | candidate
  deriving DecidableEq, Repr

inductive InputRef
  | rawSet (sessionId : Uuid) (groupingRevision : Nat)
  | master (masterId : Uuid) (revision : Nat)
  deriving DecidableEq, Repr

namespace InputRef

def form : InputRef → InputForm
  | .rawSet _ _ => .rawSet
  | .master _ _ => .master

def id : InputRef → Uuid
  | .rawSet id _ | .master id _ => id

end InputRef

/-! ## Evidence -/

inductive EvidenceField
  | imageType
  | camera
  | cameraId
  | width
  | height
  | binningX
  | binningY
  | gain
  | offset
  | exposure
  | setTemperature
  | filter
  | telescope
  | focalLength
  | measuredTemperature
  | readoutMode
  | night
  deriving DecidableEq, Repr

structure SourcedValue where
  value : Text
  source : Text
  deriving DecidableEq, Repr

structure CaptureEvidence where
  values : EvidenceField → Option SourcedValue
  confirmedEquipment : Option Uuid

def CaptureEvidence.get (evidence : CaptureEvidence) (field : EvidenceField) :
    Option SourcedValue :=
  evidence.values field

structure InputEvidence where
  kind : InputKind
  form : InputForm
  capture : CaptureEvidence

/-! ## Rows -/

inductive Verdict
  | compatible
  | incompatible
  | unknown
  deriving DecidableEq, Repr

inductive CriterionId
  | imageType
  | camera
  | dimensions
  | binning
  | gain
  | offset
  | exposure
  | setTemperature
  | channel
  | opticalTrain
  | rigVersion
  | rotation
  | readoutMode
  deriving DecidableEq, Repr

/-- One "Why this match" row; its tolerance is always `none`. -/
structure CriterionResult where
  criterion : CriterionId
  verdict : Verdict
  lightValue : Option Text
  inputValue : Option Text
  lightSource : Option Text
  inputSource : Option Text
  note : Option Text
  deriving DecidableEq, Repr

inductive EvidenceId
  | measuredTemperature
  | readoutMode
  | nightDistance
  | availability
  | quality
  deriving DecidableEq, Repr

structure EvidenceRow where
  evidence : EvidenceId
  lightValue : Option Text
  inputValue : Option Text
  note : Option Text
  deriving DecidableEq, Repr

def overallVerdict (criteria : List CriterionResult) : Verdict :=
  if criteria.any (·.verdict = .incompatible) then .incompatible
  else if criteria.all (·.verdict = .compatible) then .compatible
  else .unknown

structure Evaluation where
  verdict : Verdict
  criteria : List CriterionResult
  evidence : List EvidenceRow
  deriving DecidableEq, Repr

namespace Evaluation

def new (criteria : List CriterionResult) (evidence : List EvidenceRow) : Evaluation :=
  ⟨overallVerdict criteria, criteria, evidence⟩

/-- The criteria that keep an evaluation from being compatible. -/
def blocking (evaluation : Evaluation) : List CriterionId :=
  (evaluation.criteria.filter (·.verdict ≠ .compatible)).map (·.criterion)

theorem blocking_eq_nil {criteria : List CriterionResult} {evidence : List EvidenceRow} :
    (new criteria evidence).blocking = [] ↔ ∀ row ∈ criteria, row.verdict = .compatible := by
  simp [blocking, new]

end Evaluation

abbrev Side := Option (Text × Text)

def row (criterion : CriterionId) (verdict : Verdict) (light input : Side) : CriterionResult where
  criterion
  verdict
  lightValue := light.map (·.1)
  inputValue := input.map (·.1)
  lightSource := light.map (·.2)
  inputSource := input.map (·.2)
  note := none

@[simp] theorem row_verdict (criterion : CriterionId) (verdict : Verdict) (light input : Side) :
    (row criterion verdict light input).verdict = verdict :=
  rfl

def noted (result : CriterionResult) (note : String) : CriterionResult :=
  { result with note := some note.toList }

@[simp] theorem noted_verdict (result : CriterionResult) (note : String) :
    (noted result note).verdict = result.verdict :=
  rfl

def sourced (evidence : CaptureEvidence) (field : EvidenceField) : Side :=
  (evidence.get field).map fun value => (value.value, value.source)

/-- Equal canonical text on both sides; a missing side is unknown, never compatible. -/
def verdictOf : (light input : Option Text) → Verdict
  | some light, some input => if light = input then .compatible else .incompatible
  | _, _ => .unknown

def exact (criterion : CriterionId) (light input : CaptureEvidence) (field : EvidenceField) :
    CriterionResult :=
  let light := sourced light field
  let input := sourced input field
  row criterion (verdictOf (light.map (·.1)) (input.map (·.1))) light input

/-- Two fields compared together, shown as `first<separator>second`. -/
def pair (criterion : CriterionId) (light input : CaptureEvidence) (first second : EvidenceField)
    (separator : Text) : CriterionResult :=
  let side := fun evidence : CaptureEvidence => do
    let a ← sourced evidence first
    let b ← sourced evidence second
    some (a.1 ++ separator ++ b.1, a.2 ++ ", ".toList ++ b.2)
  let light := side light
  let input := side input
  row criterion (verdictOf (light.map (·.1)) (input.map (·.1))) light input

def imageType (M : Measures) (kind : InputKind) (input : InputEvidence) : CriterionResult :=
  let verdict := if input.kind = kind then .compatible else .incompatible
  let source :=
    match input.capture.get .imageType with
    | none => "classification".toList
    | some value => value.source ++ " ".toList ++ M.debug value.value
  row .imageType verdict (some (kind.asStr, "requirement".toList))
    (some (input.kind.asStr, source))

/-- INSTRUME on both sides; CAMERAID compared when both record it. -/
def camera (light input : CaptureEvidence) : CriterionResult :=
  let side := fun evidence : CaptureEvidence => do
    let model ← sourced evidence .camera
    match sourced evidence .cameraId with
    | some id => some (model.1 ++ " / ".toList ++ id.1, model.2 ++ ", ".toList ++ id.2)
    | none => some model
  let value := fun (evidence : CaptureEvidence) (field : EvidenceField) =>
    (evidence.get field).map (·.value)
  let model := verdictOf (value light .camera) (value input .camera)
  let (verdict, note) :=
    match model, value light .cameraId, value input .cameraId with
    | .compatible, none, none =>
      (.compatible, some "camera model only: neither side records CAMERAID".toList)
    | .compatible, some _, none | .compatible, none, some _ =>
      (.unknown, some "CAMERAID is recorded on one side only".toList)
    | .compatible, lightId, inputId => (verdictOf lightId inputId, none)
    | other, _, _ => (other, none)
  { row .camera verdict (side light) (side input) with note }

/-- The same Confirmed Equipment ID, and otherwise a fully known (TELESCOP, FOCALLEN) pair. -/
def opticalTrain (light input : CaptureEvidence) : CriterionResult :=
  match light.confirmedEquipment, input.confirmedEquipment with
  | some lightEquipment, some inputEquipment =>
    let side := fun id : Uuid =>
      some (id.hyphenated.toList, "Confirmed Equipment ".toList ++ id.hyphenated.toList)
    let verdict : Verdict :=
      if lightEquipment = inputEquipment then .compatible else .incompatible
    let train := row .opticalTrain verdict (side lightEquipment) (side inputEquipment)
    { train with
      note := if verdict = .incompatible then some "another optical train".toList else none }
  | _, _ =>
    let header := pair .opticalTrain light input .telescope .focalLength " @ ".toList
    let missing := ("neither a shared Confirmed Equipment association nor TELESCOP and " ++
      "FOCALLEN on both sides").toList
    { header with note := if header.verdict = .unknown then some missing else none }

def shown (evidence : EvidenceId) (light input : CaptureEvidence) (field : EvidenceField) :
    EvidenceRow where
  evidence
  lightValue := (light.get field).map (·.value)
  inputValue := (input.get field).map (·.value)
  note := none

/-- Darks and bias: the readout mode, compatible when neither side records one. -/
def readoutMode (light input : CaptureEvidence) : CriterionResult :=
  let result := exact .readoutMode light input .readoutMode
  if result.lightValue = none ∧ result.inputValue = none then
    noted { result with verdict := .compatible } "neither side records a readout mode"
  else result

end PlateVault.Calibration
