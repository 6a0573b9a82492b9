import PlateVault.Library.Observations
import PlateVault.Projects.Placement
import PlateVault.Reminders.Records

/-!
# A Project's rows

The subjects, rigs, goals, groups, sessions and captures a Project holds, and the statements every
write of them is made of. A removed subject's goals are kept hidden by its Target. Positions are
64-bit columns; a table refuses a key it has.
-/

namespace PlateVault.Projects

open View (Host)
open Reminders (withinField)

/-! ## Goals -/

inductive QualityCriterion (P : Platform)
  | usableOnly
  | maxFwhmMedian (maxArcsec : P.F64)

def QualityCriterion.name {P : Platform} : QualityCriterion P → Text
  | .usableOnly => "usable_only".toList
  | .maxFwhmMedian _ => "max_fwhm_median".toList

inductive GoalSpec (P : Platform)
  | integration (channel : Option Text) (goalSeconds : Nat)
  | frameCount (channel : Option Text) (goalFrames : Nat)
  | qualityBar (criterion : QualityCriterion P)

/-- What identifies a goal among the goals of one subject or panel. -/
structure GoalIdentity where
  kind : String
  key : Option Text
  deriving DecidableEq, Repr

namespace GoalSpec

variable {P : Platform}

def kindName : GoalSpec P → String
  | .integration .. => "integration"
  | .frameCount .. => "frame_count"
  | .qualityBar _ => "quality_bar"

/-- The trimmed channel of an integration or frame-count goal. -/
def channel : GoalSpec P → Option Text
  | .integration channel _ | .frameCount channel _ => channel.map trim
  | .qualityBar _ => none

def identity (goal : GoalSpec P) : GoalIdentity where
  kind := goal.kindName
  key := match goal with
    | .qualityBar criterion => some criterion.name
    | _ => goal.channel

/-- The same goal with its channel trimmed, as it is stored. -/
def normalized (goal : GoalSpec P) : GoalSpec P :=
  match goal with
  | .integration _ seconds => .integration goal.channel seconds
  | .frameCount _ frames => .frameCount goal.channel frames
  | .qualityBar criterion => .qualityBar criterion

def inRange (value : Nat) : Bool := 1 ≤ value && value < 2 ^ 63

/-- `GoalSpec::validate`. -/
def validate (goal : GoalSpec P) : Result Unit :=
  if goal.channel = some [] then
    .error (.invalidField "channel" (goal.kindName ++ " channel is blank"))
  else match goal with
    | .integration _ seconds =>
      if !inRange seconds || 2 ^ 64 ≤ seconds * 1000000 then
        .error (.invalidField "goalSeconds"
          ("integration goalSeconds " ++ String.ofList (decimal seconds) ++ " is out of range"))
      else .ok ()
    | .frameCount _ frames =>
      if !inRange frames then
        .error (.invalidField "goalFrames"
          ("frame_count goalFrames " ++ String.ofList (decimal frames) ++ " is out of range"))
      else .ok ()
    | .qualityBar (.maxFwhmMedian maxArcsec) =>
      if !P.isFinite maxArcsec || P.le maxArcsec (P.literal 0) then
        .error (.invalidField "criterion.maxArcsec"
          ("quality bar maxArcsec " ++ String.ofList (P.display maxArcsec) ++ " must be above 0"))
      else .ok ()
    | .qualityBar .usableOnly => .ok ()

end GoalSpec

structure GoalInput (P : Platform) where
  targetId : Uuid
  groupId : Option Uuid
  goal : GoalSpec P

/-- `{:?}` of an optional text. -/
def debugOption (P : Platform) : Option Text → Text
  | some text => "Some(".toList ++ P.debug text ++ ")".toList
  | none => "None".toList

/-- Valid goals, none listed twice for one subject or panel group. -/
def validateGoalsFrom {P : Platform} (seen : List (Uuid × Option Uuid × GoalIdentity)) (index : Nat) :
    List (GoalInput P) → Result Unit
  | [] => .ok ()
  | item :: items => do
    let field := String.ofList (decimal index)
    (item.goal.validate).mapError (withinField field)
    let key := (item.targetId, item.groupId, item.goal.identity)
    Result.require (key ∉ seen) (.invalidField field
      ("Target " ++ item.targetId.hyphenated ++ " lists the " ++ item.goal.kindName ++ " goal " ++
        String.ofList (debugOption P item.goal.identity.key) ++ " twice"))
    validateGoalsFrom (key :: seen) (index + 1) items

def validateGoals {P : Platform} (goals : List (GoalInput P)) : Result Unit :=
  validateGoalsFrom [] 0 goals

/-! ## Subjects -/

/-- A subject of a Project: a saved Target, with an optional label. -/
structure SubjectInput where
  targetId : Uuid
  name : Option Text

def SubjectInput.label (subject : SubjectInput) : Option Text := subject.name.map trim

def validateSubjectsFrom (targets : List Uuid) (index : Nat) : List SubjectInput → Result Unit
  | [] => .ok ()
  | subject :: subjects => do
    let field := String.ofList (decimal index)
    Result.require (subject.label ≠ some []) (.invalidField (field ++ ".name")
      ("subject " ++ subject.targetId.hyphenated ++ ": name is blank"))
    Result.require (subject.targetId ∉ targets) (.invalidField (field ++ ".targetId")
      ("Target " ++ subject.targetId.hyphenated ++ " is a subject twice"))
    validateSubjectsFrom (subject.targetId :: targets) (index + 1) subjects

def validateSubjects (subjects : List SubjectInput) : Result Unit := do
  Result.require (!subjects.isEmpty) (.invalidInput "a Project needs at least one subject")
  validateSubjectsFrom [] 0 subjects

/-! ## Captures -/

inductive ApplicableQuality
  | unreviewed
  | usable
  | unusable
  | changedContent (previous : Library.Quality)
  | verificationPending (previous : Library.Quality)
  | conflicting
  | conflictingCopies
  deriving DecidableEq, Repr

inductive InclusionBasis
  | usable
  | explicit
  deriving DecidableEq, Repr

inductive ExclusionBasis
  | unusable
  | user
  deriving DecidableEq, Repr

inductive CaptureInclusion
  | included (basis : InclusionBasis)
  | excluded (basis : ExclusionBasis)
  deriving DecidableEq, Repr

/-- A copy of a capture with its decision revision and observation when it was chosen. -/
structure CopyBasis where
  assetId : Uuid
  decisionRevision : Nat
  fingerprint : ObservationFingerprint
  deriving DecidableEq, Repr

/-- One logical capture a Project holds through a session, keyed by its smallest copy. -/
structure ProjectCapture where
  captureKey : Uuid
  sessionId : Uuid
  copies : List CopyBasis
  inclusion : CaptureInclusion
  qualityWhenAdded : ApplicableQuality
  deriving DecidableEq, Repr

/-! ## Rows -/

structure SubjectRow where
  id : Uuid
  targetId : Uuid
  name : Option Text
  position : Nat
  deriving DecidableEq, Repr

structure RigRow where
  equipmentId : Uuid
  position : Nat
  deriving DecidableEq, Repr

/-- A goal with its owner: its subject, or the subject's Target while it is hidden. -/
structure GoalRow (P : Platform) where
  id : Uuid
  owner : Uuid
  groupId : Option Uuid
  goal : GoalSpec P
  position : Nat

structure GroupRow (P : Platform) where
  id : Uuid
  rigId : Uuid
  name : GroupName
  panel : Bool
  origin : GroupOrigin
  optics : OpticsSignature
  framing : Option (FramingEvidence P)
  position : Nat

/-- A held session in its group, on the Target it joined on. -/
structure MemberRow where
  sessionId : Uuid
  groupId : Uuid
  placement : SessionPlacement
  targetId : Uuid
  basis : AdmissionBasis
  deriving DecidableEq, Repr

structure Rows (P : Platform) where
  id : Uuid
  revision : Nat
  subjects : List SubjectRow
  rigs : List RigRow
  goals : List (GoalRow P)
  hidden : List (GoalRow P)
  groups : List (GroupRow P)
  sessions : List MemberRow
  captures : List ProjectCapture

structure LibraryReads (P : Platform) where
  /-- A saved Target's designation. -/
  target : Uuid → Result Text
  /-- A rig's name. -/
  equipment : Uuid → Result Text
  /-- A session's confirmed Target and rig. -/
  basis : Uuid → Result (Uuid × Option Uuid)
  /-- What the admission rule says of a session for a group on a rig of an open Project. -/
  admission : (rig session : Uuid) → Option AdmissionBasis → Result AdmissionBasis
  /-- A session's logical captures as they stand. -/
  captures : Uuid → Result (List ProjectCapture)
  validOptics : OpticsSignature → Result Unit
  validFraming : FramingEvidence P → Result Unit

def refused (table : String) : LibraryError := .persistenceFailure (table ++ " refuses the row")

end PlateVault.Projects
