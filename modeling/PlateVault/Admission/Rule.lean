import PlateVault.Calibration.Matching
import PlateVault.Output.Records
import PlateVault.Projects.Placement
import PlateVault.Sessions.Records

/-!
# The admission rule

Where a session stands in its intake, and what keeps it out of a group of a Project: every blocker at
once, in the order they are named.
-/

namespace PlateVault.Admission

open Calibration (InputKind PinState)
open Library (AssociationState EvidenceItem)
open Output (ProjectLifecycle)
open Projects (AdmissionBasis)

/-! ## Readiness -/

inductive SessionReadiness
  | needsTarget
  | needsRig
  | needsReview
  | ready
  deriving DecidableEq, Repr

def SessionReadiness.display : SessionReadiness → String
  | .needsTarget => "needs a Target"
  | .needsRig => "needs its rig"
  | .needsReview => "needs its review finished"
  | .ready => "is Ready"

/-- The facts readiness is computed from, read in one catalog snapshot. -/
structure SessionIntake where
  sessionId : Uuid
  groupingRevision : Nat
  superseded : Bool
  targetConfirmed : Bool
  rigId : Option Uuid
  reviewFinished : Bool
  unreviewedFrames : Nat
  changedFrames : Nat
  deriving DecidableEq, Repr

def SessionIntake.readiness (intake : SessionIntake) : SessionReadiness :=
  if !intake.targetConfirmed then .needsTarget
  else if intake.rigId.isNone then .needsRig
  else if !intake.reviewFinished || 0 < intake.unreviewedFrames || 0 < intake.changedFrames then
    .needsReview
  else .ready

def SessionIntake.reviewed (intake : SessionIntake) : SessionIntake :=
  { intake with unreviewedFrames := 0, changedFrames := 0 }

def agreeingAlias {P : Platform} : EvidenceItem P → Bool
  | .alias _ true => true
  | _ => false

def qualifiedGeometry {P : Platform} : EvidenceItem P → Bool
  | .coordinates _ _ true | .footprint _ true => true
  | _ => false

def isConflict {P : Platform} : EvidenceItem P → Bool
  | .conflict .. => true
  | _ => false

/-- Whether an association counts as confirmed: by the user, or by agreeing evidence. -/
def countsAsConfirmed {P : Platform} (state : AssociationState) (evidence : List (EvidenceItem P)) : Bool :=
  match state with
  | .confirmed => true
  | .suggested =>
    evidence.any agreeingAlias && evidence.any qualifiedGeometry && !evidence.any isConflict
  | .unresolved | .needsReview => false

/-! ## Calibration -/

def isSettled : PinState → Bool
  | .pinned .. | .declined _ => true
  | .unresolved | .suggested _ => false

def pinName : PinState → Text
  | .unresolved => "unresolved".toList
  | .suggested _ => "suggested".toList
  | .pinned .. => "pinned".toList
  | .declined _ => "declined".toList

/-- One light session's calibration; generation 0 means no record yet. -/
structure SessionCalibration where
  sessionId : Uuid
  generation : Nat
  matchingPending : Bool
  dark : PinState
  flat : PinState
  bias : PinState
  deriving DecidableEq, Repr

namespace SessionCalibration

def unresolved (sessionId : Uuid) : SessionCalibration :=
  ⟨sessionId, 0, false, .unresolved, .unresolved, .unresolved⟩

def kind (calibration : SessionCalibration) : InputKind → PinState
  | .bias => calibration.bias
  | .dark => calibration.dark
  | .flat => calibration.flat

def setKind (calibration : SessionCalibration) (kind : InputKind) (pin : PinState) : SessionCalibration :=
  match kind with
  | .bias => { calibration with bias := pin }
  | .dark => { calibration with dark := pin }
  | .flat => { calibration with flat := pin }

def unsettledKinds (calibration : SessionCalibration) : List InputKind :=
  [.bias, .dark, .flat].filter fun kind => !isSettled (calibration.kind kind)

end SessionCalibration

/-! ## Blockers -/

inductive AdmissionBlocker
  | projectLocked (lifecycle : ProjectLifecycle)
  | superseded
  | notReady (readiness : SessionReadiness)
  | rigMismatch (sessionRig : Option Uuid) (groupRig : Uuid)
  | calibrationUnsettled (kinds : List InputKind)
  deriving DecidableEq, Repr

def AdmissionBlocker.display : AdmissionBlocker → String
  | .projectLocked lifecycle => "the Project is " ++ lifecycle.display
  | .superseded => "the session was regrouped; add its successor"
  | .notReady readiness => "the session " ++ readiness.display
  | .rigMismatch (some rig) groupRig => "the session's rig " ++ rig.hyphenated ++
      " is not the group's rig " ++ groupRig.hyphenated
  | .rigMismatch none groupRig =>
    "the session has no confirmed rig; the group's rig is " ++ groupRig.hyphenated
  | .calibrationUnsettled kinds => "its calibration is not settled: choose its " ++
      String.intercalate ", " (kinds.map fun kind => String.ofList kind.asStr) ++ " first"

/-- Why one session can't join a Project: every blocker at once. -/
structure AdmissionRefusal where
  sessionId : Uuid
  blockers : List AdmissionBlocker
  deriving DecidableEq, Repr

def AdmissionRefusal.display (refusal : AdmissionRefusal) : String :=
  "session " ++ refusal.sessionId.hyphenated ++ " can't join the Project: " ++
    String.intercalate "; " (refusal.blockers.map AdmissionBlocker.display)

def blocker (fails : Bool) (reason : AdmissionBlocker) : List AdmissionBlocker :=
  if fails then [reason] else []

def readinessBlockers (intake : SessionIntake) : List AdmissionBlocker :=
  blocker intake.superseded .superseded ++
    blocker (intake.readiness ≠ .ready) (.notReady intake.readiness)

def calibrationBlockers (calibration : SessionCalibration) : List AdmissionBlocker :=
  blocker (!calibration.unsettledKinds.isEmpty) (.calibrationUnsettled calibration.unsettledKinds)

/-- The rule for adding a session to a group on a rig of a Project. -/
def admitSession (lifecycle : ProjectLifecycle) (groupRig : Uuid) (intake : SessionIntake)
    (calibration : SessionCalibration) : Except AdmissionRefusal AdmissionBasis :=
  let blockers := blocker (lifecycle ≠ .open) (.projectLocked lifecycle) ++ readinessBlockers intake ++
    blocker (intake.rigId ≠ some groupRig) (.rigMismatch intake.rigId groupRig) ++
    calibrationBlockers calibration
  if blockers.isEmpty then .ok ⟨intake.groupingRevision, calibration.generation⟩
  else .error ⟨intake.sessionId, blockers⟩

/-! ## When the rule admits -/

theorem blocker_eq_nil {fails : Bool} {reason : AdmissionBlocker} :
    blocker fails reason = [] ↔ fails = false := by
  cases fails <;> simp [blocker]

theorem readiness_eq_ready {intake : SessionIntake} : intake.readiness = .ready ↔
    intake.targetConfirmed = true ∧ intake.rigId.isSome = true ∧ intake.reviewFinished = true ∧
      intake.unreviewedFrames = 0 ∧ intake.changedFrames = 0 := by
  unfold SessionIntake.readiness
  cases htarget : intake.targetConfirmed with
  | false => simp
  | true =>
    cases hrig : intake.rigId with
    | none => simp
    | some rig =>
      cases hreview : intake.reviewFinished with
      | false => simp
      | true =>
        by_cases hframes : 0 < intake.unreviewedFrames ∨ 0 < intake.changedFrames
        · simp only [Bool.not_true, Bool.false_eq_true, if_false, Option.isNone_some, Bool.false_or,
            Bool.or_eq_true, decide_eq_true_eq, if_pos hframes, reduceCtorEq, false_iff, true_and,
            Option.isSome_some, not_and]
          omega
        · simp only [Bool.not_true, Bool.false_eq_true, if_false, Option.isNone_some, Bool.false_or,
            Bool.or_eq_true, decide_eq_true_eq, if_neg hframes, true_iff, true_and,
            Option.isSome_some]
          omega

theorem unsettledKinds_eq_nil {calibration : SessionCalibration} : calibration.unsettledKinds = [] ↔
    ∀ kind, isSettled (calibration.kind kind) = true := by
  unfold SessionCalibration.unsettledKinds
  rw [List.filter_eq_nil_iff]
  constructor
  · intro h kind
    have hkind := h kind (by cases kind <;> simp)
    simpa using hkind
  · intro h kind _
    simp [h kind]

theorem admitSession_eq_ok {lifecycle : ProjectLifecycle} {groupRig : Uuid} {intake : SessionIntake}
    {calibration : SessionCalibration} {basis : AdmissionBasis} :
    admitSession lifecycle groupRig intake calibration = .ok basis ↔
      lifecycle = .open ∧ intake.superseded = false ∧ intake.readiness = .ready ∧
        intake.rigId = some groupRig ∧ (∀ kind, isSettled (calibration.kind kind) = true) ∧
        basis = ⟨intake.groupingRevision, calibration.generation⟩ := by
  have hblockers : (blocker (lifecycle ≠ .open) (.projectLocked lifecycle) ++ readinessBlockers intake ++
      blocker (intake.rigId ≠ some groupRig) (.rigMismatch intake.rigId groupRig) ++
      calibrationBlockers calibration).isEmpty = true ↔
        lifecycle = .open ∧ intake.superseded = false ∧ intake.readiness = .ready ∧
          intake.rigId = some groupRig ∧ ∀ kind, isSettled (calibration.kind kind) = true := by
    rw [List.isEmpty_iff]
    simp only [readinessBlockers, calibrationBlockers, List.append_eq_nil_iff, blocker_eq_nil,
      ← unsettledKinds_eq_nil]
    simp only [ne_eq, decide_not, Bool.not_eq_eq_eq_not, Bool.not_false, decide_eq_true_eq,
      List.isEmpty_iff, and_assoc]
  unfold admitSession
  simp only
  split
  · next hempty =>
    obtain ⟨hopen, hcurrent, hready, hrig, hsettled⟩ := hblockers.mp hempty
    constructor
    · rintro ⟨⟩
      exact ⟨hopen, hcurrent, hready, hrig, hsettled, rfl⟩
    · rintro ⟨-, -, -, -, -, rfl⟩
      rfl
  · next hempty =>
    constructor
    · rintro ⟨⟩
    · rintro ⟨hopen, hcurrent, hready, hrig, hsettled, -⟩
      exact absurd (hblockers.mpr ⟨hopen, hcurrent, hready, hrig, hsettled⟩) hempty

end PlateVault.Admission
