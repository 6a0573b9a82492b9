import PlateVault.Grouping.Framing
import PlateVault.View.Layout

/-!
# Where a Project's sessions go

A group holds one rig with one optical setup and one framing. A new session joins the framing group
of its rig and optics whose anchor lies nearest within the margins, and otherwise anchors a new one,
under the first default name whose key and folder no group has. A search for a free name is given
how many names it may try.
-/

namespace PlateVault.Projects

open View (Host token nameKey componentLimit)

inductive GroupOrigin
  | framing
  | user
  deriving DecidableEq, Repr

inductive SessionPlacement
  | framing
  | user
  /-- No pointing evidence. -/
  | framingUnknown
  deriving DecidableEq, Repr

/-- The optics of a rig version; every part may be unknown. -/
structure OpticsSignature where
  cameraId : Option Uuid
  focalLengthMm : Option Text
  reducer : Option Text
  deriving DecidableEq, Repr

/-- A group's framing: its anchor's centre, rotations and field. -/
structure FramingEvidence (P : Platform) where
  raDeg : P.F64
  decDeg : P.F64
  rotatorDeg : Option P.F64
  skyAngleDeg : Option P.F64
  field : Option (FieldOfView P)

/-- A name that is not blank and holds no control character. -/
structure GroupName where
  text : Text
  nonblank : text ≠ []
  plain : ∀ c ∈ text, View.isControl c = false

structure AdmissionBasis where
  groupingRevision : Nat
  calibrationGeneration : Nat
  deriving DecidableEq, Repr

structure ProjectGroup (P : Platform) where
  id : Uuid
  rigId : Uuid
  name : GroupName
  origin : GroupOrigin
  optics : OpticsSignature
  framing : Option (FramingEvidence P)

structure NewGroup (P : Platform) where
  id : Uuid
  rigId : Uuid
  name : GroupName
  origin : GroupOrigin
  optics : OpticsSignature
  framing : Option (FramingEvidence P)

structure SessionAdd where
  sessionId : Uuid
  groupId : Uuid
  placement : SessionPlacement
  expected : Option AdmissionBasis
  deriving DecidableEq, Repr

structure SessionToPlace (P : Platform) where
  sessionId : Uuid
  rigId : Uuid
  rigName : Text
  optics : OpticsSignature
  /-- `none` for a session without pointing. -/
  framing : Option (FramingEvidence P)
  expected : Option AdmissionBasis
  /-- The id a group of its own would be given. -/
  fresh : Uuid

/-- The groups an add creates and where each session goes. -/
structure PlacementPlan (P : Platform) where
  groups : List (NewGroup P)
  adds : List SessionAdd

/-- A group placement can choose: the Project's own and those planned. -/
structure Candidate (P : Platform) where
  id : Uuid
  rigId : Uuid
  origin : GroupOrigin
  optics : OpticsSignature
  framing : Option (FramingEvidence P)

def Candidate.ofGroup {P : Platform} (group : ProjectGroup P) : Candidate P :=
  ⟨group.id, group.rigId, group.origin, group.optics, group.framing⟩

def Candidate.ofNew {P : Platform} (group : NewGroup P) : Candidate P :=
  ⟨group.id, group.rigId, group.origin, group.optics, group.framing⟩

/-! ## The nearest group -/

section Nearest

variable {P : Platform} (S : Sky P)

/-- A recorded framing as evidence. An offset reads no field. -/
def Evidence.ofRecord (framing : FramingEvidence P) : Evidence S where
  centre := centre S (some framing.raDeg) (some framing.decDeg)
  rotatorDeg := angle S framing.rotatorDeg
  skyAngleDeg := angle S framing.skyAngleDeg
  field := framing.field
  label := none

/-- The angular distance of `other` from the anchor when it lies within the split limits. -/
def framingOffset (anchor other : FramingEvidence P) (margins : FramingMargins P) :
    Option P.F64 :=
  ((Evidence.ofRecord S anchor).offset S (Evidence.ofRecord S other) margins.split).map
    (·.separation)

/-- How far a group's anchor lies from a framing; a group without one anchors nothing. -/
def Candidate.offset (framing : FramingEvidence P) (margins : FramingMargins P)
    (group : Candidate P) : Option P.F64 :=
  group.framing.bind fun anchor => framingOffset S anchor framing margins

/-- The nearer of the best so far and a group; the earlier group on a tie. -/
def nearer (offset : Candidate P → Option P.F64) (best : Option (P.F64 × Candidate P))
    (group : Candidate P) : Option (P.F64 × Candidate P) :=
  match offset group with
  | none => best
  | some found =>
    if best.all fun (nearest, _) => P.lt found nearest then some (found, group) else best

/-- The group whose anchor lies nearest within the margins. -/
def nearest (groups : List (Candidate P)) (framing : FramingEvidence P)
    (margins : FramingMargins P) : Option Uuid :=
  (groups.foldl (nearer (Candidate.offset S framing margins)) none).map fun (_, group) => group.id

end Nearest

/-! ## Free names -/

section Names

variable (H : Host)

/-- `GroupName::new`. -/
def GroupName.new (name : Text) : Result GroupName :=
  let name := trim name
  if hblank : name = [] then .error (.invalidInput "a group name is blank")
  else if hcontrol : ∀ c ∈ name, View.isControl c = false then .ok ⟨name, hblank, hcontrol⟩
  else .error (.invalidInput
    ("group name " ++ String.ofList (H.debug name) ++ " holds a control character"))

def GroupName.key (name : GroupName) : Text := H.lower (H.nfc (trim name.text))

def folderToken (name : GroupName) : Result Text := token H "group" name.text componentLimit

def takes (key folder : Text) (taken : GroupName) : Bool :=
  taken.key H = key || match folderToken H taken with
    | .ok token => nameKey H token = folder
    | .error _ => false

def free (names : List GroupName) (name : GroupName) : Result Bool := do
  let folder := nameKey H (← folderToken H name)
  .ok (!names.any (takes H (name.key H) folder))

/-- The first of the candidates from `n` on whose name and folder no group has, if it is among the
`tries` next. -/
def firstFree (names : List GroupName) (candidate : Nat → Text) :
    (tries n : Nat) → Result (Option GroupName)
  | 0, _ => .ok none
  | tries + 1, n => do
    let name ← GroupName.new H (candidate n)
    if ← free H names name then .ok (some name) else firstFree names candidate tries (n + 1)

def numberedName (rig : Text) (n : Nat) : Text := rig ++ " · Framing ".toList ++ decimal n

/-- The default names of a rig that has so many groups: its own for the first, then the numbered
ones. -/
def automaticNames (rig : Text) (rigGroups n : Nat) : Text :=
  if rigGroups = 0 then if n = 0 then rig else numberedName rig (n + 1)
  else numberedName rig (rigGroups + 1 + n)

def automaticName (tries : Nat) (names : List GroupName) (rig : Text) (rigGroups : Nat) :
    Result (Option GroupName) := firstFree H names (automaticNames rig rigGroups) tries 0

end Names

/-! ## Placing -/

section Placing

variable (H : Host) (S : Sky H.toPlatform) (margins : FramingMargins H.toPlatform)

def fits {P : Platform} (session : SessionToPlace P) (candidate : Candidate P) : Bool :=
  candidate.origin = .framing && candidate.rigId = session.rigId &&
    candidate.optics = session.optics

def joined {P : Platform} (S : Sky P) (margins : FramingMargins P)
    (candidates : List (Candidate P)) (session : SessionToPlace P) :
    Option (Uuid × SessionPlacement) :=
  match session.framing with
  | some framing =>
    (nearest S (candidates.filter (fits session)) framing margins).map (·, .framing)
  | none => (candidates.find? (fits session)).map fun group => (group.id, .framingUnknown)

def SessionToPlace.add {P : Platform} (session : SessionToPlace P)
    (place : Uuid × SessionPlacement) : SessionAdd :=
  ⟨session.sessionId, place.1, place.2, session.expected⟩

def SessionToPlace.group {P : Platform} (session : SessionToPlace P) (name : GroupName) :
    NewGroup P :=
  ⟨session.fresh, session.rigId, name, .framing, session.optics, session.framing⟩

def SessionToPlace.alone {P : Platform} (session : SessionToPlace P) : SessionPlacement :=
  if session.framing.isSome then .framing else .framingUnknown

/-- Place the sessions left, in order; `none` where a search tried so many names in vain. -/
def placeFrom (tries : Nat) (candidates : List (Candidate H.toPlatform)) (names : List GroupName) :
    List (SessionToPlace H.toPlatform) → Result (Option (PlacementPlan H.toPlatform))
  | [] => .ok (some ⟨[], []⟩)
  | session :: rest =>
    match joined S margins candidates session with
    | some place => do
      let plan ← placeFrom tries candidates names rest
      .ok (plan.map fun plan => { plan with adds := session.add place :: plan.adds })
    | none => do
      let rigGroups := candidates.countP (·.rigId = session.rigId)
      match ← automaticName H tries names session.rigName rigGroups with
      | none => .ok none
      | some name => do
        let group := session.group name
        let plan ← placeFrom tries (candidates ++ [.ofNew group]) (names ++ [name]) rest
        .ok (plan.map fun plan =>
          ⟨group :: plan.groups, session.add (group.id, session.alone) :: plan.adds⟩)

/-- Place the sessions into the framing groups among a Project's or new ones. -/
def placeSessions (tries : Nat) (groups : List (ProjectGroup H.toPlatform))
    (sessions : List (SessionToPlace H.toPlatform)) :
    Result (Option (PlacementPlan H.toPlatform)) :=
  placeFrom H S margins tries (groups.map .ofGroup) (groups.map (·.name)) sessions

end Placing

end PlateVault.Projects
