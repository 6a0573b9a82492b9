import PlateVault.Grouping.Regroup
import PlateVault.Import.Items

/-!
# Import review

The sessions an import's lights will form, grouped as intake will group them. A merge gives the
lights of the chosen sessions one framing label, and a re-split takes it off again.
-/

namespace PlateVault.Import

open Naming

variable {P : Platform}

inductive ImportTargetChoice
  | unclassified
  | target (targetId : Uuid)
  deriving DecidableEq, Repr

structure ReviewItem (P : Platform) extends ImportItemRecord P where
  framingLabel : Option Text
  targetChoice : Option ImportTargetChoice

def imageTypeText : NamingFrameType → Text
  | .light => "Light".toList
  | .flat => "Flat".toList
  | .dark => "Dark".toList
  | .bias => "Bias".toList
  | .masterFlat => "Master Flat".toList
  | .masterDark => "Master Dark".toList
  | .masterBias => "Master Bias".toList

/-- `ImportItemPhase::imported`. -/
def ImportItemPhase.imported (phase : ImportItemPhase) : Bool :=
  phase = .landed || phase = .copied || phase = .moved || phase = .sourceKept

/-- The phases of a light that is, or once started will be, imported. -/
def imports (phase : ImportItemPhase) : Bool :=
  phase = .ready || phase = .pending || phase.imported

def importedLight (record : ReviewItem P) : Bool := imports record.item.phase

/-- A light this import brings in, as intake will read it once indexed. -/
structure Light (P : Platform) where
  seq : Nat
  name : Text
  metadata : CaptureMetadata P
  choice : Option ImportTargetChoice

def light (isIncluded : ReviewItem P → Bool) (record : ReviewItem P) : Option (Light P) :=
  if record.item.frameType = some .light && isIncluded record then
    record.metadata.map fun metadata => {
      seq := record.item.seq
      name := fileName record.item.relativePath
      metadata := { metadata with
        imageType := (record.item.userType.map imageTypeText).or metadata.imageType
        framingLabel := record.framingLabel }
      choice := record.targetChoice }
  else none

def lights (items : List (ReviewItem P)) (isIncluded : ReviewItem P → Bool) : List (Light P) :=
  items.filterMap (light isIncluded)

/-- `Uuid::from_u128` of a `u32`. -/
def frameId (seq : Nat) : Uuid := Fin.ofNat _ seq

def Light.frame (light : Light P) : Frame P where
  id := frameId light.seq
  name := light.name
  metadata := light.metadata

/-- A session of the review; `lead` is the light its object, filter, exposure and night are read
from. -/
structure ImportSession where
  key : Text
  items : List Nat
  framing : Option Nat
  merged : Bool
  lead : Nat
  deriving DecidableEq, Repr

/-- A session the lights form, with what decides its Target. -/
structure Formed (P : Platform) where
  session : ImportSession
  frames : List (CaptureMetadata P)
  choice : Option ImportTargetChoice

def byId (lights : List (Light P)) (id : Uuid) : Option (Light P) :=
  lights.find? fun light => frameId light.seq = id

/-- The session of a candidate, read from its anchor, or else from its first light. -/
def formed (lights : List (Light P)) (candidate : SessionCandidate P) : Option (Formed P) :=
  let members := candidate.assetIds.filterMap (byId lights)
  let anchor := candidate.framing.bind fun framing => byId lights framing.anchorAssetId
  (anchor.or members.head?).map fun lead => {
    session := {
      key := candidate.key
      items := members.map Light.seq
      framing := candidate.framing.map SessionFraming.ordinal
      merged := members.any fun light => light.metadata.framingLabel.isSome
      lead := lead.seq }
    frames := members.map Light.metadata
    choice := members.findSome? Light.choice }

/-- The sessions the included lights form within `margins`, ordered as intake orders them. -/
def sessions (S : Sky P) (items : List (ReviewItem P)) (margins : FramingMargins P)
    (isIncluded : ReviewItem P → Bool) : List (Formed P) :=
  let lights := lights items isIncluded
  (groupFrames S (lights.map Light.frame) [] margins).filterMap (formed lights)

/-- The sessions holding `seqs`, each once; sessions are told apart by their lights. -/
def chosenFrom (sessions : List (Formed P)) (known : List ImportSession) :
    List Nat → Result (List ImportSession)
  | [] => .ok known
  | seq :: seqs => do
    let found ← Result.orElse (sessions.find? fun formed => formed.session.items.contains seq)
      (.invalidInput s!"item {seq} is in no session of the import's lights")
    chosenFrom sessions
      (if known.contains found.session then known else known ++ [found.session]) seqs

def chosen (sessions : List (Formed P)) (seqs : List Nat) : Result (List ImportSession) :=
  chosenFrom sessions [] seqs

def membersOf (sessions : List ImportSession) : List Nat := sessions.flatMap ImportSession.items

def labelItems (items : List (ReviewItem P)) (members : List Nat) (label : Option Text) :
    List (ReviewItem P) :=
  items.map fun record =>
    if members.contains record.item.seq then { record with framingLabel := label } else record

/-- Merge the sessions holding `seqs` into one under `label`. Only sessions that differ in framing
alone merge. -/
def merge (S : Sky P) (items : List (ReviewItem P)) (seqs : List Nat) (margins : FramingMargins P)
    (label : Text) : Result (List (ReviewItem P)) := do
  let chosen ← chosen (sessions S items margins importedLight) seqs
  match chosen with
  | [] => .error (.invalidInput "choose sessions to merge")
  | first :: rest =>
    Result.require (!rest.isEmpty) (.invalidInput "a merge needs two or more sessions")
    Result.require (rest.all fun session => session.key = first.key)
      (.invalidInput ("only sessions that differ in framing merge; night, filter, exposure and " ++
        "equipment keep sessions apart"))
    return labelItems items (membersOf chosen) (some label)

/-- Re-split the merged session holding `seq`. -/
def resplit (S : Sky P) (items : List (ReviewItem P)) (seq : Nat) (margins : FramingMargins P) :
    Result (List (ReviewItem P)) := do
  let chosen ← chosen (sessions S items margins importedLight) [seq]
  Result.require (chosen.all ImportSession.merged)
    (.invalidInput s!"the session holding item {seq} was not merged, so it has nothing to re-split")
  return labelItems items (membersOf chosen) none

def mergeLabel (id : Uuid) : Text := id.hyphenated.toList

end PlateVault.Import
