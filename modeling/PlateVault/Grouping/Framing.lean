import PlateVault.Base.Paths
import PlateVault.Grouping.Key
import PlateVault.Lib.Ordered
import Mathlib.Data.List.Lex
import Mathlib.Data.Char

/-!
# The framing split

The lights of one night and capture key form one session per framing. Frames are taken in capture
order; a frame joins the framing whose anchor lies nearest within that framing's split limits, and
otherwise anchors a new one. A session the catalog holds stands: it is seeded with its members, its
recorded anchor, its label and its own limits before any other frame is placed.

Where the code holds a frame by its index among the frames split, the model holds the frame; frames
are told apart by their ids. An ordinal is a `Nat`: it counts the framings of one key.
-/

namespace PlateVault

/-- The sky geometry grouping calls: points, their separation in degrees, angles. -/
structure Sky (P : Platform) where
  Equatorial : Type
  j2000 : (raDeg decDeg : P.F64) → Option Equatorial
  ra : Equatorial → P.F64
  dec : Equatorial → P.F64
  separation : Equatorial → Equatorial → P.F64
  /-- An angle normalized to `[0, 360)`, up to rounding. -/
  normalized : P.F64 → P.F64
  remEuclid : P.F64 → P.F64 → P.F64
  /-- The field of optics: focal length, pixel size and pixel counts, all positive. -/
  fromOptics : (focalMm pixelUm : P.F64) → (width height : Nat) → Option (P.F64 × P.F64)

def Sky.FiniteRa {P : Platform} (S : Sky P) : Prop :=
  ∀ raDeg decDeg point, S.j2000 raDeg decDeg = some point → P.isFinite (S.ra point) = true

structure SplitLimits (P : Platform) where
  maxCentreOffsetArcmin : P.F64
  maxRotationDeg : P.F64

structure FieldOfView (P : Platform) where
  widthDeg : P.F64
  heightDeg : P.F64

structure SessionFraming (P : Platform) where
  ordinal : Nat
  anchorAssetId : Uuid
  raDeg : P.F64
  decDeg : P.F64
  rotatorDeg : Option P.F64
  skyAngleDeg : Option P.F64
  field : Option (FieldOfView P)
  label : Option Text
  splitLimits : SplitLimits P

structure Frame (P : Platform) where
  id : Uuid
  name : Text
  metadata : CaptureMetadata P

section Evidence

variable {P : Platform} (S : Sky P)

structure Evidence where
  centre : Option S.Equatorial
  rotatorDeg : Option P.F64
  skyAngleDeg : Option P.F64
  field : Option (FieldOfView P)
  label : Option Text

def centre (raDeg decDeg : Option P.F64) : Option S.Equatorial := do
  S.j2000 (← raDeg) (← decDeg)

def angle (value : Option P.F64) : Option P.F64 := do
  let degrees := S.normalized (← value.filter P.isFinite)
  some (if P.le (P.literal 360) degrees then P.literal 0 else degrees)

/-- The header field; header pixel sizes stay at 1×1 over the binned pixel counts. -/
def field (focalMm pixelUm : Option P.F64) (width height : Option Nat) :
    Option (FieldOfView P) := do
  let positive (value : Option P.F64) : Option P.F64 :=
    value.filter fun value => P.isFinite value && P.lt (P.literal 0) value
  let pixel ← positive pixelUm
  let focal ← positive focalMm
  let width ← width.filter (0 < ·)
  let height ← height.filter (0 < ·)
  let (widthDeg, heightDeg) ← S.fromOptics focal pixel width height
  some { widthDeg, heightDeg }

/-- The user's framing label, trimmed; a blank one is none. -/
def framingLabel (meta_ : CaptureMetadata P) : Option Text :=
  (meta_.framingLabel.map trim).filter fun label => !label.isEmpty

def Evidence.of (frame : Frame P) : Evidence S where
  centre := (PlateVault.centre S frame.metadata.wcsRaDeg frame.metadata.wcsDecDeg).or
    (PlateVault.centre S frame.metadata.raDeg frame.metadata.decDeg)
  rotatorDeg := angle S frame.metadata.mechanicalRotationDeg
  skyAngleDeg := angle S frame.metadata.skyRotationDeg
  field := PlateVault.field S frame.metadata.focalLengthMm frame.metadata.pixelSizeUm frame.metadata.width
    frame.metadata.height
  label := framingLabel frame.metadata

/-- The smaller difference of two angles on a circle of `period` degrees. -/
def circularDifference (left right period : P.F64) : P.F64 :=
  let difference := S.remEuclid (P.sub left right) period
  min difference (P.sub period difference)

/-- How far a frame lies from an anchor within its limits. -/
structure Offset (P : Platform) where
  separation : P.F64
  rotation : Option P.F64

/-- Nearer offsets have smaller keys: by separation, then by rotation, an unknown one last. -/
def Offset.key (offset : Offset P) : P.F64 ×ₗ WithTop P.F64 :=
  toLex (offset.separation, match offset.rotation with
    | some rotation => (rotation : WithTop P.F64)
    | none => ⊤)

def Offset.nearerThan (offset other : Offset P) : Bool := offset.key < other.key

/-- The rotation difference of a frame from its anchor: by ROTATANG when both record it, else by the
sky angle modulo 180°. -/
def rotationOffset (anchor frame : Evidence S) : Option P.F64 :=
  match anchor.rotatorDeg, frame.rotatorDeg with
  | some anchor, some other => some (circularDifference S anchor other (P.literal 360))
  | _, _ =>
    match anchor.skyAngleDeg, frame.skyAngleDeg with
    | some anchor, some other => some (circularDifference S anchor other (P.literal 180))
    | _, _ => none

/-- How far `frame` lies from this anchor when it lies within the split limits. -/
def Evidence.offset (anchor frame : Evidence S) (limits : SplitLimits P) : Option (Offset P) := do
  let separation := S.separation (← anchor.centre) (← frame.centre)
  if P.lt limits.maxCentreOffsetArcmin (P.mul separation (P.literal 60)) then none
  else
    let rotation := rotationOffset S anchor frame
    if rotation.any fun difference => P.lt limits.maxRotationDeg difference then none
    else some { separation, rotation }

end Evidence

/-! ## Capture order -/

section Order

variable {P : Platform}

/-- The key of capture order: `DATE-OBS`, frames without one last, then file name, then id. -/
def captureKey (frame : Frame P) : WithTop P.DateTime ×ₗ Text ×ₗ Uuid :=
  toLex (match captureInstant frame.metadata with
    | some instant => (instant : WithTop P.DateTime)
    | none => ⊤, toLex (frame.name, frame.id))

def captureOrder (frames : List (Frame P)) : List (Frame P) := Ordered.sortBy captureKey frames

def rank (order : List (Frame P)) (frame : Frame P) : Nat :=
  order.findIdx fun other => other.id = frame.id

end Order

/-! ## Framings -/

section Split

variable {P : Platform} (S : Sky P)

structure FramingMargins (P : Platform) where
  split : SplitLimits P

structure Framing (P : Platform) where
  label : Option Text
  anchor : Option (Frame P)
  members : List (Frame P)
  limits : SplitLimits P

/-- A session the catalog holds among the frames split. -/
structure Standing (P : Platform) where
  members : List (Frame P)
  framing : Option (SessionFraming P)

/-- The frames of one session with the framing and notes it records. -/
structure Split (P : Platform) where
  members : List (Frame P)
  framing : Option (SessionFraming P)
  notes : List Text

/-- The framings so far, and the lights with neither pointing nor a label. -/
structure Assignment (P : Platform) where
  framings : List (Framing P)
  unframed : List (Frame P)

def noPointing : Text :=
  "framing: no pointing (RA/DEC or a plate solve) recorded; these lights stay in one session".toList

def rotationUnknown : Text :=
  ("framing: the anchor frame records no rotation (ROTATANG or a sky angle); its rotation limit " ++
    "was not applied").toList

def pointed (frame : Frame P) : Bool := (Evidence.of S frame).centre.isSome

/-- The frame a session records as its anchor, while it is a member with pointing. -/
def recordedAnchor (session : Standing P) : Option (Frame P) :=
  (session.framing.bind fun framing =>
    session.members.find? fun member => member.id = framing.anchorAssetId).filter (pointed S)

/-- A standing session as a framing; `none` for lights with neither pointing nor a label. -/
def seeded (rank : Frame P → Nat) (margins : FramingMargins P) (session : Standing P) :
    Option (Framing P) :=
  let anchor := (recordedAnchor S session).or ((session.members.filter (pointed S)).argmin rank)
  let label := (session.framing.bind SessionFraming.label).or
    (session.members.findSome? fun member => framingLabel member.metadata)
  if anchor.isNone && label.isNone then none
  else some {
    label
    anchor
    members := session.members
    limits := (session.framing.map SessionFraming.splitLimits).getD margins.split }

def seedAll (rank : Frame P → Nat) (margins : FramingMargins P) (standing : List (Standing P)) :
    Assignment P :=
  standing.foldl (fun state session =>
    match seeded S rank margins session with
    | some framing => { state with framings := state.framings ++ [framing] }
    | none => { state with unframed := state.unframed ++ session.members })
    { framings := [], unframed := [] }

/-- A framing's anchor as the nearest framing is chosen: how far the frame lies from it, within its
own limits, and the anchor's rank. -/
def candidateOffset (rank : Frame P → Nat) (frame : Frame P) (framing : Framing P) :
    Option (Offset P × Nat) := do
  let anchor ← framing.anchor
  let offset ← (Evidence.of S anchor).offset S (Evidence.of S frame) framing.limits
  some (offset, rank anchor)

/-- One turn of the search: an offset replaces the best one where it is nearer, or as near with an
earlier anchor. -/
def nearer (best : Option (Offset P × Nat × Nat)) (found : Offset P × Nat × Nat) :
    Option (Offset P × Nat × Nat) :=
  match best with
  | none => some found
  | some (nearest, earliest, index) =>
    let (offset, anchor, _) := found
    if offset.nearerThan nearest || (!nearest.nearerThan offset && anchor < earliest) then
      some found
    else some (nearest, earliest, index)

def searchStep (rank : Frame P → Nat) (frame : Frame P) (best : Option (Offset P × Nat × Nat))
    (entry : Framing P × Nat) : Option (Offset P × Nat × Nat) :=
  match candidateOffset S rank frame entry.1 with
  | some (offset, anchor) => nearer best (offset, anchor, entry.2)
  | none => best

/-- The position of the framing whose anchor lies nearest within its own limits. -/
def nearest (rank : Frame P → Nat) (framings : List (Framing P)) (frame : Frame P) : Option Nat :=
  (framings.zipIdx.foldl (searchStep S rank frame) none).map fun found => found.2.2

def labelled (framings : List (Framing P)) (label : Text) : Option Nat :=
  framings.findIdx? fun framing => framing.label = some label

/-- A labelled frame joins its label's framing, and anchors it where it is its first with
pointing. -/
def Framing.joinLabelled (frame : Frame P) (framing : Framing P) : Framing P :=
  { framing with
    members := framing.members ++ [frame]
    anchor := framing.anchor.or (if pointed S frame then some frame else none) }

def Framing.join (frame : Frame P) (framing : Framing P) : Framing P :=
  { framing with members := framing.members ++ [frame] }

def place (rank : Frame P → Nat) (margins : FramingMargins P) (state : Assignment P)
    (frame : Frame P) : Assignment P :=
  match framingLabel frame.metadata with
  | some label =>
    match labelled state.framings label with
    | some index =>
      { state with framings := state.framings.modify index (Framing.joinLabelled S frame) }
    | none =>
      { state with
        framings := state.framings ++ [{
          label := some label
          anchor := if pointed S frame then some frame else none
          members := [frame]
          limits := margins.split }] }
  | none =>
    if pointed S frame then
      match nearest S rank state.framings frame with
      | some index => { state with framings := state.framings.modify index (Framing.join frame) }
      | none =>
        { state with
          framings := state.framings ++ [{
            label := none
            anchor := some frame
            members := [frame]
            limits := margins.split }] }
    else { state with unframed := state.unframed ++ [frame] }

def sessionFraming (anchor : Frame P) (ordinal : Nat) (framing : Framing P) :
    Option (SessionFraming P) := do
  let evidence := Evidence.of S anchor
  let centre ← evidence.centre
  let raDeg ← angle S (some (S.ra centre))
  some {
    ordinal
    anchorAssetId := anchor.id
    raDeg
    decDeg := S.dec centre
    rotatorDeg := evidence.rotatorDeg
    skyAngleDeg := evidence.skyAngleDeg
    field := evidence.field
    label := framing.label
    splitLimits := framing.limits }

def anchorRanks (rank : Frame P → Nat) (framings : List (Framing P)) : List Nat :=
  Ordered.sortBy id (framings.filterMap fun framing => framing.anchor.map rank)

/-- A framing with its record, numbered among the anchors. -/
def finishOne (rank : Frame P → Nat) (anchors : List Nat) (framing : Framing P) : Split P :=
  let record := framing.anchor.bind fun anchor =>
    (anchors.idxOf? (rank anchor)).bind fun index => sessionFraming S anchor (index + 1) framing
  let rotation := match framing.anchor with
    | some anchor =>
      if (Evidence.of S anchor).rotatorDeg.isNone && (Evidence.of S anchor).skyAngleDeg.isNone then
        [rotationUnknown]
      else []
    | none => []
  { members := framing.members
    framing := record
    notes := rotation ++ if record.isNone then [noPointing] else [] }

/-- Number the framings in the capture order of their anchors and record each. -/
def finish (rank : Frame P → Nat) (framings : List (Framing P)) : List (Split P) :=
  framings.map (finishOne S rank (anchorRanks rank framings))

/-- Every frame placed: the standing sessions, then the others in capture order. -/
def assigned (order : List (Frame P)) (standing : List (Standing P)) (margins : FramingMargins P) :
    Assignment P :=
  let placed := standing.flatMap Standing.members
  (order.filter fun frame => !placed.any fun member => member.id = frame.id).foldl
    (place S (rank order) margins) (seedAll S (rank order) margins standing)

/-- The splits of an assignment: its framings, then the unframed lights if there are any. -/
def Assignment.splits (rank : Frame P → Nat) (state : Assignment P) : List (Split P) :=
  finish S rank state.framings ++
    if state.unframed.isEmpty then []
    else [{ members := state.unframed, framing := none, notes := [noPointing] }]

/-- Split the lights of one night and capture key into sessions by framing. -/
def split (frames : List (Frame P)) (standing : List (Standing P)) (margins : FramingMargins P) :
    List (Split P) :=
  let order := captureOrder frames
  (assigned S order standing margins).splits S (rank order)

end Split

end PlateVault
