import PlateVault.Grouping.Framing

/-!
# Regrouping

One session candidate per capture key and, for lights, per framing. The catalog's standing sessions
keep their members; one whose members no longer share its key stands no longer.
-/

namespace PlateVault

variable {P : Platform} (S : Sky P)

structure Asset (P : Platform) where
  id : Uuid
  relativePath : NativePath
  effective : CaptureMetadata P

/-- A current session a regroup passes to the grouping beside the assets. -/
structure StandingSession (P : Platform) where
  key : Text
  assetIds : List Uuid
  framing : Option (SessionFraming P)

structure SessionCandidate (P : Platform) where
  key : Text
  assetIds : List Uuid
  provisional : List Text
  dateBasis : Option Text
  framing : Option (SessionFraming P)

def fileName (path : NativePath) : Text :=
  match path.relativePath with
  | .ok path => path.fileName.getD []
  | .error _ => []

def Frame.ofAsset (asset : Asset P) : Frame P where
  id := asset.id
  name := fileName asset.relativePath
  metadata := asset.effective

def Frame.key (frame : Frame P) : Text := (derive frame.metadata).key

/-- The standing sessions of `key` among its frames. A session with a member outside them stands no
longer. -/
def standingIn (key : Text) (frames : List (Frame P)) (standing : List (StandingSession P)) :
    List (Standing P) :=
  (standing.filter fun session => session.key = key).filterMap fun session => do
    let members ← session.assetIds.mapM fun id => frames.find? fun frame => frame.id = id
    some { members, framing := session.framing }

structure Bucket (P : Platform) where
  key : Text
  dateBasis : Option Text
  lights : Bool
  members : List (Frame P)

/-- The bucket of one key; its basis and kind are its first frame's. -/
def bucketOf (frames : List (Frame P)) (key : Text) : Bucket P :=
  let members := frames.filter fun frame => frame.key = key
  let first := members.head?.map fun frame => derive frame.metadata
  { key
    dateBasis := first.bind Capture.dateBasis
    lights := (first.map Capture.light).getD false
    members }

def buckets (frames : List (Frame P)) : List (Bucket P) :=
  (Ordered.ascending (frames.map Frame.key)).map (bucketOf frames)

/-- The session a split makes: its ids and notes as ordered sets. -/
def candidate (bucket : Bucket P) (split : Split P) : SessionCandidate P where
  key := bucket.key
  assetIds := Ordered.ascending (split.members.map Frame.id)
  provisional := Ordered.ascending (split.notes ++
    split.members.flatMap fun frame => (derive frame.metadata).provisional)
  dateBasis := bucket.dateBasis
  framing := split.framing

/-- The largest `u32`. -/
def u32Max : Nat := 2 ^ 32 - 1

/-- Sessions of one key are ordered by framing, then by their first asset. -/
def SessionCandidate.sortKey (session : SessionCandidate P) : Nat ×ₗ WithBot Uuid :=
  toLex ((session.framing.map SessionFraming.ordinal).getD u32Max,
    match session.assetIds.head? with
    | some id => (id : WithBot Uuid)
    | none => ⊥)

def Bucket.splits (bucket : Bucket P) (standing : List (StandingSession P))
    (margins : FramingMargins P) : List (Split P) :=
  if bucket.lights then
    split S bucket.members (standingIn bucket.key bucket.members standing) margins
  else [{ members := bucket.members, framing := none, notes := [] }]

def Bucket.sessions (bucket : Bucket P) (standing : List (StandingSession P))
    (margins : FramingMargins P) : List (SessionCandidate P) :=
  Ordered.sortBy SessionCandidate.sortKey ((bucket.splits S standing margins).map (candidate bucket))

def groupFrames (frames : List (Frame P)) (standing : List (StandingSession P))
    (margins : FramingMargins P) : List (SessionCandidate P) :=
  (buckets frames).flatMap fun bucket => bucket.sessions S standing margins

/-- Group assets into sessions around the catalog's standing sessions. -/
def regroupAssets (assets : List (Asset P)) (standing : List (StandingSession P))
    (margins : FramingMargins P) : List (SessionCandidate P) :=
  groupFrames S (assets.map Frame.ofAsset) standing margins

end PlateVault
