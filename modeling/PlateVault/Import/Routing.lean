import Mathlib.Logic.Function.Basic
import PlateVault.Import.Items
import PlateVault.Import.Paths

/-!
# Routing a preview

Every item in order: held, or typed and remembered as the first copy of its bytes; then each typed
one gets its location, its templated path and its claim on it.
-/

namespace PlateVault.Import

open Naming

variable {P : Platform}

/-! ## What routing reads -/

structure RigFilter where
  matchValues : List Text
  deriving DecidableEq, Repr

structure TargetCandidate where
  id : Uuid
  designation : Text
  deriving DecidableEq, Repr

inductive Occupant
  | vacant
  | same
  | different
  deriving DecidableEq, Repr

/-- The answers of the catalog, the settings and the disk while a preview is routed. An item's own
answers are told apart by its number, so no two need agree; the sessions' Targets are any assignment
of the items to place. -/
structure Surroundings (P : Platform) where
  unicode : Unicode
  listLocations : Result (List Location)
  locations_nodup : ∀ locations, listLocations = .ok locations → (locations.map (·.id)).Nodup
  writability : Location → Writability
  importedFromSource : Result (Text → Option Uuid)
  contentCandidates : (seq : Nat) → (sha256 : Text) → (sizeBytes : Nat) → (dateObs : Option Text) →
    Result (List (Uuid × Option Text))
  verifyDigest : (seq : Nat) → (asset : Uuid) → Result Text
  confirmedRigsFor : (seq : Nat) → (camera : Text) → (telescope : Option Text) →
    Result (List ImportRig)
  rigFilters : (seq : Nat) → (equipment : Uuid) → Result (List RigFilter)
  sessionTargets : List (ImportItemRecord P) → (placed : Nat → Bool) →
    Result (Nat → Option TargetCandidate)
  templateOf : (seq : Nat) → NamingFrameType → Result Text
  occupant : (seq : Nat) → PathBuf → (sizeBytes : Nat) → (sha256 : Text) → Occupant

variable (S : Surroundings P)

def comparisonKey (u : Unicode) (value : Text) : Text := u.toLowercase (u.nfc (trim value))

def RigFilter.matches (u : Unicode) (filter : RigFilter) (value : Text) : Bool :=
  let key := comparisonKey u value
  !key.isEmpty && filter.matchValues.any (comparisonKey u · = key)

abbrev RigKey := Text × Option Text

structure RouteContext where
  locations : List Location
  writable : Uuid → Option Writability
  imported : Text → Option Uuid
  choices : List ImportChoice
  /-- The first item of each SHA-256 in this import. -/
  firstCopy : Text → Option (Nat × NativePath)
  /-- Destinations claimed by earlier items of this import. -/
  claimed : PathBuf → Option Nat
  rigs : RigKey → Option (Option (ImportRig × List RigFilter))

/-! ## Copies and rigs -/

inductive IndexedCopy
  | none
  | found (asset : Uuid)
  | unproven (asset : Uuid) (detail : String)
  deriving DecidableEq, Repr

/-- The candidates in order: a recorded digest decides, and one without is hashed. -/
def provenCopy (seq : Nat) (sha256 : Text) :
    List (Uuid × Option Text) → Option (Uuid × String) → IndexedCopy
  | [], unproven => match unproven with
    | none => .none
    | some (asset, detail) => .unproven asset detail
  | (asset, some digest) :: candidates, unproven =>
    if digest = sha256 then .found asset else provenCopy seq sha256 candidates unproven
  | (asset, none) :: candidates, unproven => match S.verifyDigest seq asset with
    | .ok digest =>
      if digest = sha256 then .found asset else provenCopy seq sha256 candidates unproven
    | .error error =>
      provenCopy seq sha256 candidates (unproven.or (some (asset, error.display)))

def indexedCopy (seq : Nat) (sha256 : Text) (sizeBytes : Nat) (meta_ : CaptureMetadata P) :
    Result IndexedCopy := do
  let candidates ← S.contentCandidates seq sha256 sizeBytes meta_.dateObs
  return provenCopy S seq sha256 candidates none

/-- The rig where exactly one is confirmed, with its filters. -/
def onlyRig (seq : Nat) : List ImportRig → Result (Option (ImportRig × List RigFilter))
  | [only] => do
    let filters ← S.rigFilters seq only.equipmentId
    return some (only, filters)
  | _ => .ok none

/-- The one rig confirmed for a camera and telescope, read once. -/
def confirmedRig (seq : Nat) (key : RigKey) (context : RouteContext) :
    Result (Option (ImportRig × List RigFilter) × RouteContext) :=
  match context.rigs key with
  | some rig => .ok (rig, context)
  | none => do
    let confirmed ← S.confirmedRigsFor seq key.1 key.2
    let rig ← onlyRig S seq confirmed
    return (rig, { context with rigs := Function.update context.rigs key (some rig) })

/-- The light's confirmed rig, and its FILTER value when no filter on that rig matches it. -/
def lightRig (seq : Nat) (meta_ : CaptureMetadata P) (context : RouteContext) :
    Result ((Option ImportRig × Option UnknownFilter) × RouteContext) :=
  match trimmed meta_.camera with
  | none => .ok ((none, none), context)
  | some camera => do
    let (found, context) ← confirmedRig S seq (camera, trimmed meta_.telescope) context
    match found with
    | none => return ((none, none), context)
    | some (rig, filters) =>
      let unknown := (trimmed meta_.filter).filter fun value =>
        !filters.any fun filter => filter.matches S.unicode value
      return ((some rig, unknown.map fun value =>
        { equipmentId := rig.equipmentId, rigName := rig.name, value }), context)

/-- A copy of these bytes the library or this import already has. A digest nobody has is remembered
as this item's. -/
def existingCopy (item : ImportItem) (sha256 : Text) (meta_ : CaptureMetadata P)
    (context : RouteContext) : Result (Option Hold × RouteContext) :=
  match context.imported sha256 with
  | some operationId => .ok (some (.duplicate (.sameSource operationId)), context)
  | none => do
    match ← indexedCopy S item.seq sha256 item.sizeBytes meta_ with
    | .found asset => return (some (.duplicate (.indexedFrame asset)), context)
    | .unproven asset detail => return (some (.block (.duplicateUnproven asset detail)), context)
    | .none => match context.firstCopy sha256 with
      | some (seq, sourcePath) =>
        return (some (.duplicate (.sameImport seq sourcePath)), context)
      | none =>
        let first := some (item.seq, item.sourcePath)
        return (none,
          { context with firstCopy := Function.update context.firstCopy sha256 first })

/-! ## Items -/

/-- Hold the item, or return the frame type it is placed as. -/
def routeItem (record : ImportItemRecord P) (context : RouteContext) :
    Result ((ImportItemRecord P × Option NamingFrameType) × RouteContext) :=
  let item := record.item.cleared
  if item.phase ≠ .settling then .ok (({ record with item }, none), context)
  else match record.evidence, record.metadata with
    | some evidence, some meta_ => match evidence.sha256 with
      | none => .ok (({ record with item }, none), context)
      | some sha256 => do
        let (hold, context) ← existingCopy S item sha256 meta_ context
        match hold with
        | some hold => return (({ record with item := hold.apply item }, none), context)
        | none => match item.frameType with
          | none =>
            return (({ record with item := { item with phase := .unclassified } }, none), context)
          | some frameType =>
            if frameType = .light then do
              let ((rig, unknownFilter), context) ← lightRig S item.seq meta_ context
              return (({ record with item := { item with rig, unknownFilter } }, some frameType),
                context)
            else return (({ record with item }, some frameType), context)
    | _, _ => .ok (({ record with item }, none), context)

def resolveNaming (seq : Nat) (frameType : NamingFrameType) (metadata : NamingMetadata) :
    Result NamingResolution := do
  let template ← S.templateOf seq frameType
  checkTemplate S.unicode frameType template
  resolveTemplate S.unicode frameType template metadata

def relativeDestination (relativePath : Text) (name : Text) : PathBuf :=
  let segments := (relativePath.splitOn '/').filter (!·.isEmpty)
  let start : PathBuf := { absolute := false, parts := [] }
  let folder := segments.foldl (fun path segment => path.join (.ofName (utf8 segment))) start
  folder.join (.ofName name)

def missingEvidence (item : ImportItem) : LibraryError :=
  .persistenceFailure ("approved import item " ++ String.ofList (decimal item.seq) ++
    " has no reviewed evidence")

/-- Route a typed item to its role's location and templated path, held when the location is missing,
unchosen or unwritable, the template refuses it, or its destination is taken. -/
def place (record : ImportItemRecord P) (frameType : NamingFrameType) (target : Option Text)
    (context : RouteContext) : Result (Option Hold × ImportItemRecord P × RouteContext) :=
  match record.evidence, record.metadata with
  | some evidence, some meta_ => do
    let sha256 ← Result.orElse evidence.sha256 (missingEvidence record.item)
    let naming := namingMetadata meta_ frameType target
    let role := roleOf frameType
    let item := { record.item with role := some role }
    match chosenLocation context.locations context.choices role with
    | .error block => return (some (.block block), { record with item }, context)
    | .ok location =>
      let item := { item with destinationLocationId := some location.id }
      match context.writable location.id with
      | some (.notWritable detail) =>
        return (some (.block (.destinationUnwritable location.id detail)), { record with item },
          context)
      | _ => match resolveNaming S item.seq frameType naming with
        | .error (.invalidInput detail) =>
          return (some (.block (.naming detail)), { record with item }, context)
        | .error error => .error error
        | .ok resolution => do
          let source ← item.sourcePath.toPathBuf
          let name ← Result.orElse source.fileName 
            (.invalidInput (String.ofList source.payload ++ " names no file"))
          let relative := relativeDestination resolution.relativePath name
          let item := { item with
            destinationPath := some (.fromPath relative)
            fallbacks := resolution.fallbacks }
          let root ← location.path.toPathBuf
          let destination := root.join relative
          match context.claimed destination with
          | some seq => return (some (.block (.collidesWithItem seq)), { record with item }, context)
          | none => match S.occupant item.seq destination evidence.fingerprint.sizeBytes sha256 with
            | .vacant =>
              let claimed := Function.update context.claimed destination (some item.seq)
              return (none, { record with item }, { context with claimed })
            | .same =>
              return (some (.duplicate (.atDestination (.fromPath destination))),
                { record with item }, context)
            | .different =>
              return (some (.block (.collision (.fromPath destination))), { record with item },
                context)
  | _, _ => .error (missingEvidence record.item)

/-! ## The whole preview -/

def routeItems : List (ImportItemRecord P) → RouteContext →
    Result (List (ImportItemRecord P × Option NamingFrameType) × RouteContext)
  | [], context => .ok ([], context)
  | record :: records, context => do
    let (routed, context) ← routeItem S record context
    let (rest, context) ← routeItems records context
    return (routed :: rest, context)

def placeItem (targetOf : Nat → Option TargetCandidate)
    (routed : ImportItemRecord P × Option NamingFrameType) (context : RouteContext) :
    Result (ImportItemRecord P × RouteContext) :=
  match routed with
  | (record, none) => .ok (record, context)
  | (record, some frameType) => do
    let target := targetOf record.item.seq
    let record := { record with item := { record.item with targetId := target.map (·.id) } }
    let (hold, record, context) ← place S record frameType (target.map (·.designation)) context
    match hold with
    | some hold => return ({ record with item := hold.apply record.item }, context)
    | none => return ({ record with item := { record.item with phase := .ready } }, context)

def placeItems (targetOf : Nat → Option TargetCandidate) :
    List (ImportItemRecord P × Option NamingFrameType) → RouteContext →
      Result (List (ImportItemRecord P) × RouteContext)
  | [], context => .ok ([], context)
  | routed :: more, context => do
    let (record, context) ← placeItem S targetOf routed context
    let (rest, context) ← placeItems targetOf more context
    return (record :: rest, context)

def activeLocations : Result (List Location) := do
  let locations ← S.listLocations
  return locations.filter fun location =>
    location.lifecycle = .active && location.role ≠ .results

def routeContext (locations : List Location) (imported : Text → Option Uuid)
    (choices : List ImportChoice) : RouteContext where
  locations
  writable := fun id => ((locations.filter (·.id = id)).getLast?).map S.writability
  imported
  choices
  firstCopy := fun _ => none
  claimed := fun _ => none
  rigs := fun _ => none

def route (choices : List ImportChoice) (items : List (ImportItemRecord P)) :
    Result (List (ImportItemRecord P)) := do
  let locations ← activeLocations S
  let imported ← S.importedFromSource
  let (routed, context) ← routeItems S items (routeContext S locations imported choices)
  let placed := fun seq => routed.any fun found => found.2.isSome && found.1.item.seq = seq
  let targetOf ← S.sessionTargets (routed.map (·.1)) placed
  let (items, _) ← placeItems S targetOf routed context
  return items

end PlateVault.Import
