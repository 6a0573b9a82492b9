import PlateVault.Lib.Table
import PlateVault.Output.Records

/-!
# Master offers

A calibration master a tool generated in a Project's `Processing/` is offered once to the calibration
library: a folder watcher offers it, the user hides or restores the offer, and the adoption of a
master marks the offers of its bytes. An offer's columns are bound from its record by every write,
so a row is its record.
-/

namespace PlateVault.Offers

open Output (ProjectLifecycle relativeParts)
open View (InputKind requireSha256)

/-! ## Offers -/

inductive MasterBasis
  | headerStackCount
  | headerImagetyp
  | nameOnly
  deriving DecidableEq, Repr

structure MasterEvidence where
  basis : MasterBasis
  stackCount : Option Nat
  detector : Text
  deriving DecidableEq, Repr

/-- A calibration file's kind and, where it is a master, the evidence for that. -/
structure Classification where
  kind : InputKind
  master : Option MasterEvidence
  deriving DecidableEq, Repr

inductive MasterOfferState
  | offered
  | dismissed
  | adopted
  deriving DecidableEq, Repr

structure ProcessingMasterOffer where
  id : Uuid
  projectId : Uuid
  /-- Relative to the Project's `Processing/`. -/
  path : Text
  sha256 : Text
  classification : Classification
  state : MasterOfferState
  offeredAt : Text
  decidedAt : Option Text
  deriving DecidableEq, Repr

namespace ProcessingMasterOffer

def validate (offer : ProcessingMasterOffer) : Result Unit := do
  let _ ← relativeParts "a Processing path" offer.path
  requireSha256 "an offered master's digest" offer.sha256
  Result.require offer.classification.master.isSome
    (.invalidInput (String.ofList offer.path ++ " is not a master"))
  Result.require (decide (offer.state = .offered) = offer.decidedAt.isNone)
    (.invalidInput ("offer " ++ offer.id.hyphenated ++ ": decided exactly once answered"))

/-- The offer with its answer taken from another record of it. -/
def answered (offer answer : ProcessingMasterOffer) : ProcessingMasterOffer :=
  { offer with state := answer.state, decidedAt := answer.decidedAt }

def place (offer : ProcessingMasterOffer) : Uuid × Text := (offer.projectId, offer.sha256)

end ProcessingMasterOffer

/-! ## Masters and their adoption -/

inductive ReviewState
  | open
  | adopted
  deriving DecidableEq, Repr

structure ReviewedSource where
  assetId : Option Uuid
  sha256 : Text
  deriving DecidableEq, Repr

structure AdoptionReview where
  id : Uuid
  revision : Nat
  state : ReviewState
  source : ReviewedSource
  deriving DecidableEq, Repr

/-- An `adopted_masters` row. -/
structure MasterRow where
  id : Uuid
  locationId : Uuid
  pathKey : Text
  contentSha256 : Text
  reviewId : Uuid
  sourceAssetId : Option Uuid
  adoptedAt : Text
  deriving DecidableEq, Repr

structure AdoptedMaster where
  id : Uuid
  locationId : Uuid
  relativePath : Text
  adoptedAt : Text
  deriving DecidableEq, Repr

inductive AdoptionState
  | running
  | completed
  | failed
  | interrupted
  deriving DecidableEq, Repr

structure AdoptionOperation where
  id : Uuid
  reviewId : Uuid
  state : AdoptionState
  finishedAt : Option Text
  masterId : Option Uuid
  deriving DecidableEq, Repr

/-! ## The catalog -/

structure Surroundings where
  lifecycle : Uuid → Option ProjectLifecycle
  reviews : List AdoptionReview
  operations : List AdoptionOperation

structure Catalog extends Surroundings where
  offers : Indexed Uuid (Uuid × Text) ProcessingMasterOffer ProcessingMasterOffer.id
    ProcessingMasterOffer.place
  masters : List MasterRow

def Catalog.new (surroundings : Surroundings) : Catalog := ⟨surroundings, Indexed.empty, []⟩

namespace Catalog

variable (c : Catalog)

def projectLifecycle (projectId : Uuid) : Result ProjectLifecycle :=
  Result.orElse (c.lifecycle projectId) (.notFound ("project " ++ projectId.hyphenated))

def requireOpen (projectId : Uuid) : Result Unit := do
  let lifecycle ← c.projectLifecycle projectId
  Result.require (lifecycle = .open)
    (.invalidInput ("a " ++ lifecycle.display ++ " Project's Output is read-only"))

def loadOffer (offerId : Uuid) : Result ProcessingMasterOffer :=
  Result.orElse (c.offers.find? offerId) (.notFound ("master offer " ++ offerId.hyphenated))

def writeOffer (offer : ProcessingMasterOffer) : Result Catalog := do
  offer.validate
  return { c with
    offers := c.offers.update (fun row => row.id = offer.id) (·.answered offer) (fun _ => rfl)
      fun _ => rfl }

/-! ## Offering, hiding and restoring

A call that returns its error after its last write commits what it wrote; one that stops at an error
is rolled back. -/

/-- Offered when the Project has never offered its digest, whatever path a rerun wrote it to. -/
def offerProcessingMaster (id : Uuid) (now : Text) (projectId : Uuid) (path sha256 : Text)
    (classification : Classification) :
    Result (Catalog × Result (Option ProcessingMasterOffer)) := do
  let offer : ProcessingMasterOffer :=
    { id, projectId, path, sha256, classification, state := .offered, offeredAt := now,
      decidedAt := none }
  offer.validate
  c.requireOpen projectId
  if c.offers.rows.any fun row => row.place = offer.place then
    return (c, .ok none)
  else
    let offers ← Result.orElse (c.offers.insert? offer)
      (.persistenceFailure "UNIQUE constraint failed: processing_master_offers.id")
    return ({ c with offers }, .ok (some offer))

def requireUnchanged (offer : ProcessingMasterOffer) (expected : Text) : Result Unit :=
  Result.require (offer.sha256 = expected)
    (.invalidInput ("offer " ++ offer.id.hyphenated ++ " changed; refresh the Output step"))

def wasAdopted (offerId : Uuid) : LibraryError :=
  .invalidInput ("offer " ++ offerId.hyphenated ++ " was adopted into the calibration library")

def dismissProcessingMaster (now : Text) (offerId : Uuid) (expected : Text) :
    Result (Catalog × Result (Option ProcessingMasterOffer)) := do
  let offer ← c.loadOffer offerId
  c.requireOpen offer.projectId
  requireUnchanged offer expected
  match offer.state with
  | .dismissed => return (c, .ok (some offer))
  | .adopted => return (c, .error (wasAdopted offerId))
  | .offered =>
    let offer := { offer with state := .dismissed, decidedAt := some now }
    return (← c.writeOffer offer, .ok (some offer))

def restoreProcessingMaster (offerId : Uuid) (expected : Text) :
    Result (Catalog × Result (Option ProcessingMasterOffer)) := do
  let offer ← c.loadOffer offerId
  c.requireOpen offer.projectId
  requireUnchanged offer expected
  match offer.state with
  | .dismissed =>
    let offer := { offer with state := .offered, decidedAt := none }
    return (← c.writeOffer offer, .ok (some offer))
  | .offered =>
    return (c, .error (.invalidInput ("offer " ++ offerId.hyphenated ++ " is not hidden")))
  | .adopted => return (c, .error (wasAdopted offerId))

/-! ## Registering a master -/

def loadReview (id : Uuid) : Result AdoptionReview :=
  Result.orElse (c.reviews.find? fun review => review.id = id)
    (.notFound ("adoption review " ++ id.hyphenated))

/-- The review is at the revision its caller read and not adopted. -/
def requireReviewOpen (review : AdoptionReview) (expected : Nat) : Result Unit := do
  Result.require (review.revision = expected) (.conflict review.id review.revision)
  Result.require (review.state ≠ .adopted) (.conflict review.id review.revision)

def insertMaster (row : MasterRow) : Result (List MasterRow) := do
  Result.require (row.contentSha256.length = 64)
    (.persistenceFailure "CHECK constraint failed: length(content_sha256) = 64")
  Result.require (!c.masters.any fun other => other.id = row.id)
    (.persistenceFailure "UNIQUE constraint failed: adopted_masters.id")
  Result.require (!c.masters.any fun other => other.reviewId = row.reviewId)
    (.persistenceFailure "UNIQUE constraint failed: adopted_masters.review_id")
  Result.require
    (!c.masters.any fun other => other.locationId = row.locationId && other.pathKey = row.pathKey)
    (.persistenceFailure
      "UNIQUE constraint failed: adopted_masters.location_id, adopted_masters.path_key")
  return c.masters ++ [row]

/-- A master was adopted with digest `sha256`: the offers of those bytes read adopted. -/
def masterAdopted (now sha256 : Text) : Result Catalog :=
  (c.offers.rows.filter fun row => row.sha256 = sha256 && row.state ≠ .adopted).foldlM
    (fun c offer => c.writeOffer { offer with state := .adopted, decidedAt := some now }) c

/-- The running operation `id` completed with `master`. -/
def completed (id : Uuid) (master : AdoptedMaster) (operation : AdoptionOperation) :
    AdoptionOperation :=
  if operation.id = id ∧ operation.state = .running then
    { operation with
      state := .completed, finishedAt := some master.adoptedAt, masterId := some master.id }
  else operation

/-- Register the master, mark the review adopted and complete the operation. -/
def register (now : Text) (review : AdoptionReview) (expected : Nat) (id : Uuid)
    (master : AdoptedMaster) : Result (Catalog × Result (Option ProcessingMasterOffer)) := do
  requireReviewOpen (← c.loadReview review.id) expected
  let masters ← c.insertMaster
    { id := master.id, locationId := master.locationId, pathKey := master.relativePath,
      contentSha256 := review.source.sha256, reviewId := review.id,
      sourceAssetId := review.source.assetId, adoptedAt := master.adoptedAt }
  let reviews := c.reviews.map fun row =>
    if row.id = review.id ∧ row.state = .open then
      { row with state := .adopted, revision := row.revision + 1 }
    else row
  let c ← masterAdopted { c with masters, reviews } now review.source.sha256
  Result.require (c.operations.any fun operation => operation.id = id && operation.state = .running)
    (.persistenceFailure ("adoption operation " ++ id.hyphenated ++ " is not running"))
  return ({ c with operations := c.operations.map (completed id master) }, .ok none)

end Catalog

/-! ## Runs -/

inductive Call
  | offer (id : Uuid) (now : Text) (projectId : Uuid) (path sha256 : Text)
      (classification : Classification)
  | dismiss (now : Text) (offerId : Uuid) (expected : Text)
  | restore (offerId : Uuid) (expected : Text)
  | register (now : Text) (review : AdoptionReview) (expected : Nat) (id : Uuid)
      (master : AdoptedMaster)

/-- One transaction: of these calls, or of any other, which writes no offer and no master. -/
inductive Event
  | call (call : Call)
  | elsewhere (surroundings : Surroundings)

namespace Catalog

def commit {α : Type} (c : Catalog) (txn : Result (Catalog × Result α)) : Catalog × Result α :=
  match txn with
  | .error e => (c, .error e)
  | .ok result => result

def perform (c : Catalog) : Call → Catalog × Result (Option ProcessingMasterOffer)
  | .offer id now projectId path sha256 classification =>
    c.commit (c.offerProcessingMaster id now projectId path sha256 classification)
  | .dismiss now offerId expected => c.commit (c.dismissProcessingMaster now offerId expected)
  | .restore offerId expected => c.commit (c.restoreProcessingMaster offerId expected)
  | .register now review expected id master =>
    c.commit (c.register now review expected id master)

def next (c : Catalog) : Event → Catalog
  | .call call => (c.perform call).1
  | .elsewhere surroundings => { c with toSurroundings := surroundings }

def after (c : Catalog) (events : List Event) : Catalog := events.foldl next c

end Catalog

end PlateVault.Offers
