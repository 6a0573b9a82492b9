import PlateVault.Grouping.Metadata
import PlateVault.Issues.Records

/-!
# Dismissals and the writes that end an issue

The catalog's locations with the fingerprints dismissed. A location's offline or denied issue has the
same fingerprint every time, so each write of its availability first forgets the dismissal of the
issue it ends.
-/

namespace PlateVault.Issues

open Library (Availability LocationLifecycle)

structure Location where
  id : Uuid
  name : Text
  decisionRevision : Nat
  availability : Availability
  lifecycle : LocationLifecycle
  deriving DecidableEq, Repr

/-- What an issue of another source is made of. No other source makes a location's issue. -/
structure Source where
  kind : IssueKind
  owner : IssueOwner
  about : Option Uuid
  count : Nat
  bytes : Option Nat
  name : Option Text
  elsewhere : kind ≠ .locationDenied ∧ kind ≠ .locationOffline

def Source.issue (source : Source) : Issue :=
  .new source.kind source.owner source.about source.count source.bytes source.name

structure Catalog where
  locations : Table Uuid Location Location.id
  dismissals : List Text
  /-- The issues the other sources give. -/
  sources : List Source

namespace Catalog

def new : Catalog := ⟨Table.empty, [], []⟩

variable (c : Catalog)

/-! ## Reading -/

def locationIssue (location : Location) : Option Issue :=
  if location.lifecycle = .active then
    (IssueKind.ofLocation location.availability).map fun kind =>
      .new kind (.location location.id) (some location.id) 1 none (some location.name)
  else none

def currentIssues : List Issue :=
  c.locations.rows.filterMap locationIssue ++ c.sources.map Source.issue

def issues : IssueView := .split c.currentIssues c.dismissals

/-! ## Dismissing and restoring -/

def maxFingerprint : Nat := 512

def requireFingerprint (fingerprint : Text) : Result Unit :=
  Result.require (fingerprint ≠ [] && (fingerprint.map Char.utf8Size).sum ≤ maxFingerprint)
    (.invalidInput "an issue fingerprint is 1 to 512 bytes")

def dismissIssue (fingerprint : Text) : Result Catalog := do
  requireFingerprint fingerprint
  return if fingerprint ∈ c.dismissals then c
    else { c with dismissals := c.dismissals ++ [fingerprint] }

def restoreIssue (fingerprint : Text) : Result Catalog := do
  requireFingerprint fingerprint
  Result.require (c.dismissals.contains fingerprint)
    (.notFound ("dismissed issue " ++ String.ofList fingerprint))
  return { c with dismissals := c.dismissals.filter (· ≠ fingerprint) }

/-- Forget the dismissal of the issue of `kind` about `about`, whatever its count and bytes. -/
def forgetDismissal (kind : IssueKind) (about : Uuid) : Catalog :=
  { c with
    dismissals := c.dismissals.filter fun fingerprint =>
      !(Issue.fingerprintPrefix kind (some about)).isPrefixOf fingerprint }

/-! ## Availability -/

/-- Forget the dismissal of location `id`'s availability issue when writing `next` ends that
issue. -/
def endAvailabilityIssue (id : Uuid) (next : Availability) : Catalog :=
  match c.locations.find? id with
  | none => c
  | some location =>
    match IssueKind.ofLocation location.availability with
    | none => c
    | some ended => if IssueKind.ofLocation next = some ended then c else c.forgetDismissal ended id

def updateLocation (id : Uuid) (f : Location → Location) (hf : ∀ l, (f l).id = l.id) : Catalog :=
  { c with locations := c.locations.modify id f hf }

/-- `set_location_unavailable`, and `mark_location_observed` where `next` is available. -/
def writeAvailability (id : Uuid) (next : Availability) : Catalog :=
  (c.endAvailabilityIssue id next).updateLocation id
    (fun location => { location with availability := next }) fun _ => rfl

/-- `reselect_location`'s and `apply_remap_rows`' write. -/
def reopen (id : Uuid) : Catalog :=
  (c.endAvailabilityIssue id .available).updateLocation id
    (fun location =>
      { location with
        availability := .available, decisionRevision := location.decisionRevision + 1 })
    fun _ => rfl

def loadLocation (id : Uuid) : Result Location :=
  Result.orElse (c.locations.find? id) (.notFound ("location " ++ id.hyphenated))

def requireActive (location : Location) (refused : String) : Result Unit :=
  Result.require (location.lifecycle = .active)
    (.invalidInput ("location \"" ++ String.ofList location.name ++ "\" is retired and cannot be " ++
      refused ++ "; register its folder again as a new location"))

def requireRevision (location : Location) (expected : Nat) : Result Unit :=
  Result.require (location.decisionRevision = expected)
    (.conflict location.id location.decisionRevision)

/-- `checks` answers for the folder's identity and the overlap with other locations. -/
def reselectLocation (id : Uuid) (expected : Nat) (checks : Result Unit) : Result Catalog := do
  let current ← c.loadLocation id
  requireActive current "reselected"
  requireRevision current expected
  checks
  return c.reopen id

/-- `checks` answers for the review, its assets, the overlap and the files below the new root. -/
def applyRemap (id : Uuid) (expected : Nat) (checks : Result Unit) : Result Catalog := do
  let current ← c.loadLocation id
  requireActive current "remapped"
  requireRevision current expected
  checks
  return c.reopen id

def validReason (reason : Text) : Result Text := do
  Result.require (trim reason ≠ []) (.invalidInput "failure reason is empty")
  return trim reason

def markLocationUnavailable (id : Uuid) (availability : Availability) (reason : Text) :
    Result Catalog := do
  Result.require (availability = .offline || availability = .unreadable ||
      availability = .identityConflict)
    (.invalidInput "location unavailability must be Offline, Unreadable or IdentityConflict")
  let _ ← validReason reason
  let current ← c.loadLocation id
  requireActive current "marked unavailable"
  return c.writeAvailability id availability

def unavailableFor : LibraryError → Availability
  | .accessDenied _ => .unreadable
  | .identityConflict _ => .identityConflict
  | _ => .offline

/-- A scan batch or finish at location `id`: `running` answers for the operation before the root is
verified, `applied` for the rest of the transaction. A root that does not verify is written as the
location's availability, and the call fails. -/
def applyScan (id : Uuid) (running verified applied : Result Unit) :
    Result (Catalog × Result Unit) := do
  running
  let _ ← c.loadLocation id
  match verified with
  | .error error =>
    applied
    return (c.writeAvailability id (unavailableFor error), .error error)
  | .ok () =>
    applied
    return (c.writeAvailability id .available, .ok ())

/-! ## The other writes -/

def insertLocation (id : Uuid) (name : Text) : Result Catalog := do
  let locations ← Result.orElse
    (c.locations.insert?
      { id, name, decisionRevision := 1, availability := .available, lifecycle := .active })
    (.persistenceFailure "UNIQUE constraint failed: locations.id")
  return { c with locations }

def renameLocation (id : Uuid) (expected : Nat) (name : Text) : Result Catalog := do
  requireRevision (← c.loadLocation id) expected
  return c.updateLocation id
    (fun location => { location with name, decisionRevision := location.decisionRevision + 1 })
    fun _ => rfl

/-- `checks` answers for the review and what changed since. -/
def applyRetire (id : Uuid) (expected : Nat) (checks : Result Unit) : Result Catalog := do
  let current ← c.loadLocation id
  requireActive current "retired"
  requireRevision current expected
  checks
  return c.updateLocation id
    (fun location =>
      { location with
        lifecycle := .retired, decisionRevision := location.decisionRevision + 1 })
    fun _ => rfl

def retryImport (id : Uuid) : Catalog :=
  { c.forgetDismissal .workInterrupted id with
    sources := c.sources.filter fun source =>
      source.kind ≠ .workInterrupted || source.about ≠ some id }

end Catalog

end PlateVault.Issues
