import PlateVault.Library.Calls

/-!
# What a scan does to the catalog

One lemma a write: what it does to the rows, and the tables it leaves alone. `Observes` lists what
observing one file can do, with what was known when it did; every law about scans reads it.
-/

namespace PlateVault.Library

variable {R : Reader}

namespace Catalog

theorem loadAsset_eq_ok {c : Catalog R} {id : Uuid} {a : Asset R} :
    c.loadAsset id = .ok a ↔ ∃ row ∈ c.assets.rows, row.id = id ∧ a = c.fromRow row := by
  simp only [loadAsset, Result.bind_eq_ok, Result.orElse_eq_ok,
    Result.pure_eq_ok, Table.find?_eq_some]
  constructor
  · rintro ⟨row, ⟨hmem, hid⟩, rfl⟩
    exact ⟨row, hmem, hid, rfl⟩
  · rintro ⟨row, hmem, hid, rfl⟩
    exact ⟨row, ⟨hmem, hid⟩, rfl⟩

@[simp] theorem fromRow_id (c : Catalog R) (row : Asset R) : (c.fromRow row).id = row.id := by
  obtain ⟨availability, h, -⟩ := c.fromRow_eq row
  rw [h]

@[simp] theorem fromRow_fingerprint (c : Catalog R) (row : Asset R) :
    (c.fromRow row).fingerprint = row.fingerprint := by
  obtain ⟨availability, h, -⟩ := c.fromRow_eq row
  rw [h]

@[simp] theorem fromRow_relativePath (c : Catalog R) (row : Asset R) :
    (c.fromRow row).relativePath = row.relativePath := by
  obtain ⟨availability, h, -⟩ := c.fromRow_eq row
  rw [h]

@[simp] theorem fromRow_locationId (c : Catalog R) (row : Asset R) :
    (c.fromRow row).locationId = row.locationId := by
  obtain ⟨availability, h, -⟩ := c.fromRow_eq row
  rw [h]

@[simp] theorem fromRow_quality (c : Catalog R) (row : Asset R) :
    (c.fromRow row).quality = row.quality := by
  obtain ⟨availability, h, -⟩ := c.fromRow_eq row
  rw [h]

@[simp] theorem fromRow_qualityBasis (c : Catalog R) (row : Asset R) :
    (c.fromRow row).qualityBasis = row.qualityBasis := by
  obtain ⟨availability, h, -⟩ := c.fromRow_eq row
  rw [h]

@[simp] theorem fromRow_decisionRevision (c : Catalog R) (row : Asset R) :
    (c.fromRow row).decisionRevision = row.decisionRevision := by
  obtain ⟨availability, h, -⟩ := c.fromRow_eq row
  rw [h]

structure SameTables (c c' : Catalog R) : Prop where
  locations : c'.locations = c.locations
  operations : c'.operations = c.operations
  issues : c'.issues = c.issues
  episodes : c'.episodes = c.episodes
  decisions : c'.decisions = c.decisions
  corrections : c'.corrections = c.corrections
  remapReviews : c'.remapReviews = c.remapReviews

namespace SameTables

theorem refl (c : Catalog R) : SameTables c c := ⟨rfl, rfl, rfl, rfl, rfl, rfl, rfl⟩

theorem trans {c c' c'' : Catalog R} (h : SameTables c c') (h' : SameTables c' c'') :
    SameTables c c'' :=
  ⟨h'.locations.trans h.locations, h'.operations.trans h.operations, h'.issues.trans h.issues,
    h'.episodes.trans h.episodes, h'.decisions.trans h.decisions,
    h'.corrections.trans h.corrections, h'.remapReviews.trans h.remapReviews⟩

theorem updateAssets (c : Catalog R) (p f hid hplace) :
    SameTables c (c.updateAssets p f hid hplace) := ⟨rfl, rfl, rfl, rfl, rfl, rfl, rfl⟩

theorem moveAsset {c c' : Catalog R} {id : Uuid} {f : Asset R → Asset R} {hid}
    (h : c.moveAsset id f hid = .ok c') : SameTables c c' := by
  obtain ⟨assets, -, rfl⟩ := moveAsset_eq_ok h
  exact ⟨rfl, rfl, rfl, rfl, rfl, rfl, rfl⟩

theorem clearVerified (c : Catalog R) (id : Uuid) (fingerprint : ObservationFingerprint)
    (verifiedAt : Nat) : SameTables c (c.clearVerified id fingerprint verifiedAt) := by
  unfold Catalog.clearVerified
  split
  · exact updateAssets c _ _ _ _
  · exact refl c

end SameTables

/-! ## Refreshing a record -/

/-- What observing a recorded file again, as `seen`, leaves of its record. -/
structure Reobserved (op : Operation) (stored : Asset R) (file : ScanFile R)
    (seen : ObservationFingerprint) (old new : Asset R) : Prop where
  locationId : new.locationId = old.locationId
  relativePath : new.relativePath = file.relativePath
  availability : new.availability = .available
  lastOperationId : new.lastOperationId = some op.id
  quality : new.quality = old.quality
  qualityBasis : new.qualityBasis = old.qualityBasis
  decisionRevision : new.decisionRevision = old.decisionRevision
  fingerprint : new.fingerprint = seen ∨ (fingerprintMatches stored.fingerprint seen = true ∧
    new.fingerprint = retained stored.fingerprint seen)
  verificationPending :
    new.verificationPending = (old.verificationPending && seen.contentSha256.isNone)

/-- The rows a refresh leaves: the stored record observed again, the others as they are. -/
def Refreshes (op : Operation) (stored : Asset R) (file : ScanFile R)
    (seen : ObservationFingerprint) (old new : Asset R) : Prop :=
  if old.id = stored.id then Reobserved op stored file seen old new else new = old

def verified (seen : ObservationFingerprint) (verifiedAt : Nat) (a : Asset R) : Asset R :=
  if seen.contentSha256.isSome then
    { a with verificationPending := false, lastVerifiedAt := some verifiedAt }
  else a

def Changes (id : Uuid) (f : Asset R → Asset R) (old new : Asset R) : Prop :=
  new = if old.id = id then f old else old

theorem Evolves.of_assets {K : Asset R → Asset R → Prop} {N : Asset R → Prop}
    {c c₀ c' : Catalog R} (h : Evolves K N c₀ c') (hassets : c₀.assets = c.assets) :
    Evolves K N c c' := by
  constructor
  · rw [← hassets]
    exact h.row
  · rw [← hassets]
    exact h.kept

theorem clearVerified_evolves (c : Catalog R) (id : Uuid) (seen : ObservationFingerprint)
    (verifiedAt : Nat) : Evolves (Changes id (verified seen verifiedAt)) (fun _ => False) c
      (c.clearVerified id seen verifiedAt) := by
  unfold clearVerified Changes verified
  split
  · refine .updateAssets (fun a _ ha => ?_) fun a _ ha => ?_
    · simp [of_decide_eq_true ha]
    · simp [of_decide_eq_false ha]
  · exact .refl (fun a => by simp) c

theorem moveAsset_evolves {c c' : Catalog R} {id : Uuid} {f : Asset R → Asset R} {hid}
    (h : c.moveAsset id f hid = .ok c') : Evolves (Changes id f) (fun _ => False) c c' :=
  .moveAsset h (fun a _ ha => by simp [Changes, ha]) fun a _ ha => by simp [Changes, ha]

theorem linkDiverged_assets (c : Catalog R) (stored : Asset R) (seen : ObservationFingerprint) :
    (c.linkDiverged stored seen).assets = c.assets := by
  unfold linkDiverged
  split
  · split <;> rfl
  · rfl

theorem linkDiverged_same (c : Catalog R) (stored : Asset R) (seen : ObservationFingerprint) :
    SameTables c (c.linkDiverged stored seen) := by
  unfold linkDiverged
  split
  · split
    · exact ⟨rfl, rfl, rfl, rfl, rfl, rfl, rfl⟩
    · exact .refl c
  · exact .refl c

theorem Evolves.changes {K : Asset R → Asset R → Prop} {c c' c'' : Catalog R} {id : Uuid}
    {f g : Asset R → Asset R} (h : Evolves (Changes id f) (fun _ => False) c c')
    (h' : Evolves (Changes id g) (fun _ => False) c' c'') (hid : ∀ a, (f a).id = a.id)
    (hsel : ∀ a, a.id = id → K a (g (f a))) (hrest : ∀ a, a.id ≠ id → K a a) :
    Evolves K (fun _ => False) c c'' := by
  refine .comp (fun a b d _ hab hbd => ?_) (fun _ _ hnew _ => hnew) (fun _ hnew => hnew) h h'
  unfold Changes at hab hbd
  by_cases ha : a.id = id
  · rw [if_pos ha] at hab
    subst hab
    rw [if_pos ((hid a).trans ha)] at hbd
    exact hbd ▸ hsel a ha
  · rw [if_neg ha] at hab
    rw [hab, if_neg ha] at hbd
    exact hbd ▸ hrest a ha

theorem verified_pending (seen : ObservationFingerprint) (verifiedAt : Nat) (a : Asset R) :
    (verified seen verifiedAt a).verificationPending =
      (a.verificationPending && seen.contentSha256.isNone) := by
  unfold verified
  cases seen.contentSha256 <;> simp

theorem refreshAsset_evolves {c c' : Catalog R} {op : Operation} {stored : Asset R}
    {file : ScanFile R} {seen : ObservationFingerprint} {observedAt : Nat} {change : Change}
    (h : c.refreshAsset op stored file seen observedAt = .ok (c', change)) :
    Evolves (Refreshes op stored file seen) (fun _ => False) c c' ∧ SameTables c c' := by
  have hverified : ∀ a : Asset R, (verified seen observedAt a).id = a.id := by
    intro a
    unfold verified
    split <;> rfl
  unfold refreshAsset at h
  split at h
  · next hsame =>
    simp only [Bool.and_eq_true] at hsame
    simp only [Result.bind_eq_ok, Result.pure_eq_ok, Prod.mk.injEq] at h
    obtain ⟨c₁, hmove, rfl, -⟩ := h
    refine ⟨.changes (clearVerified_evolves c _ _ _) (moveAsset_evolves hmove) hverified
      (fun a ha => ?_) (fun a ha => ?_), (SameTables.clearVerified c _ _ _).trans (.moveAsset hmove)⟩
    · rw [Refreshes, if_pos ha]
      refine ⟨?_, rfl, rfl, rfl, ?_, ?_, ?_, .inr ⟨hsame.1.1, rfl⟩, ?_⟩
      all_goals
        simp only [verified]
        split <;> simp_all
    · rw [Refreshes, if_neg ha]
  · simp only [Result.bind_eq_ok, Result.pure_eq_ok, Prod.mk.injEq] at h
    obtain ⟨effective, -, c₁, hmove, rfl, -⟩ := h
    have hmoved := moveAsset_evolves hmove
    replace hmoved := hmoved.of_assets (linkDiverged_assets c stored seen)
    refine ⟨.changes hmoved (clearVerified_evolves c₁ _ _ _) (fun _ => rfl) (fun a ha => ?_)
      (fun a ha => ?_), ((linkDiverged_same c stored seen).trans
        (.moveAsset hmove)).trans (.clearVerified c₁ _ _ _)⟩
    · rw [Refreshes, if_pos ha]
      refine ⟨?_, ?_, ?_, ?_, ?_, ?_, ?_, .inl ?_, verified_pending seen observedAt _⟩
      all_goals
        simp only [verified]
        split <;> rfl
    · rw [Refreshes, if_neg ha]

/-! ## Recording issues and new files -/

structure ScanTables (c c' : Catalog R) : Prop where
  locations : c'.locations = c.locations
  episodes : c'.episodes = c.episodes
  decisions : c'.decisions = c.decisions
  corrections : c'.corrections = c.corrections
  remapReviews : c'.remapReviews = c.remapReviews

namespace ScanTables

end ScanTables

def covers (locationId : Uuid) (scope : RelPath) (a : Asset R) : Bool :=
  a.live && a.locationId = locationId && within a.relativePath scope

def Marked (locationId : Uuid) (scope : RelPath) (availability : Availability)
    (old new : Asset R) : Prop :=
  new = if covers locationId scope old then { old with availability } else old

structure RecordsIssue (op : Operation) (issue : ScanIssue) (scope : RelPath)
    (c c' : Catalog R) : Prop where
  scope_eq : issueScope op issue.relativePath = .ok scope
  rows : Evolves (Marked op.locationId scope issue.availability) (fun _ => False) c c'
  tables : ScanTables c c'
  issues : c'.issues = c.issues ++ [{ operationId := op.id, issue }]
  operations : c'.operations = c.operations.updateWhere (fun row => row.id = op.id)
    (fun row => { row with incomplete := pushUnique row.incomplete scope }) fun _ => rfl

theorem recordIssue_eq_ok {c c' : Catalog R} {op : Operation} {issue : ScanIssue}
    (h : c.recordIssue op issue = .ok c') : ∃ scope, RecordsIssue op issue scope c c' := by
  simp only [recordIssue, Result.bind_eq_ok, Result.pure_eq_ok] at h
  obtain ⟨scope, hscope, rfl⟩ := h
  refine ⟨scope, hscope, ?_, ⟨rfl, rfl, rfl, rfl, rfl⟩, rfl, rfl⟩
  have hsame : ((c.addIssue op.id issue.relativePath issue.reason
      issue.availability).markScopeIncomplete op.id scope).assets = c.assets := rfl
  refine Evolves.of_assets (.updateAssets ?_ ?_) hsame
  · intro a _ ha
    rw [Marked, covers, if_pos ha]
  · intro a _ ha
    rw [Marked, covers, if_neg (by simp [ha])]

structure NewRecord (op : Operation) (location : Location) (file : ScanFile R)
    (seen : ObservationFingerprint) (id : Uuid) (a : Asset R) : Prop where
  id : a.id = id
  place : a.place = (location.id, file.relativePath)
  fingerprint : a.fingerprint = seen
  availability : a.availability = .available
  lastOperationId : a.lastOperationId = some op.id
  quality : a.quality = .unreviewed
  qualityBasis : a.qualityBasis = none
  verificationPending : a.verificationPending = false

theorem insertAsset_eq_ok {c c' : Catalog R} {op : Operation} {location : Location}
    {file : ScanFile R} {seen : ObservationFingerprint} {id : Uuid} {observedAt : Nat}
    {change : Change}
    (h : c.insertAsset op location file seen id observedAt = .ok (c', change)) :
    Evolves (fun old new => new = old) (NewRecord op location file seen id) c c' ∧
      SameTables c c' ∧ change = .inserted id := by
  simp only [insertAsset, Result.bind_eq_ok, Result.orElse_eq_ok, Result.pure_eq_ok,
    Prod.mk.injEq] at h
  obtain ⟨assets, hinsert, rfl, rfl⟩ := h
  exact ⟨.insert (fun _ => rfl) hinsert ⟨rfl, rfl, rfl, rfl, rfl, rfl, rfl, rfl⟩,
    ⟨rfl, rfl, rfl, rfl, rfl, rfl, rfl⟩, rfl⟩

/-! ## Observing one file -/

def Unrecorded (c : Catalog R) (location : Location) (path : RelPath) : Prop :=
  ∀ a ∈ c.assets.rows, a.place ≠ (location.id, path)

/-- The record an observed file is matched with: the one at its path, or a variant of its name
that this scan has not seen. -/
structure Matched (c : Catalog R) (op : Operation) (location : Location) (path : RelPath)
    (row : Asset R) : Prop where
  mem : row ∈ c.assets.rows
  locationId : row.locationId = location.id
  path : row.relativePath = path ∨
    (Unrecorded c location path ∧ row.lastOperationId ≠ some op.id)

theorem findAsset_existing {c : Catalog R} {op : Operation} {location : Location}
    {path : RelPath} {seen : ObservationFingerprint} {stored : Asset R}
    (h : c.findAsset location path seen op.id = .existing stored) :
    ∃ row, Matched c op location path row ∧ stored = c.fromRow row := by
  unfold findAsset at h
  simp only at h
  split at h
  · next row hrow =>
    cases h
    have hplace := List.find?_some hrow
    simp only [Bool.and_eq_true, decide_eq_true_eq] at hplace
    exact ⟨row, ⟨List.mem_of_find?_eq_some hrow, hplace.1, .inl hplace.2⟩, rfl⟩
  · next hnone =>
    have hnew : Unrecorded c location path := by
      intro a ha hplace
      have := List.find?_eq_none.mp hnone a ha
      simp only [Asset.place, Prod.mk.injEq] at hplace
      simp [hplace.1, hplace.2] at this
    split at h
    · cases h
    · split at h
      · cases h
      · split at h
        · next found hfound =>
          cases h
          have hmem := List.mem_of_find?_eq_some hfound
          obtain ⟨row, hrow, rfl⟩ := List.mem_map.mp (List.mem_filter.mp hmem).1
          obtain ⟨hmem, hrow⟩ := List.mem_filter.mp hrow
          simp only [Bool.and_eq_true, decide_eq_true_eq] at hrow
          exact ⟨row, ⟨hmem, hrow.1.1.1, .inr ⟨hnew, hrow.2⟩⟩, rfl⟩
        · next hfound =>
          exfalso
          revert h
          split_ifs <;> simp

theorem findAsset_unrecorded {c : Catalog R} {op : Operation} {location : Location}
    {path : RelPath} {seen : ObservationFingerprint}
    (h : ∀ stored, c.findAsset location path seen op.id ≠ .existing stored) :
    Unrecorded c location path := by
  intro a ha hplace
  simp only [Asset.place, Prod.mk.injEq] at hplace
  cases hfound : c.assets.rows.find? fun a => a.locationId = location.id && a.relativePath = path with
  | some row => exact h (c.fromRow row) (by simp only [findAsset, hfound])
  | none =>
    have := List.find?_eq_none.mp hfound a ha
    simp [hplace.1, hplace.2] at this

inductive Observes (c : Catalog R) (op : Operation) (location : Location) (file : ScanFile R)
    (digest : Option Text) (observedAt : Nat) : Catalog R → Prop
  /-- Nothing is recorded of the file but issues, one at its own path. -/
  | issues {c' : Catalog R} {issues : List ScanIssue} (recorded : c.recordIssues op issues = .ok c')
      (path : ∃ issue ∈ issues, issue.relativePath = file.relativePath)
      (availability : ∀ issue ∈ issues,
        issue.availability = .unreadable ∨ issue.availability = .identityConflict) :
      Observes c op location file digest observedAt c'
  /-- A live record is observed again: a decided one with a digest, or with bytes the rehash run
  already hashed. -/
  | refreshed {c' : Catalog R} {row : Asset R} {change : Change}
      (matched : Matched c op location file.relativePath row)
      (live : (c.fromRow row).availability ≠ .trashed)
      (decided : row.quality = .unreviewed ∨ digest.isSome ∨
        unchangedObservation (c.fromRow row) file = true)
      (refresh : c.refreshAsset op (c.fromRow row) file
        { file.fingerprint with contentSha256 := digest } observedAt = .ok (c', change)) :
      Observes c op location file digest observedAt c'
  /-- A Trashed record's file is back, with a digest. -/
  | putBack {c' : Catalog R} {row : Asset R} {change : Change}
      (matched : Matched c op location file.relativePath row)
      (trashed : (c.fromRow row).availability = .trashed) (hashed : digest.isSome)
      (refresh : (c.closeEpisode row.id observedAt).refreshAsset op (c.compared (c.fromRow row)) file
        { file.fingerprint with contentSha256 := digest } observedAt = .ok (c', change)) :
      Observes c op location file digest observedAt c'
  /-- A file no record has the path of. -/
  | inserted {c' : Catalog R} {variants : List RelPath} {id : Uuid} {change : Change}
      (unrecorded : Unrecorded c location file.relativePath)
      (insert : (variants.foldl (fun c variant => c.markScopeIncomplete op.id variant) c).insertAsset
        op location file { file.fingerprint with contentSha256 := digest } id observedAt =
          .ok (c', change)) :
      Observes c op location file digest observedAt c'

theorem recordIssues_singleton {c c' : Catalog R} {op : Operation} {issue : ScanIssue}
    (h : c.recordIssue op issue = .ok c') : c.recordIssues op [issue] = .ok c' := by
  simp [recordIssues, h]

theorem Observes.one_issue {c c' : Catalog R} {op : Operation} {location : Location}
    {file : ScanFile R} {digest : Option Text} {observedAt : Nat} {reason : String}
    {availability : Availability} (hav : availability = .unreadable ∨ availability = .identityConflict)
    (h : c.recordIssue op { relativePath := file.relativePath, reason, availability } = .ok c') :
    Observes c op location file digest observedAt c' :=
  .issues (recordIssues_singleton h) ⟨_, List.mem_singleton_self _, rfl⟩ (by simpa using hav)

theorem observeFile_observes {c c' : Catalog R} {op : Operation} {location : Location}
    {file : ScanFile R} {digest : Option Text} {run : Option Nat} {id : Uuid} {observedAt : Nat}
    {change : Change}
    (h : c.observeFile op location file digest run id observedAt = .ok (c', change)) :
    within file.relativePath op.scope = true ∧ Observes c op location file digest observedAt c' := by
  simp only [observeFile, Result.bind_eq_ok, Result.require_eq_ok] at h
  obtain ⟨-, -, -, hscope, h⟩ := h
  refine ⟨hscope, ?_⟩
  split at h
  · simp only [Result.bind_eq_ok, Result.pure_eq_ok, Prod.mk.injEq] at h
    obtain ⟨c₁, hissue, rfl, -⟩ := h
    exact .one_issue (.inr rfl) hissue
  · split at h
    · next stored hfound =>
      obtain ⟨row, hmatched, rfl⟩ := findAsset_existing hfound
      split at h
      · next htrashed =>
        unfold observeTrashed at h
        split at h
        · simp only [Result.bind_eq_ok, Result.pure_eq_ok, Prod.mk.injEq] at h
          obtain ⟨c₁, hissue, rfl, -⟩ := h
          exact .one_issue (.inl rfl) hissue
        · next hdigest =>
          simp only [Result.bind_eq_ok] at h
          obtain ⟨⟨c₁, change₁⟩, hrefresh, h⟩ := h
          have hc₁ : c₁ = c' := by
            cases change₁ <;> simp_all
          subst hc₁
          refine .putBack hmatched htrashed (Option.isSome_iff_ne_none.mpr (by simpa using hdigest))
            (by simpa using hrefresh)
      · next hlive =>
        split at h
        · next hkept =>
          simp only [Bool.and_eq_true] at hkept
          exact .refreshed hmatched hlive (.inr (.inr hkept.2)) h
        · split at h
          · simp only [Result.bind_eq_ok, Result.pure_eq_ok, Prod.mk.injEq] at h
            obtain ⟨c₁, hissue, rfl, -⟩ := h
            exact .one_issue (.inl rfl) hissue
          · next hdecided =>
            refine .refreshed hmatched hlive ?_ h
            simp only [fromRow_quality, Bool.and_eq_true, decide_eq_true_eq, not_and] at hdecided
            by_cases hquality : row.quality = .unreviewed
            · exact .inl hquality
            · refine .inr (.inl ?_)
              have := hdecided hquality
              cases digest <;> simp_all
    · next candidates _ =>
      simp only [Result.bind_eq_ok, Result.pure_eq_ok, Prod.mk.injEq] at h
      obtain ⟨c₁, hissues, rfl, -⟩ := h
      refine .issues hissues ⟨_, List.mem_cons_self, rfl⟩ ?_
      intro issue hissue
      obtain ⟨path, -, rfl⟩ := List.mem_map.mp hissue
      exact .inr rfl
    · next variants hfound =>
      have hnew := findAsset_unrecorded fun stored heq => by
        rw [hfound] at heq
        cases heq
      exact .inserted hnew h
    · next hfound =>
      have hnew := findAsset_unrecorded fun stored heq => by
        rw [hfound] at heq
        cases heq
      have hinsert : (([] : List RelPath).foldl
          (fun c variant => c.markScopeIncomplete op.id variant) c).insertAsset op location file
          { file.fingerprint with contentSha256 := digest } id observedAt = .ok (c', change) := h
      exact .inserted hnew hinsert

/-! ## A batch -/

/-- One file of a batch is observed with the digest hashing took of it, or refused its hash. -/
def FileStep (op : Operation) (location : Location) (digests : DigestMap) (observedAt : Nat)
    (c : Catalog R) (file : ScanFile R) (c' : Catalog R) : Prop :=
  Observes c op location file ((digests file.relativePath).bind Except.toOption) observedAt c'

structure IssueStep (op : Operation) (c : Catalog R) (issue : ScanIssue) (c' : Catalog R) :
    Prop where
  valid : issue.availability ≠ .available ∧ issue.availability ≠ .missing
  recorded : c.recordIssue op issue = .ok c'

theorem observeOne_step {c c' : Catalog R} {op : Operation} {location : Location}
    {digests : DigestMap} {run : Option Nat} {ids : RelPath → Uuid} {observedAt : Nat}
    {file : ScanFile R} {change : Change}
    (h : c.observeOne op location digests run ids observedAt file = .ok (c', change)) :
    FileStep op location digests observedAt c file c' := by
  unfold observeOne at h
  split at h
  · simp only [Result.bind_eq_ok, Result.pure_eq_ok, Prod.mk.injEq] at h
    obtain ⟨c₁, hissue, rfl, -⟩ := h
    exact .one_issue (.inl rfl) hissue
  · exact (observeFile_observes h).2

theorem observeFiles_run {op : Operation} {location : Location} {digests : DigestMap}
    {run : Option Nat} {ids : RelPath → Uuid} {observedAt : Nat} {files : List (ScanFile R)}
    {c c' : Catalog R} {changed changed' : BatchChanges}
    (h : c.observeFiles op location digests run ids observedAt changed files = .ok (c', changed')) :
    Run (FileStep op location digests observedAt) c files c' := by
  induction files generalizing c changed with
  | nil =>
    cases h
    exact .nil _
  | cons file files ih =>
    simp only [observeFiles, Result.bind_eq_ok] at h
    obtain ⟨⟨c₁, change⟩, hone, hrest⟩ := h
    exact .cons (observeOne_step hone) (ih hrest)

theorem recordIssues_run {op : Operation} {issues : List ScanIssue} {c c' : Catalog R}
    (h : c.recordIssues op issues = .ok c') :
    Run (fun c issue c' => c.recordIssue op issue = .ok c') c issues c' := by
  induction issues generalizing c with
  | nil =>
    cases h
    exact .nil _
  | cons issue issues ih =>
    simp only [recordIssues, Result.bind_eq_ok] at h
    obtain ⟨c₁, hissue, hrest⟩ := h
    exact .cons hissue (ih hrest)

theorem recordBatchIssues_run {op : Operation} {issues : List ScanIssue} {c c' : Catalog R}
    (h : c.recordBatchIssues op issues = .ok c') : Run (IssueStep op) c issues c' := by
  induction issues generalizing c with
  | nil =>
    cases h
    exact .nil _
  | cons issue issues ih =>
    simp only [recordBatchIssues, validateIssue, Result.bind_eq_ok, Result.require_eq_ok,
      Bool.and_eq_true, decide_eq_true_eq] at h
    obtain ⟨-, ⟨-, -, hvalid⟩, c₁, hissue, hrest⟩ := h
    exact .cons ⟨hvalid, hissue⟩ (ih hrest)

theorem observeBatch_runs {c c' : Catalog R} {op : Operation} {location : Location}
    {files : List (ScanFile R)} {issues : List ScanIssue} {digests : DigestMap}
    {ids : RelPath → Uuid} {observedAt : Nat} {changed : BatchChanges}
    (h : c.observeBatch op location files issues digests ids observedAt = .ok (c', changed)) :
    ∃ middle, Run (FileStep op location digests observedAt) c files middle ∧
      Run (IssueStep op) middle issues c' := by
  simp only [observeBatch, Result.bind_eq_ok, Result.pure_eq_ok, Prod.mk.injEq] at h
  obtain ⟨⟨middle, changed'⟩, hfiles, c₁, hissues, rfl, -⟩ := h
  exact ⟨middle, observeFiles_run hfiles, recordBatchIssues_run hissues⟩

end Catalog

end PlateVault.Library
