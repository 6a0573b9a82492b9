import PlateVault.Library.Reviewed
import PlateVault.Library.Trashed

/-!
# Scans among other calls

A location has one running scan at most, and what a running scan observed stays observed whatever
else is called meanwhile, as long as no archive moves a record from or into its location. So what a
call's reader saw of a running scan still holds when the call commits.
-/

namespace PlateVault.Library

variable {R : Reader}

namespace Catalog

/-! ## What a call leaves of scans and places -/

/-- A record keeps its place and the scan that saw it last. -/
def Stays (a a' : Asset R) : Prop :=
  a'.place = a.place ∧ a'.lastOperationId = a.lastOperationId

/-- The operation observed a record of its location: at another path only where it had not seen it
before. -/
structure SeenBy (op : Operation) (a a' : Asset R) : Prop where
  lastOperationId : a'.lastOperationId = some op.id
  before : a.locationId = op.locationId
  locationId : a'.locationId = op.locationId
  path : a.lastOperationId = some op.id → a'.relativePath = a.relativePath

def Observed (scan : Option Operation) (a a' : Asset R) : Prop :=
  Stays a a' ∨ ∃ op ∈ scan, SeenBy op a a'

def Found (scan : Option Operation) (a : Asset R) : Prop :=
  ∃ op ∈ scan, a.lastOperationId = some op.id ∧ a.locationId = op.locationId

structure Later (op op' : Operation) : Prop where
  id : op'.id = op.id
  locationId : op'.locationId = op.locationId
  scope : op'.scope = op.scope
  running : op'.state = .running → op.state = .running

/-- A call that begins no scan, and sees records only as `scan`. -/
structure Sees (scan : Option Operation) (c c' : Catalog R) : Prop where
  rows : Evolves (Observed scan) (Found scan) c c'
  after : ∀ op ∈ c.operations.rows, ∃ op' ∈ c'.operations.rows, Later op op'
  before : ∀ op' ∈ c'.operations.rows, ∃ op ∈ c.operations.rows, Later op op'
  issues : ∀ issue ∈ c.issues, issue ∈ c'.issues

theorem Stays.refl (a : Asset R) : Stays a a := ⟨rfl, rfl⟩

theorem Observed.refl (scan : Option Operation) (a : Asset R) : Observed scan a a :=
  .inl (.refl a)

theorem Observed.trans {scan : Option Operation} {a b d : Asset R} (h : Observed scan a b)
    (h' : Observed scan b d) : Observed scan a d := by
  rcases h with ⟨hplace, hlast⟩ | ⟨op, hop, hseen⟩
  · rcases h' with ⟨hplace', hlast'⟩ | ⟨op, hop, hseen'⟩
    · exact .inl ⟨hplace'.trans hplace, hlast'.trans hlast⟩
    · simp only [Asset.place, Prod.mk.injEq] at hplace
      refine .inr ⟨op, hop, hseen'.lastOperationId, hplace.1.symm.trans hseen'.before,
        hseen'.locationId, fun hlast' => ?_⟩
      rw [hseen'.path (hlast.trans hlast'), hplace.2]
  · rcases h' with ⟨hplace', hlast'⟩ | ⟨op', hop', hseen'⟩
    · simp only [Asset.place, Prod.mk.injEq] at hplace'
      refine .inr ⟨op, hop, hlast'.trans hseen.lastOperationId, hseen.before,
        hplace'.1.trans hseen.locationId, fun hlast => ?_⟩
      rw [hplace'.2, hseen.path hlast]
    · obtain rfl : op = op' := Option.mem_unique hop hop'
      refine .inr ⟨op, hop, hseen'.lastOperationId, hseen.before, hseen'.locationId,
        fun hlast => ?_⟩
      rw [hseen'.path hseen.lastOperationId, hseen.path hlast]

theorem Found.observed {scan : Option Operation} {a b : Asset R} (h : Found scan a)
    (h' : Observed scan a b) : Found scan b := by
  obtain ⟨op, hop, hlast, hlocation⟩ := h
  rcases h' with ⟨hplace, hlast'⟩ | ⟨op', hop', hseen⟩
  · simp only [Asset.place, Prod.mk.injEq] at hplace
    exact ⟨op, hop, hlast'.trans hlast, hplace.1.trans hlocation⟩
  · exact ⟨op', hop', hseen.lastOperationId, hseen.locationId⟩

theorem Later.refl (op : Operation) : Later op op := ⟨rfl, rfl, rfl, fun h => h⟩

theorem Later.trans {op op' op'' : Operation} (h : Later op op') (h' : Later op' op'') :
    Later op op'' :=
  ⟨h'.id.trans h.id, h'.locationId.trans h.locationId, h'.scope.trans h.scope,
    fun hrunning => h.running (h'.running hrunning)⟩

namespace Sees

variable {scan : Option Operation} {c c' c'' : Catalog R}

theorem of_eq (hassets : c'.assets = c.assets) (hoperations : c'.operations = c.operations)
    (hissues : ∀ issue ∈ c.issues, issue ∈ c'.issues) : Sees scan c c' where
  rows := .of_eq (.refl scan) hassets
  after := fun op hop => ⟨op, hoperations ▸ hop, .refl op⟩
  before := fun op hop => ⟨op, hoperations ▸ hop, .refl op⟩
  issues := hissues

theorem refl (c : Catalog R) : Sees scan c c := of_eq rfl rfl fun _ h => h

theorem trans (h : Sees scan c c') (h' : Sees scan c' c'') : Sees scan c c'' where
  rows := .trans (fun _ _ _ hab hbd => hab.trans hbd) (fun _ _ hnew hab => hnew.observed hab)
    h.rows h'.rows
  after := fun op hop => by
    obtain ⟨op', hop', hlater⟩ := h.after op hop
    obtain ⟨op'', hop'', hlater'⟩ := h'.after op' hop'
    exact ⟨op'', hop'', hlater.trans hlater'⟩
  before := fun op'' hop'' => by
    obtain ⟨op', hop', hlater'⟩ := h'.before op'' hop''
    obtain ⟨op, hop, hlater⟩ := h.before op' hop'
    exact ⟨op, hop, hlater.trans hlater'⟩
  issues := fun issue hissue => h'.issues issue (h.issues issue hissue)

theorem of_tables (hrows : Evolves (Observed scan) (Found scan) c c') (htables : SameTables c c') :
    Sees scan c c' where
  rows := hrows
  after := fun op hop => ⟨op, htables.operations ▸ hop, .refl op⟩
  before := fun op hop => ⟨op, htables.operations ▸ hop, .refl op⟩
  issues := fun _ hissue => htables.issues ▸ hissue

theorem updateAssets {p : Asset R → Bool} {f : Asset R → Asset R} {hid hplace}
    (hlast : ∀ a, (f a).lastOperationId = a.lastOperationId) :
    Sees scan c (c.updateAssets p f hid hplace) :=
  of_tables (.updateAssets (fun a _ _ => .inl ⟨hplace a, hlast a⟩) fun a _ _ => .refl scan a)
    (.updateAssets c _ _ _ _)

theorem updateOperation {id : Uuid} {f : Operation → Operation} {hid}
    (hf : ∀ op, Later op (f op)) : Sees scan c (c.updateOperation id f hid) where
  rows := .of_eq (.refl scan) rfl
  after := fun op hop => by
    refine ⟨_, (Table.mem_updateWhere hid).mpr ⟨op, hop, rfl⟩, ?_⟩
    split
    · exact hf op
    · exact .refl op
  before := fun op' hop' => by
    obtain ⟨op, hop, rfl⟩ := (Table.mem_updateWhere hid).mp hop'
    refine ⟨op, hop, ?_⟩
    split
    · exact hf op
    · exact .refl op
  issues := fun _ h => h

end Sees

/-! ## Running scans -/

/-- Each location has one running scan at most, and a record that a running scan saw last is of its
location. -/
structure Scanning (c : Catalog R) : Prop where
  one : ∀ op ∈ c.operations.rows, ∀ op' ∈ c.operations.rows, op.state = .running →
    op'.state = .running → op.locationId = op'.locationId → op = op'
  seen : ∀ a ∈ c.assets.rows, ∀ id, a.lastOperationId = some id → ∃ op ∈ c.operations.rows,
    op.id = id ∧ (op.state = .running → a.locationId = op.locationId)

/-- What a running scan has observed and recorded stays. -/
structure Follows (c c' : Catalog R) : Prop where
  operations : ∀ op ∈ c.operations.rows, ∃ op' ∈ c'.operations.rows, Later op op'
  rows : ∀ op ∈ c'.operations.rows, op.state = .running → ∀ a ∈ c.assets.rows,
    a.lastOperationId = some op.id → ∃ a' ∈ c'.assets.rows, Stays a a'
  issues : ∀ issue ∈ c.issues, issue ∈ c'.issues

theorem Scanning.empty : Scanning (.empty : Catalog R) := by
  constructor <;> simp [Catalog.empty, Table.empty]

theorem Follows.refl (c : Catalog R) : Follows c c where
  operations := fun op hop => ⟨op, hop, .refl op⟩
  rows := fun _ _ _ a ha _ => ⟨a, ha, .refl a⟩
  issues := fun _ h => h

theorem Follows.trans {c c' c'' : Catalog R} (hc : Scanning c) (h : Follows c c')
    (h' : Follows c' c'') : Follows c c'' where
  operations := fun op hop => by
    obtain ⟨op', hop', hlater⟩ := h.operations op hop
    obtain ⟨op'', hop'', hlater'⟩ := h'.operations op' hop'
    exact ⟨op'', hop'', hlater.trans hlater'⟩
  rows := fun op'' hop'' hrunning a ha hlast => by
    obtain ⟨op, hop, hid, -⟩ := hc.seen a ha _ hlast
    obtain ⟨op', hop', hlater⟩ := h.operations op hop
    obtain ⟨last, hlast', hlater'⟩ := h'.operations op' hop'
    obtain rfl : last = op'' :=
      Table.eq_of_key hlast' hop'' (hlater'.id.trans (hlater.id.trans hid))
    have hid' : op'.id = last.id := hlater'.id.symm
    obtain ⟨a', ha', hplace, hsame⟩ :=
      h.rows op' hop' (hlater'.running hrunning) a ha (hid' ▸ hlast)
    obtain ⟨a'', ha'', hplace', hsame'⟩ := h'.rows last hop'' hrunning a' ha' (hsame.trans hlast)
    exact ⟨a'', ha'', hplace'.trans hplace, hsame'.trans hsame⟩
  issues := fun issue hissue => h'.issues issue (h.issues issue hissue)

def Runs (c : Catalog R) (scan : Option Operation) : Prop :=
  ∀ op ∈ scan, ∃ row ∈ c.operations.rows, row.id = op.id ∧ row.locationId = op.locationId ∧
    row.state = .running

theorem Sees.follows {scan : Option Operation} {c c' : Catalog R} (h : Sees scan c c')
    (hscan : c.Runs scan) (hc : Scanning c) : Follows c c' where
  operations := h.after
  rows := fun op' hop' hrunning a ha hlast => by
    obtain ⟨a', ha', -, hobserved⟩ := h.rows.kept a ha
    refine ⟨a', ha', ?_⟩
    rcases hobserved with hstays | ⟨op, hop, hseen⟩
    · exact hstays
    · obtain ⟨row, hrow, hid, hlocation, hrow'⟩ := hscan op hop
      obtain ⟨op₀, hop₀, hlater⟩ := h.before op' hop'
      obtain ⟨op₁, hop₁, hid₁, hsame⟩ := hc.seen a ha _ hlast
      obtain rfl : op₁ = op₀ := Table.eq_of_key hop₁ hop₀ (hid₁.trans hlater.id)
      have hrunning₀ := hlater.running hrunning
      obtain rfl : row = op₁ := hc.one row hrow op₁ hop₁ hrow' hrunning₀
        (hlocation.trans (hseen.before.symm.trans (hsame hrunning₀)))
      have hlast₀ : a.lastOperationId = some op.id := by rw [hlast, ← hid₁, hid]
      refine ⟨?_, hseen.lastOperationId.trans hlast₀.symm⟩
      rw [Asset.place, Asset.place, hseen.path hlast₀, hseen.locationId, hseen.before]
  issues := h.issues

theorem Sees.scanning {scan : Option Operation} {c c' : Catalog R} (h : Sees scan c c')
    (hscan : c.Runs scan) (hc : Scanning c) : Scanning c' where
  one := fun op' hop' op₁' hop₁' hrunning hrunning₁ hsame => by
    obtain ⟨op, hop, hlater⟩ := h.before op' hop'
    obtain ⟨op₁, hop₁, hlater₁⟩ := h.before op₁' hop₁'
    obtain rfl : op = op₁ := hc.one op hop op₁ hop₁ (hlater.running hrunning)
      (hlater₁.running hrunning₁) (hlater.locationId.symm.trans (hsame.trans hlater₁.locationId))
    exact Table.eq_of_key hop' hop₁' (hlater.id.trans hlater₁.id.symm)
  seen := fun a' ha' id hlast => by
    have hseen : ∀ op ∈ scan, a'.lastOperationId = some op.id → a'.locationId = op.locationId →
        ∃ op' ∈ c'.operations.rows, op'.id = id ∧
          (op'.state = .running → a'.locationId = op'.locationId) := by
      intro op hop hlast' hlocation
      obtain ⟨row, hrow, hid, hrowLocation, -⟩ := hscan op hop
      obtain ⟨op', hop', hlater⟩ := h.after row hrow
      have hids : op.id = id := Option.some.inj (hlast'.symm.trans hlast)
      refine ⟨op', hop', hlater.id.trans (hid.trans hids), fun _ => ?_⟩
      rw [hlocation, hlater.locationId, hrowLocation]
    obtain ⟨a, ha, -, hobserved⟩ | ⟨⟨op, hop, hlast', hlocation⟩, -⟩ := h.rows.row a' ha'
    · rcases hobserved with ⟨hplace, hsame⟩ | ⟨op, hop, hby⟩
      · obtain ⟨op, hop, hid, hlocation⟩ := hc.seen a ha id (hsame.symm.trans hlast)
        obtain ⟨op', hop', hlater⟩ := h.after op hop
        simp only [Asset.place, Prod.mk.injEq] at hplace
        refine ⟨op', hop', hlater.id.trans hid, fun hrunning => ?_⟩
        rw [hplace.1, hlater.locationId]
        exact hlocation (hlater.running hrunning)
      · exact hseen op hop hby.lastOperationId hby.locationId
    · exact hseen op hop hlast' hlocation

/-! ## Observing -/

theorem armVerification_sees {scan : Option Operation} (c : Catalog R) (op : Operation) :
    Sees scan c (c.armVerification op) := by
  unfold armVerification
  split
  · simp only
    refine .trans ?_ (.updateAssets fun _ => rfl)
    have harmed : Sees scan c
        (c.updateOperation op.id fun op => { op with verificationArmed := true }) :=
      .updateOperation fun _ => ⟨rfl, rfl, rfl, fun h => h⟩
    split
    · exact harmed.trans (.of_eq rfl rfl fun _ h => h)
    · exact harmed
  · exact .refl c

theorem markScopeIncomplete_sees {scan : Option Operation} (c : Catalog R) (id : Uuid)
    (scope : RelPath) : Sees scan c (c.markScopeIncomplete id scope) :=
  .updateOperation fun _ => ⟨rfl, rfl, rfl, fun h => h⟩

theorem addIssue_sees {scan : Option Operation} (c : Catalog R) (id : Uuid) (path : RelPath)
    (reason : String) (availability : Availability) :
    Sees scan c (c.addIssue id path reason availability) :=
  .of_eq rfl rfl fun _ h => List.mem_append_left _ h

theorem recordIssue_sees {scan : Option Operation} {c c' : Catalog R} {op : Operation}
    {issue : ScanIssue} (h : c.recordIssue op issue = .ok c') : Sees scan c c' := by
  simp only [recordIssue, Result.bind_eq_ok, Result.pure_eq_ok] at h
  obtain ⟨scope, -, rfl⟩ := h
  exact ((addIssue_sees c _ _ _ _).trans (markScopeIncomplete_sees _ _ _)).trans
    (.updateAssets fun _ => rfl)

theorem recordIssues_sees {scan : Option Operation} {c c' : Catalog R} {op : Operation}
    {issues : List ScanIssue}
    (h : Run (fun c issue c' => c.recordIssue op issue = .ok c') c issues c') : Sees scan c c' := by
  induction h with
  | nil c => exact .refl c
  | cons hstep _ ih => exact (recordIssue_sees hstep).trans ih

theorem markScopes_sees {scan : Option Operation} (op : Operation) (variants : List RelPath)
    (c : Catalog R) :
    Sees scan c (variants.foldl (fun c variant => c.markScopeIncomplete op.id variant) c) := by
  induction variants generalizing c with
  | nil => exact .refl c
  | cons variant variants ih => exact (markScopeIncomplete_sees c op.id variant).trans (ih _)

theorem refreshAsset_sees {c c' : Catalog R} {op : Operation} {location : Location} {row : Asset R}
    {stored : Asset R} {file : ScanFile R} {seen : ObservationFingerprint} {observedAt : Nat}
    {change : Change} (hlocation : location.id = op.locationId)
    (hrow : Matched c op location file.relativePath row) (hid : stored.id = row.id)
    (h : c.refreshAsset op stored file seen observedAt = .ok (c', change)) :
    Sees (some op) c c' := by
  obtain ⟨hrows, htables⟩ := refreshAsset_evolves h
  refine .of_tables (hrows.mono (fun a ha a' hstep => ?_) fun _ => False.elim) htables
  unfold Refreshes at hstep
  split at hstep
  · next hstored =>
    obtain rfl : a = row := Table.eq_of_key ha hrow.mem (hstored.trans hid)
    have hbefore : a.locationId = op.locationId := hrow.locationId.trans hlocation
    refine .inr ⟨op, rfl, hstep.lastOperationId, hbefore, hstep.locationId.trans hbefore,
      fun hlast => ?_⟩
    rw [hstep.relativePath]
    rcases hrow.path with hpath | ⟨-, hunseen⟩
    · exact hpath.symm
    · exact absurd hlast hunseen
  · rw [hstep]
    exact .refl _ a

theorem Observes.sees {c c' : Catalog R} {op : Operation} {location : Location} {file : ScanFile R}
    {digest : Option Text} {observedAt : Nat} (hlocation : location.id = op.locationId)
    (h : Observes c op location file digest observedAt c') : Sees (some op) c c' := by
  cases h with
  | issues recorded _ _ => exact recordIssues_sees (recordIssues_run recorded)
  | refreshed matched _ _ refresh =>
    exact refreshAsset_sees hlocation matched (fromRow_id c _) refresh
  | @putBack row _ matched _ _ refresh =>
    have hclose : Sees (some op) c (c.closeEpisode row.id observedAt) :=
      .of_eq rfl rfl fun _ h => h
    have hmatched : Matched (c.closeEpisode row.id observedAt) op location file.relativePath row :=
      ⟨matched.mem, matched.locationId, matched.path⟩
    exact hclose.trans (refreshAsset_sees hlocation hmatched
      ((compared_id c _).trans (fromRow_id c _)) refresh)
  | inserted unrecorded insert =>
    obtain ⟨hrows, htables, -⟩ := insertAsset_eq_ok insert
    refine (markScopes_sees op _ c).trans (.of_tables (hrows.mono (fun a _ a' hsame => ?_)
      fun a hnew => ?_) htables)
    · obtain rfl : a' = a := hsame
      exact .refl _ a'
    · have hplace := hnew.place
      simp only [Asset.place, Prod.mk.injEq] at hplace
      exact ⟨op, rfl, hnew.lastOperationId, hplace.1.trans hlocation⟩

theorem observeBatch_sees {c c' : Catalog R} {op : Operation} {location : Location}
    {files : List (ScanFile R)} {issues : List ScanIssue} {digests : DigestMap}
    {ids : RelPath → Uuid} {observedAt : Nat} {changed : BatchChanges}
    (hlocation : location.id = op.locationId)
    (h : c.observeBatch op location files issues digests ids observedAt = .ok (c', changed)) :
    Sees (some op) c c' := by
  obtain ⟨middle, hfiles, hrecorded⟩ := observeBatch_runs h
  have hissues : Sees (some op) middle c' :=
    recordIssues_sees (hrecorded.mono fun _ _ _ hstep => hstep.recorded)
  refine .trans ?_ hissues
  clear h hrecorded hissues
  induction hfiles with
  | nil c => exact .refl c
  | cons hstep _ ih => exact (Observes.sees hlocation hstep).trans ih

theorem downgrade_sees {scan : Option Operation} (c : Catalog R) (op : Operation)
    (location : Location) (error : LibraryError) : Sees scan c (c.downgrade op location error) := by
  unfold downgrade
  simp only
  have hunverified : Sees scan c
      (c.updateOperation op.id fun op => { op with identityVerified := false }) :=
    .updateOperation fun _ => ⟨rfl, rfl, rfl, fun h => h⟩
  have hissue := (hunverified.trans (addIssue_sees _ op.id op.scope error.display
    (unavailableFor error))).trans (markScopeIncomplete_sees _ op.id op.scope)
  exact hissue.trans (.of_eq rfl rfl fun _ h => h)

theorem finalizeOperation_sees {scan : Option Operation} (c : Catalog R) (id : Uuid)
    {state : ScanState} (hstate : state ≠ .running) (complete incomplete : List RelPath) :
    Sees scan c (c.finalizeOperation id state complete incomplete) :=
  .updateOperation fun _ => ⟨rfl, rfl, rfl, fun h => absurd h hstate⟩

theorem reconcileAbsence_sees {scan : Option Operation} (c : Catalog R) (op : Operation)
    (complete incomplete : List RelPath) :
    Sees scan c (c.reconcileAbsence op complete incomplete) :=
  .updateAssets fun _ => rfl

theorem endRehashRun_sees {scan : Option Operation} (c : Catalog R) (op : Operation)
    (ended : Bool) : Sees scan c (c.endRehashRun op ended) := by
  unfold endRehashRun
  split
  · exact .of_eq rfl rfl fun _ h => h
  · exact .refl c

theorem finishObserved_sees {scan : Option Operation} {c c' : Catalog R} {op : Operation}
    {observation : ScanObservation R} {proven : Bool} (hstate : observation.state ≠ .running)
    (h : c.finishObserved op observation proven = .ok c') : Sees scan c c' := by
  simp only [finishObserved, Result.bind_eq_ok, Result.pure_eq_ok] at h
  obtain ⟨recorded, -, complete, -, rfl⟩ := h
  refine .trans (.trans ?_ (endRehashRun_sees _ _ _)) (finalizeOperation_sees _ _ ?_ _ _)
  · split
    · exact .refl c
    · exact reconcileAbsence_sees c op _ _
  · have hended : ∀ limited : Bool,
        (if limited then ScanState.partially else observation.state) ≠ .running := by
      intro limited
      cases limited <;> simp [hstate]
    exact hended _

/-! ## Every call -/

theorem loadOperationRow_eq_ok {c : Catalog R} {id : Uuid} {op : Operation} :
    c.loadOperationRow id = .ok op ↔ op ∈ c.operations.rows ∧ op.id = id := by
  simp only [loadOperationRow, Result.orElse_eq_ok, Table.find?_eq_some]

theorem loadLocation_id {c : Catalog R} {id : Uuid} {location : Location}
    (h : c.loadLocation id = .ok location) : location.id = id := by
  simp only [loadLocation, Result.orElse_eq_ok] at h
  exact Table.find?_key h

theorem requireRunning_eq_ok {op : Operation} {u : Unit} :
    requireRunning op = .ok u ↔ op.state = .running := by
  simp [requireRunning]

theorem decideAll_sees {quality : Quality} {digests : List Hashed} {sources : Sources}
    {decidedAt : Nat} {assets : List (Asset R)} {c c' : Catalog R}
    (h : c.decideAll quality digests sources decidedAt assets = .ok c') : Sees none c c' := by
  induction assets generalizing c with
  | nil =>
    cases h
    exact .refl _
  | cons asset assets ih =>
    simp only [decideAll, Result.bind_eq_ok] at h
    obtain ⟨c₁, hone, hrest⟩ := h
    refine .trans ?_ (ih hrest)
    simp only [decideQuality, Result.bind_eq_ok, Result.pure_eq_ok] at hone
    obtain ⟨bound, -, rfl⟩ := hone
    refine .trans (.updateAssets ?_) (.of_eq (recordDecision_assets _ _) rfl fun _ h => h)
    exact fun _ => rfl

theorem bindCandidates_sees {verifiedAt : Nat} {hashed : List Hashed} {c c' : Catalog R}
    (h : c.bindCandidates verifiedAt hashed = .ok c') : Sees none c c' := by
  induction hashed generalizing c with
  | nil =>
    cases h
    exact .refl _
  | cons one hashed ih =>
    simp only [bindCandidates, Result.bind_eq_ok] at h
    obtain ⟨asset, -, hrest⟩ := h
    refine .trans ?_ (ih hrest)
    split
    · exact .updateAssets fun _ => rfl
    · exact .refl c

theorem correctAssets_sees {corrections : List CorrectionInput} {ids : List Uuid}
    {c c' : Catalog R} {changed changed' : List Uuid}
    (h : c.correctAssets corrections changed ids = .ok (c', changed')) : Sees none c c' := by
  induction ids generalizing c changed with
  | nil =>
    cases h
    exact .refl _
  | cons id ids ih =>
    simp only [correctAssets, correctAsset, Result.bind_eq_ok, Result.pure_eq_ok] at h
    obtain ⟨⟨c₁, moved⟩, ⟨asset, -, effective, -, heq⟩, hrest⟩ := h
    cases heq
    have hrecorded : Sees none c (c.recordCorrections id (corrections.filter (·.assetId = id))) :=
      .of_eq rfl rfl fun _ h => h
    refine (hrecorded.trans (.updateAssets fun _ => ?_)).trans (ih hrest)
    exact rfl

theorem recordFrames_sees {storageOperationId : Uuid} {trashedAt : Nat}
    {frames : List TrashedFrame} {c c' : Catalog R}
    (h : c.recordFrames storageOperationId trashedAt frames = .ok c') : Sees none c c' := by
  induction frames generalizing c with
  | nil =>
    cases h
    exact .refl _
  | cons frame frames ih =>
    simp only [recordFrames, recordFrame, Result.bind_eq_ok] at h
    obtain ⟨c₁, ⟨asset, -, hone⟩, hrest⟩ := h
    refine .trans ?_ (ih hrest)
    split at hone
    · split at hone
      · cases hone
        exact .refl c
      · cases hone
    · simp only [Result.bind_eq_ok, Result.pure_eq_ok] at hone
      obtain ⟨-, -, -, -, -, -, rfl⟩ := hone
      have hmarked : Sees none c (c.markTrashed asset.id) := .updateAssets fun _ => rfl
      exact hmarked.trans (.of_eq rfl rfl fun _ h => h)

theorem remapRows_sees {assets : List (Asset R)} {verifiedAt : Nat} {items : List RemapItem}
    {c c' : Catalog R} (h : c.remapRows assets verifiedAt items = .ok c') : Sees none c c' := by
  induction items generalizing c with
  | nil =>
    cases h
    exact .refl _
  | cons item items ih =>
    simp only [remapRows, Result.bind_eq_ok, Result.orElse_eq_ok] at h
    obtain ⟨asset, -, hrest⟩ := h
    refine .trans (.updateAssets ?_) (ih hrest)
    exact fun _ => rfl

theorem beginScan_follows {c c' : Catalog R} {id locationId : Uuid} {scope : Option RelPath}
    {now : Nat} (h : c.beginScan id locationId scope now = .ok c') (hc : Scanning c) :
    Scanning c' ∧ Follows c c' := by
  simp only [beginScan, Result.bind_eq_ok, Result.require_eq_ok, Result.orElse_eq_ok,
    Result.pure_eq_ok] at h
  obtain ⟨location, hload, -, -, -, -, -, hfree, operations, hinsert, rfl⟩ := h
  obtain ⟨hnew, hrows⟩ := Table.insert?_eq_some hinsert
  have hold : ∀ op ∈ c.operations.rows, op ∈ operations.rows := fun op hop =>
    hrows ▸ List.mem_append_left _ hop
  have hidle : ∀ op ∈ c.operations.rows, op.state = .running → op.locationId ≠ locationId := by
    intro op hop hrunning hlocation
    simp only [runningOperation, Option.isNone_map, Option.isNone_iff_eq_none,
      List.find?_eq_none] at hfree
    exact hfree op hop (by simp [hlocation, hrunning])
  refine ⟨⟨fun op hop op' hop' hrunning hrunning' hsame => ?_, fun a ha id hlast => ?_⟩,
    fun op hop => ⟨op, hold op hop, .refl op⟩, fun _ _ _ a ha _ => ⟨a, ha, .refl a⟩, fun _ h => h⟩
  · rw [hrows] at hop hop'
    rcases List.mem_append.mp hop with hop | hop <;>
      rcases List.mem_append.mp hop' with hop' | hop'
    · exact hc.one op hop op' hop' hrunning hrunning' hsame
    · rw [List.mem_singleton.mp hop'] at hsame
      exact absurd hsame (hidle op hop hrunning)
    · rw [List.mem_singleton.mp hop] at hsame
      exact absurd hsame.symm (hidle op' hop' hrunning')
    · rw [List.mem_singleton.mp hop, List.mem_singleton.mp hop']
  · obtain ⟨op, hop, hid, hlocation⟩ := hc.seen a ha id hlast
    exact ⟨op, hold op hop, hid, hlocation⟩

theorem moveAssetRecord_follows {c c' : Catalog R} {record : RecordMove} {now : Nat}
    (hidle : ∀ op ∈ c.operations.rows, op.state = .running →
      op.locationId ≠ record.fromLocationId)
    (h : c.moveAssetRecord record now = .ok c') (hc : Scanning c) :
    Scanning c' ∧ Follows c c' := by
  simp only [moveAssetRecord, Result.bind_eq_ok, Result.require_eq_ok, Bool.and_eq_true,
    decide_eq_true_eq] at h
  obtain ⟨asset, hload, -, ⟨⟨hfrom, -⟩, -⟩, -, -, hmove⟩ := h
  obtain ⟨row, hrow, hid, rfl⟩ := loadAsset_eq_ok.mp hload
  have htables := SameTables.moveAsset hmove
  have hmoved := moveAsset_evolves hmove
  -- the moved record was not last seen by a running scan
  have hunseen : ∀ op ∈ c.operations.rows, op.state = .running →
      row.lastOperationId ≠ some op.id := by
    intro op hop hrunning hlast
    obtain ⟨op', hop', hid', hlocation⟩ := hc.seen row hrow _ hlast
    obtain rfl : op' = op := Table.eq_of_key hop' hop hid'
    refine hidle op' hop hrunning ?_
    rw [← hlocation hrunning, ← hfrom, fromRow_locationId]
  refine ⟨⟨?_, fun a' ha' id hlast => ?_⟩, fun op hop => ⟨op, htables.operations ▸ hop, .refl op⟩,
    fun op hop hrunning a ha hlast => ?_, fun issue hissue => htables.issues ▸ hissue⟩
  · rw [htables.operations]
    exact hc.one
  · rw [htables.operations]
    obtain ⟨a, ha, -, hstep⟩ | ⟨hfalse, -⟩ := hmoved.row a' ha'
    · unfold Changes at hstep
      split at hstep
      · next hsame =>
        obtain rfl : a = row := Table.eq_of_key ha hrow (hsame.trans (fromRow_id c row))
        subst hstep
        obtain ⟨op, hop, hid', -⟩ := hc.seen a ha id hlast
        exact ⟨op, hop, hid', fun hrunning => absurd (hid' ▸ hlast) (hunseen op hop hrunning)⟩
      · rw [hstep] at hlast ⊢
        exact hc.seen a ha id hlast
    · exact hfalse.elim
  · rw [htables.operations] at hop
    obtain ⟨a', ha', -, hstep⟩ := hmoved.kept a ha
    refine ⟨a', ha', ?_⟩
    unfold Changes at hstep
    split at hstep
    · next hsame =>
      obtain rfl : a = row := Table.eq_of_key ha hrow (hsame.trans (fromRow_id c row))
      exact absurd hlast (hunseen op hop hrunning)
    · exact hstep ▸ .refl a

/-- No archive moves a record out of a location while it is scanned. -/
def SparesScans (c : Catalog R) : Call R → Prop
  | .moveAssetRecord record _ => ∀ op ∈ c.operations.rows, op.state = .running →
      op.locationId ≠ record.fromLocationId
  | _ => True

theorem applyScanBatch_sees {c reader : Catalog R} {operationId : Uuid}
    {rootIdentity : FileIdentity} {batch : ScanBatch R} {opened : RelPath → Result Reading}
    {ids : RelPath → Uuid} {now : Nat} {committed : Committed R}
    (h : c.applyScanBatch reader operationId rootIdentity batch opened ids now = .ok committed) :
    ∃ op, c.Runs (some op) ∧ Sees (some op) c committed.catalog := by
  simp only [applyScanBatch, Result.bind_eq_ok, loadOperationRow_eq_ok, requireRunning_eq_ok] at h
  obtain ⟨digests, -, op, ⟨hop, hid⟩, _, hrunning, location, hlocation, h⟩ := h
  have hruns : c.Runs (some op) := by
    intro op' hop'
    obtain rfl : op = op' := Option.some.inj hop'
    exact ⟨op, hop, rfl, rfl, hrunning⟩
  refine ⟨op, hruns, ?_⟩
  split at h
  · cases h
    exact downgrade_sees c op location _
  · simp only [Result.bind_eq_ok, Result.pure_eq_ok] at h
    obtain ⟨⟨c₁, changed⟩, hbatch, rfl⟩ := h
    refine ((armVerification_sees c op).trans
      (observeBatch_sees (loadLocation_id hlocation) hbatch)).trans ?_
    exact .of_eq rfl rfl fun _ h => h

theorem finishScan_sees {c reader : Catalog R} {operationId : Uuid}
    {observation : ScanObservation R} {rootCheck : Location → Result FileIdentity}
    {opened : RelPath → Result Reading} {ids : RelPath → Uuid} {now : Nat} {committed : Committed R}
    (h : c.finishScan reader operationId observation rootCheck opened ids now = .ok committed) :
    ∃ op, c.Runs (some op) ∧ Sees (some op) c committed.catalog := by
  simp only [finishScan, Result.bind_eq_ok, loadOperationRow_eq_ok, requireRunning_eq_ok,
    Result.require_eq_ok, decide_eq_true_eq] at h
  obtain ⟨_, hstate, digests, -, op, ⟨hop, hid⟩, _, hrunning, _, -, location, hlocation, h⟩ := h
  have hruns : c.Runs (some op) := by
    intro op' hop'
    obtain rfl : op = op' := Option.some.inj hop'
    exact ⟨op, hop, rfl, rfl, hrunning⟩
  refine ⟨op, hruns, ?_⟩
  split at h
  · simp only [Result.bind_eq_ok, Result.pure_eq_ok, finishVerified] at h
    obtain ⟨⟨c₁, changed⟩, ⟨⟨c₂, changed'⟩, hbatch, op', -, c₃, hfinish, heq⟩, rfl⟩ := h
    cases heq
    have harmed : Sees (some op) c (c.armVerification op) := armVerification_sees c op
    have hobserved := harmed.trans (observeBatch_sees (loadLocation_id hlocation) hbatch)
    refine hobserved.trans (.trans ?_ (finishObserved_sees hstate hfinish))
    exact .of_eq rfl rfl fun _ h => h
  · next error _ =>
    simp only [Result.bind_eq_ok, Result.pure_eq_ok, finishUnverified] at h
    obtain ⟨c₁, ⟨op', -, rfl⟩, rfl⟩ := h
    refine (downgrade_sees c op location error).trans (finalizeOperation_sees _ _ ?_ _ _)
    split
    · decide
    · exact hstate

theorem Step.follows {c c' : Catalog R} {call : Call R} (h : Step c call c')
    (hcall : c.SparesScans call) (hc : Scanning c) : Scanning c' ∧ Follows c c' := by
  have hnone : c.Runs none := fun op hop => nomatch hop
  have hother : Sees none c c' → Scanning c' ∧ Follows c c' := fun hsees =>
    ⟨hsees.scanning hnone hc, hsees.follows hnone hc⟩
  have hscan : (∃ op, c.Runs (some op) ∧ Sees (some op) c c') → Scanning c' ∧ Follows c c' := by
    rintro ⟨op, hruns, hsees⟩
    exact ⟨hsees.scanning hruns hc, hsees.follows hruns hc⟩
  unfold Step perform at h
  cases call with
  | registerLocation id name path identity overlap =>
    simp only [registerLocation, Result.bind_eq_ok, Result.pure_eq_ok] at h
    obtain ⟨_, _, locations, _, rfl⟩ := h
    exact hother (.of_eq rfl rfl fun _ h => h)
  | reselectLocation id expectedRevision path identity overlap =>
    simp only [reselectLocation, Result.bind_eq_ok, Result.pure_eq_ok] at h
    obtain ⟨current, _, _, _, _, _, _, _, _, _, rfl⟩ := h
    exact hother (.of_eq rfl rfl fun _ h => h)
  | markLocationUnavailable id availability reason =>
    simp only [markLocationUnavailable, Result.bind_eq_ok] at h
    obtain ⟨_, _, current, _, _, _, h⟩ := h
    have hunavailable : Sees none c (c.setLocationUnavailable id availability) :=
      .of_eq rfl rfl fun _ h => h
    split at h
    · simp only [Result.bind_eq_ok, Result.pure_eq_ok] at h
      obtain ⟨op, _, rfl⟩ := h
      exact hother ((hunavailable.trans (addIssue_sees _ _ _ _ _)).trans
        (markScopeIncomplete_sees _ _ _))
    · cases h
      exact hother hunavailable
  | beginScan id locationId scope now => exact beginScan_follows h hc
  | applyScanBatch reader operationId rootIdentity batch opened ids now =>
    simp only [Result.map_eq_ok] at h
    obtain ⟨committed, hcommitted, rfl⟩ := h
    exact hscan (applyScanBatch_sees hcommitted)
  | finishScan reader operationId observation rootCheck opened ids now =>
    simp only [Result.map_eq_ok] at h
    obtain ⟨committed, hcommitted, rfl⟩ := h
    exact hscan (finishScan_sees hcommitted)
  | abortScan operationId state reason =>
    simp only [abortScan, Result.bind_eq_ok, Result.require_eq_ok, Bool.or_eq_true,
      decide_eq_true_eq, Result.pure_eq_ok] at h
    obtain ⟨_, hstate, op, _, _, _, location, _, rfl⟩ := h
    refine hother ((addIssue_sees c _ _ _ _).trans (finalizeOperation_sees _ _ ?_ _ _))
    rintro rfl
    rcases hstate with hstate | hstate <;> cases hstate
  | setQuality reader expected quality sources now =>
    simp only [setQuality, Result.bind_eq_ok] at h
    obtain ⟨digests, -, assets, -, h⟩ := h
    exact hother (decideAll_sees h)
  | verifyDigest reader assetId sources now =>
    simp only [verifyDigest, Result.bind_eq_ok, Result.pure_eq_ok] at h
    obtain ⟨_, _, _, _, digest, _, _, _, rfl⟩ := h
    exact hother (.updateAssets fun _ => rfl)
  | verifyDuplicateCandidates reader operationId assets sources completed now =>
    simp only [verifyDuplicateCandidates, Result.bind_eq_ok] at h
    obtain ⟨_, _, _, _, _, _, h⟩ := h
    exact hother (bindCandidates_sees h)
  | recordCopyLink left right =>
    cases h
    refine hother ?_
    unfold recordCopyLink
    simp only
    split
    · exact .refl c
    · exact .of_eq rfl rfl fun _ h => h
  | correct expected corrections =>
    simp only [correctInTxn, Result.map_eq_ok, Result.bind_eq_ok] at h
    obtain ⟨⟨c₁, changed⟩, ⟨_, _, h⟩, rfl⟩ := h
    exact hother (correctAssets_sees h)
  | recordTrashed storageOperationId frames now =>
    simp only [recordTrashed, Result.bind_eq_ok] at h
    obtain ⟨_, _, h⟩ := h
    split at h
    · cases h
    · exact hother (recordFrames_sees h)
  | reviewRemap reader id locationId expectedRevision proposedRoot proposedIdentity files =>
    simp only [reviewRemap, Result.bind_eq_ok, Result.pure_eq_ok] at h
    obtain ⟨location, _, _, _, _, _, remapReviews, _, rfl⟩ := h
    exact hother (.of_eq rfl rfl fun _ h => h)
  | applyRemap reader reviewId expectedRevision files overlap now =>
    obtain ⟨review, -, -, -, -, h⟩ := applyRemap_eq_ok h
    obtain ⟨remapped, hrows, rfl⟩ := applyRemapRows_eq_ok h
    have hroot : Sees none c (c.remapLocation review) := .of_eq rfl rfl fun _ h => h
    exact hother ((hroot.trans (remapRows_sees hrows)).trans (.of_eq rfl rfl fun _ h => h))
  | moveAssetRecord record now => exact moveAssetRecord_follows hcall h hc
  | retireLocation locationId expectedRevision review =>
    simp only [retireLocation, Result.bind_eq_ok, Result.pure_eq_ok] at h
    obtain ⟨location, _, _, _, _, _, _, _, _, _, rfl⟩ := h
    exact hother (.of_eq rfl rfl fun _ h => h)

end Catalog

end PlateVault.Library
