import PlateVault.Library.Absence
import PlateVault.Sessions.Regrouped

/-!
# Which assets a call moves

A record's capture evidence is its effective metadata. A call replaces it only of assets it regroups
afterwards, and inserts only assets it regroups; every other call leaves all evidence as it is.
-/

namespace PlateVault.Library

variable {R : Reader}

def Change.moved : Change → List Uuid
  | .unchanged => []
  | .inserted id => [id]
  | .refreshed id regroup => if regroup then [id] else []

theorem record_regroup (changed : BatchChanges) (change : Change) :
    (changed.record change).regroup = change.moved ++ changed.regroup := by
  cases change with
  | unchanged => rfl
  | inserted id => rfl
  | refreshed id regroup => cases regroup <;> rfl

/-- The catalog a call commits; a regroup writes no catalog row. -/
def Halfway.catalog : Halfway R → Result (Catalog R)
  | .settled catalog => .ok catalog
  | .regroups catalog _ _ rest => rest catalog

namespace Catalog

/-- A record's evidence changed only where it is `moved`. -/
def SameEvidence (moved : Uuid → Prop) (a a' : Asset R) : Prop :=
  a'.id = a.id ∧ (a'.effective = a.effective ∨ moved a.id)

/-- Evidence changed, and records are new, only of the assets `moved`. -/
def Moves (moved : Uuid → Prop) (c c' : Catalog R) : Prop :=
  Evolves (SameEvidence moved) (fun a => moved a.id) c c'

theorem SameEvidence.refl (moved : Uuid → Prop) (a : Asset R) : SameEvidence moved a a := ⟨rfl, .inl rfl⟩

namespace Moves

variable {moved moved' : Uuid → Prop} {c c' c'' : Catalog R}

theorem of_eq (h : c'.assets = c.assets) : Moves moved c c' := Evolves.of_eq (.refl moved) h

theorem refl (c : Catalog R) : Moves moved c c := of_eq rfl

theorem trans (h : Moves moved c c') (h' : Moves moved c' c'') : Moves moved c c'' := by
  refine Evolves.trans (fun a b d hab hbd => ⟨hbd.1.trans hab.1, ?_⟩)
    (fun a b ha hab => hab.1 ▸ ha) h h'
  rcases hab.2 with heffective | hmoved
  · exact hbd.2.imp (·.trans heffective) fun hmoved => hab.1 ▸ hmoved
  · exact .inr hmoved

theorem mono (hmoved : ∀ id, moved id → moved' id) (h : Moves moved c c') : Moves moved' c c' :=
  Evolves.mono (fun _ _ _ hsame => ⟨hsame.1, hsame.2.imp_right (hmoved _)⟩) (fun _ => hmoved _) h

theorem updateAssets {p : Asset R → Bool} {f : Asset R → Asset R} {hid hplace}
    (heffective : ∀ a, (f a).effective = a.effective) :
    Moves moved c (c.updateAssets p f hid hplace) :=
  Evolves.updateAssets (fun a _ _ => ⟨hid a, .inl (heffective a)⟩) fun a _ _ => .refl moved a

theorem moveAsset {id : Uuid} {f : Asset R → Asset R} {hid} (h : c.moveAsset id f hid = .ok c')
    (hf : ∀ a ∈ c.assets.rows, a.id = id → (f a).effective = a.effective ∨ moved id) : Moves moved c c' :=
  Evolves.moveAsset h (fun a ha heq => ⟨hid a, heq ▸ hf a ha heq⟩) fun a _ _ => .refl moved a

end Moves

/-! ## Observing -/

variable {moved : Uuid → Prop} {c c' : Catalog R}

theorem recordIssue_still {op : Operation} {issue : ScanIssue}
    (h : c.recordIssue op issue = .ok c') : Moves moved c c' := by
  simp only [recordIssue, Result.bind_eq_ok, Result.pure_eq_ok] at h
  obtain ⟨scope, -, rfl⟩ := h
  have hissue : Moves moved c ((c.addIssue op.id issue.relativePath issue.reason
      issue.availability).markScopeIncomplete op.id scope) := .of_eq rfl
  exact hissue.trans (.updateAssets fun _ => rfl)

theorem recordIssues_still {op : Operation} {issues : List ScanIssue}
    (h : c.recordIssues op issues = .ok c') : Moves moved c c' := by
  induction issues generalizing c with
  | nil =>
    cases h
    exact .refl _
  | cons issue issues ih =>
    simp only [recordIssues, Result.bind_eq_ok] at h
    obtain ⟨c₁, hone, hrest⟩ := h
    exact (recordIssue_still hone).trans (ih hrest)

theorem clearVerified_still (c : Catalog R) (id : Uuid) (seen : ObservationFingerprint)
    (verifiedAt : Nat) : Moves moved c (c.clearVerified id seen verifiedAt) := by
  unfold clearVerified
  split
  · exact .updateAssets fun _ => rfl
  · exact .refl c

theorem refreshAsset_moves {op : Operation} {stored : Asset R} {file : ScanFile R}
    {seen : ObservationFingerprint} {observedAt : Nat} {change : Change}
    (hstored : ∀ a ∈ c.assets.rows, a.id = stored.id → a.effective = stored.effective)
    (h : c.refreshAsset op stored file seen observedAt = .ok (c', change)) :
    Moves (· ∈ change.moved) c c' := by
  unfold refreshAsset at h
  split at h
  · simp only [Result.bind_eq_ok, Result.pure_eq_ok, Prod.mk.injEq] at h
    obtain ⟨c₁, hmove, rfl, rfl⟩ := h
    exact (clearVerified_still c _ _ _).trans (.moveAsset hmove fun _ _ _ => .inl rfl)
  · simp only [Result.bind_eq_ok, Result.pure_eq_ok, Prod.mk.injEq] at h
    obtain ⟨effective, -, c₁, hmove, rfl, rfl⟩ := h
    have hlinked : Moves (· ∈ (Change.refreshed stored.id (effective ≠ stored.effective)).moved) c
        (c.linkDiverged stored seen) := .of_eq (linkDiverged_assets c stored seen)
    refine (hlinked.trans (.moveAsset hmove fun a ha heq => ?_)).trans
      (clearVerified_still c₁ _ _ _)
    rw [linkDiverged_assets] at ha
    by_cases hsame : effective = stored.effective
    · exact .inl (hsame.trans (hstored a ha heq).symm)
    · exact .inr (by simp [Change.moved, hsame])

theorem insertAsset_moves {op : Operation} {location : Location} {file : ScanFile R}
    {seen : ObservationFingerprint} {id : Uuid} {observedAt : Nat} {change : Change}
    (h : c.insertAsset op location file seen id observedAt = .ok (c', change)) :
    Moves (· ∈ change.moved) c c' := by
  simp only [insertAsset, Result.bind_eq_ok, Result.orElse_eq_ok, Result.pure_eq_ok,
    Prod.mk.injEq] at h
  obtain ⟨assets, hinsert, rfl, rfl⟩ := h
  exact Evolves.insert (SameEvidence.refl _) hinsert (by simp [Change.moved])

theorem fromRow_effective (c : Catalog R) (row : Asset R) :
    (c.fromRow row).effective = row.effective := by
  obtain ⟨availability, heq, -⟩ := c.fromRow_eq row
  rw [heq]

theorem compared_effective (c : Catalog R) (stored : Asset R) :
    (c.compared stored).effective = stored.effective := by
  unfold compared
  split <;> rfl

theorem observeTrashed_moves {op : Operation} {stored : Asset R} {file : ScanFile R}
    {seen : ObservationFingerprint} {observedAt : Nat} {change : Change}
    (hstored : ∀ a ∈ c.assets.rows, a.id = stored.id → a.effective = stored.effective)
    (h : c.observeTrashed op stored file seen observedAt = .ok (c', change)) :
    Moves (· ∈ change.moved) c c' := by
  unfold observeTrashed at h
  split at h
  · simp only [Result.bind_eq_ok, Result.pure_eq_ok, Prod.mk.injEq] at h
    obtain ⟨c₁, hissue, rfl, rfl⟩ := h
    exact recordIssue_still hissue
  · simp only [Result.bind_eq_ok] at h
    obtain ⟨⟨c₁, change₁⟩, hrefresh, h⟩ := h
    have hmoves := refreshAsset_moves (c := c.closeEpisode stored.id observedAt)
      (fun a ha heq => by
        rw [compared_effective]
        exact hstored a ha (by rwa [compared_id] at heq)) hrefresh
    have hclose : Moves (· ∈ change₁.moved) c (c.closeEpisode stored.id observedAt) := .of_eq rfl
    have hclosed := hclose.trans hmoves
    cases change₁ with
    | unchanged =>
      cases h
      exact hclosed.mono (by simp [Change.moved])
    | inserted id =>
      cases h
      exact hclosed
    | refreshed id regroup =>
      cases h
      exact hclosed

theorem observeFile_moves {op : Operation} {location : Location} {file : ScanFile R}
    {digest : Option Text} {run : Option Nat} {id : Uuid} {observedAt : Nat} {change : Change}
    (h : c.observeFile op location file digest run id observedAt = .ok (c', change)) :
    Moves (· ∈ change.moved) c c' := by
  simp only [observeFile, Result.bind_eq_ok] at h
  obtain ⟨_, _, _, _, h⟩ := h
  split at h
  · simp only [Result.bind_eq_ok, Result.pure_eq_ok, Prod.mk.injEq] at h
    obtain ⟨c₁, hissue, rfl, rfl⟩ := h
    exact recordIssue_still hissue
  · split at h
    · next stored hfound =>
      obtain ⟨row, hmatched, rfl⟩ := findAsset_existing hfound
      have hstored : ∀ a ∈ c.assets.rows, a.id = (c.fromRow row).id →
          a.effective = (c.fromRow row).effective := by
        intro a ha heq
        rw [fromRow_effective, Table.eq_of_key ha hmatched.mem (heq.trans (fromRow_id c row))]
      split at h
      · exact observeTrashed_moves hstored h
      · split at h
        · exact refreshAsset_moves hstored h
        · split at h
          · simp only [Result.bind_eq_ok, Result.pure_eq_ok, Prod.mk.injEq] at h
            obtain ⟨c₁, hissue, rfl, rfl⟩ := h
            exact recordIssue_still hissue
          · exact refreshAsset_moves hstored h
    · simp only [Result.bind_eq_ok, Result.pure_eq_ok, Prod.mk.injEq] at h
      obtain ⟨c₁, hissues, rfl, rfl⟩ := h
      exact recordIssues_still hissues
    · exact .trans (.of_eq (markScopes_assets op _ c)) (insertAsset_moves h)
    · exact insertAsset_moves h

theorem observeFiles_moves {op : Operation} {location : Location} {digests : DigestMap}
    {run : Option Nat} {ids : RelPath → Uuid} {observedAt : Nat} {files : List (ScanFile R)}
    {changed changed' : BatchChanges}
    (h : c.observeFiles op location digests run ids observedAt changed files =
      .ok (c', changed')) :
    Moves (· ∈ changed'.regroup) c c' ∧ ∀ id ∈ changed.regroup, id ∈ changed'.regroup := by
  induction files generalizing c changed with
  | nil =>
    cases h
    exact ⟨.refl _, fun _ h => h⟩
  | cons file files ih =>
    simp only [observeFiles, Result.bind_eq_ok] at h
    obtain ⟨⟨c₁, change⟩, hone, hrest⟩ := h
    obtain ⟨hmoves, hkept⟩ := ih hrest
    rw [record_regroup] at hkept
    refine ⟨.trans (.mono (fun id hid => hkept id (List.mem_append_left _ hid)) ?_) hmoves,
      fun id hid => hkept id (List.mem_append_right _ hid)⟩
    unfold observeOne at hone
    split at hone
    · simp only [Result.bind_eq_ok, Result.pure_eq_ok, Prod.mk.injEq] at hone
      obtain ⟨c₁, hissue, rfl, rfl⟩ := hone
      exact recordIssue_still hissue
    · exact observeFile_moves hone

theorem recordBatchIssues_still {op : Operation} {issues : List ScanIssue}
    (h : c.recordBatchIssues op issues = .ok c') : Moves moved c c' := by
  induction issues generalizing c with
  | nil =>
    cases h
    exact .refl _
  | cons issue issues ih =>
    simp only [recordBatchIssues, Result.bind_eq_ok] at h
    obtain ⟨_, _, c₁, hone, hrest⟩ := h
    exact (recordIssue_still hone).trans (ih hrest)

theorem armVerification_still (c : Catalog R) (op : Operation) :
    Moves moved c (c.armVerification op) := by
  unfold armVerification
  split
  · simp only
    refine .trans (.of_eq ?_) (.updateAssets fun _ => rfl)
    split <;> rfl
  · exact .refl c

theorem observeBatch_moves {op : Operation} {location : Location} {files : List (ScanFile R)}
    {issues : List ScanIssue} {digests : DigestMap} {ids : RelPath → Uuid} {observedAt : Nat}
    {changed : BatchChanges}
    (h : (c.armVerification op).observeBatch op location files issues digests ids observedAt =
      .ok (c', changed)) : Moves (· ∈ changed.regroup) c c' := by
  simp only [observeBatch, Result.bind_eq_ok, Result.pure_eq_ok, Prod.mk.injEq] at h
  obtain ⟨⟨c₁, changed₁⟩, hfiles, c₂, hissues, rfl, rfl⟩ := h
  exact ((armVerification_still c op).trans (observeFiles_moves hfiles).1).trans
    (recordBatchIssues_still hissues)

/-! ## Correcting -/

theorem correctAssets_moves {corrections : List CorrectionInput} {ids changed changed' : List Uuid}
    (h : c.correctAssets corrections changed ids = .ok (c', changed')) :
    Moves (· ∈ changed') c c' ∧ ∀ id ∈ changed, id ∈ changed' := by
  induction ids generalizing c changed with
  | nil =>
    cases h
    exact ⟨.refl _, fun _ h => h⟩
  | cons id ids ih =>
    simp only [correctAssets, correctAsset, Result.bind_eq_ok, Result.pure_eq_ok] at h
    obtain ⟨⟨c₁, moved⟩, ⟨asset, hload, effective, -, heq⟩, hrest⟩ := h
    cases heq
    obtain ⟨row, hrow, hid, rfl⟩ := loadAsset_eq_ok.mp hload
    obtain ⟨hmoves, hkept⟩ := ih hrest
    have hrecorded : Moves (· ∈ changed') c
        (c.recordCorrections id (corrections.filter (·.assetId = id))) := .of_eq rfl
    refine ⟨(hrecorded.trans ?_).trans hmoves, fun other hother => hkept other ?_⟩
    refine Evolves.updateAssets (fun a ha hsel => ⟨rfl, ?_⟩) fun a _ _ => .refl _ a
    · have hsel : a.id = id := of_decide_eq_true hsel
      by_cases hsame : effective = (c.fromRow row).effective
      · rw [fromRow_effective] at hsame
        obtain rfl : a = row := Table.eq_of_key ha hrow (hsel.trans hid.symm)
        exact .inl hsame
      · refine .inr (hsel ▸ hkept id ?_)
        simp [hsame]
    · split
      · exact List.mem_cons_of_mem _ hother
      · exact hother

/-! ## Calls that regroup nothing -/

theorem finishObserved_still {op : Operation} {observation : ScanObservation R} {proven : Bool}
    (h : c.finishObserved op observation proven = .ok c') : Moves moved c c' := by
  simp only [finishObserved, Result.bind_eq_ok, Result.pure_eq_ok] at h
  obtain ⟨recorded, -, complete, -, rfl⟩ := h
  have hreconciled : ∀ incomplete, Moves moved c
      (if complete.isEmpty then c else c.reconcileAbsence op complete incomplete) := by
    intro incomplete
    split
    · exact .refl c
    · exact .updateAssets fun _ => rfl
  refine (hreconciled (if !terminal observation.state || !proven then
    pushUnique recorded op.scope else recorded)).trans (.of_eq ?_)
  generalize (if complete.isEmpty then c else _) = reconciled
  simp only [finalizeOperation, updateOperation, endRehashRun]
  split <;> rfl

theorem downgrade_still (c : Catalog R) (op : Operation) (location : Location)
    (error : LibraryError) : Moves moved c (c.downgrade op location error) := .of_eq rfl

theorem decideAll_still {quality : Quality} {digests : List Hashed} {sources : Sources}
    {decidedAt : Nat} {assets : List (Asset R)}
    (h : c.decideAll quality digests sources decidedAt assets = .ok c') : Moves moved c c' := by
  induction assets generalizing c with
  | nil =>
    cases h
    exact .refl _
  | cons asset assets ih =>
    simp only [decideAll, Result.bind_eq_ok] at h
    obtain ⟨c₁, hone, hrest⟩ := h
    refine .trans ?_ (ih hrest)
    simp only [decideQuality, Result.bind_eq_ok, Result.pure_eq_ok] at hone
    obtain ⟨bound, -, rfl⟩ := hone
    refine .trans (.updateAssets ?_) (.of_eq (recordDecision_assets _ _))
    exact fun _ => rfl

theorem bindCandidates_still {verifiedAt : Nat} {hashed : List Hashed}
    (h : c.bindCandidates verifiedAt hashed = .ok c') : Moves moved c c' := by
  induction hashed generalizing c with
  | nil =>
    cases h
    exact .refl _
  | cons one hashed ih =>
    simp only [bindCandidates, Result.bind_eq_ok] at h
    obtain ⟨asset, -, hrest⟩ := h
    refine .trans ?_ (ih hrest)
    split
    · exact .updateAssets fun _ => rfl
    · exact .refl c

theorem recordFrames_still {storageOperationId : Uuid} {trashedAt : Nat}
    {frames : List TrashedFrame} (h : c.recordFrames storageOperationId trashedAt frames = .ok c') :
    Moves moved c c' := by
  induction frames generalizing c with
  | nil =>
    cases h
    exact .refl _
  | cons frame frames ih =>
    simp only [recordFrames, recordFrame, Result.bind_eq_ok] at h
    obtain ⟨c₁, ⟨asset, -, hone⟩, hrest⟩ := h
    refine .trans ?_ (ih hrest)
    split at hone
    · split at hone
      · cases hone
        exact .refl c
      · cases hone
    · simp only [Result.bind_eq_ok, Result.pure_eq_ok] at hone
      obtain ⟨-, -, -, -, -, -, rfl⟩ := hone
      have hmarked : Moves moved c (c.markTrashed asset.id) := .updateAssets fun _ => rfl
      exact hmarked.trans (.of_eq rfl)

theorem remapRows_still {assets : List (Asset R)} {verifiedAt : Nat} {items : List RemapItem}
    (h : c.remapRows assets verifiedAt items = .ok c') : Moves moved c c' := by
  induction items generalizing c with
  | nil =>
    cases h
    exact .refl _
  | cons item items ih =>
    simp only [remapRows, Result.bind_eq_ok, Result.orElse_eq_ok] at h
    obtain ⟨asset, -, hrest⟩ := h
    refine .trans (.updateAssets ?_) (ih hrest)
    exact fun _ => rfl

/-- A call is cut at its regroup: what it changed before moves evidence of what it regroups only,
and what it changes afterwards, or a call that regroups nothing, moves none. -/
inductive Cuts (c : Catalog R) : Halfway R → Prop
  | settled {c' : Catalog R} (still : Moves (fun _ => False) c c') : Cuts c (.settled c')
  | regroups {c' : Catalog R} {changed : BatchChanges} {cause : Cause}
      {rest : Catalog R → Result (Catalog R)} (moves : Moves (· ∈ changed.regroup) c c')
      (still : ∀ c₁ c₂, rest c₁ = .ok c₂ → Moves (fun _ => False) c₁ c₂) :
      Cuts c (.regroups c' changed cause rest)

theorem halfBatch_cuts {reader : Catalog R} {operationId : Uuid} {rootIdentity : FileIdentity}
    {batch : ScanBatch R} {opened : RelPath → Result Reading} {ids : RelPath → Uuid} {now : Nat}
    {half : Halfway R}
    (h : c.halfBatch reader operationId rootIdentity batch opened ids now = .ok half) :
    Cuts c half := by
  simp only [halfBatch, Result.bind_eq_ok] at h
  obtain ⟨_, _, op, _, _, _, location, _, h⟩ := h
  split at h
  · cases h
    exact .settled (downgrade_still c op location _)
  · simp only [Result.bind_eq_ok, Result.pure_eq_ok] at h
    obtain ⟨⟨c₁, changed⟩, hbatch, rfl⟩ := h
    refine .regroups (observeBatch_moves hbatch) fun c₁ c₂ hrest => ?_
    cases hrest
    exact .of_eq rfl

theorem halfFinish_cuts {reader : Catalog R} {operationId : Uuid}
    {observation : ScanObservation R} {rootCheck : Location → Result FileIdentity}
    {opened : RelPath → Result Reading} {ids : RelPath → Uuid} {now : Nat} {half : Halfway R}
    (h : c.halfFinish reader operationId observation rootCheck opened ids now = .ok half) :
    Cuts c half := by
  simp only [halfFinish, Result.bind_eq_ok] at h
  obtain ⟨_, _, _, _, op, _, _, _, _, _, location, _, h⟩ := h
  split at h
  · simp only [finishUnverified, Result.bind_eq_ok, Result.pure_eq_ok] at h
    obtain ⟨c₁, ⟨op', -, rfl⟩, rfl⟩ := h
    exact .settled (.of_eq rfl)
  · simp only [Result.bind_eq_ok, Result.pure_eq_ok] at h
    obtain ⟨⟨c₁, changed⟩, hbatch, rfl⟩ := h
    refine .regroups (observeBatch_moves hbatch) fun c₁ c₂ hrest => ?_
    simp only [Result.bind_eq_ok] at hrest
    obtain ⟨op', -, hfinish⟩ := hrest
    have hmarked : Moves (fun _ => False) c₁ (c₁.markLocationObserved location.id) := .of_eq rfl
    exact hmarked.trans (finishObserved_still hfinish)

theorem half_cuts {correctionId : Uuid} {call : Call R} {half : Halfway R}
    (h : c.half correctionId call = .ok half) : Cuts c half := by
  cases call with
  | applyScanBatch reader operationId rootIdentity batch opened ids now => exact halfBatch_cuts h
  | finishScan reader operationId observation rootCheck opened ids now => exact halfFinish_cuts h
  | correct expected corrections =>
    simp only [Catalog.half, correctInTxn, Result.bind_eq_ok, Result.pure_eq_ok] at h
    obtain ⟨⟨c₁, changed⟩, ⟨_, _, hcorrect⟩, rfl⟩ := h
    refine .regroups (correctAssets_moves hcorrect).1 fun c₁ c₂ hrest => ?_
    cases hrest
    exact .refl c₁
  | registerLocation id name path identity overlap =>
    simp only [Catalog.half, perform, registerLocation, Result.bind_eq_ok, Result.pure_eq_ok] at h
    obtain ⟨_, ⟨_, _, locations, _, rfl⟩, rfl⟩ := h
    exact .settled (.of_eq rfl)
  | reselectLocation id expectedRevision path identity overlap =>
    simp only [Catalog.half, perform, reselectLocation, Result.bind_eq_ok, Result.pure_eq_ok] at h
    obtain ⟨_, ⟨current, _, _, _, _, _, _, _, _, _, rfl⟩, rfl⟩ := h
    exact .settled (.of_eq rfl)
  | markLocationUnavailable id availability reason =>
    simp only [Catalog.half, perform, markLocationUnavailable, Result.bind_eq_ok, Result.pure_eq_ok] at h
    obtain ⟨_, ⟨_, _, current, _, _, _, h⟩, rfl⟩ := h
    split at h
    · simp only [Result.bind_eq_ok, Result.pure_eq_ok] at h
      obtain ⟨op, _, rfl⟩ := h
      exact .settled (.of_eq rfl)
    · cases h
      exact .settled (.of_eq rfl)
  | beginScan id locationId scope now =>
    simp only [Catalog.half, perform, beginScan, Result.bind_eq_ok, Result.pure_eq_ok] at h
    obtain ⟨_, ⟨_, _, _, _, _, _, _, _, operations, _, rfl⟩, rfl⟩ := h
    exact .settled (.of_eq rfl)
  | abortScan operationId state reason =>
    simp only [Catalog.half, perform, abortScan, Result.bind_eq_ok, Result.pure_eq_ok] at h
    obtain ⟨_, ⟨_, _, op, _, _, _, location, _, rfl⟩, rfl⟩ := h
    exact .settled (.of_eq rfl)
  | setQuality reader expected quality sources now =>
    simp only [Catalog.half, perform, setQuality, Result.bind_eq_ok, Result.pure_eq_ok] at h
    obtain ⟨_, ⟨digests, -, assets, -, h⟩, rfl⟩ := h
    exact .settled (decideAll_still h)
  | verifyDigest reader assetId sources now =>
    simp only [Catalog.half, perform, verifyDigest, Result.bind_eq_ok, Result.pure_eq_ok] at h
    obtain ⟨_, ⟨_, _, _, _, digest, _, _, _, rfl⟩, rfl⟩ := h
    exact .settled (.updateAssets fun _ => rfl)
  | verifyDuplicateCandidates reader operationId assets sources completed now =>
    simp only [Catalog.half, perform, verifyDuplicateCandidates, Result.bind_eq_ok, Result.pure_eq_ok] at h
    obtain ⟨_, ⟨_, _, _, _, _, _, h⟩, rfl⟩ := h
    exact .settled (bindCandidates_still h)
  | recordCopyLink left right =>
    cases h
    refine .settled (.of_eq ?_)
    unfold recordCopyLink
    simp only
    split <;> rfl
  | recordTrashed storageOperationId frames now =>
    simp only [Catalog.half, perform, recordTrashed, Result.bind_eq_ok, Result.pure_eq_ok] at h
    obtain ⟨_, ⟨_, _, h⟩, rfl⟩ := h
    split at h
    · cases h
    · exact .settled (recordFrames_still h)
  | reviewRemap reader id locationId expectedRevision proposedRoot proposedIdentity files =>
    simp only [Catalog.half, perform, reviewRemap, Result.bind_eq_ok, Result.pure_eq_ok] at h
    obtain ⟨_, ⟨location, _, _, _, _, _, remapReviews, _, rfl⟩, rfl⟩ := h
    exact .settled (.of_eq rfl)
  | applyRemap reader reviewId expectedRevision files overlap now =>
    simp only [Catalog.half, perform, Result.bind_eq_ok, Result.pure_eq_ok] at h
    obtain ⟨_, h, rfl⟩ := h
    obtain ⟨review, -, -, -, -, h⟩ := applyRemap_eq_ok h
    obtain ⟨remapped, hrows, rfl⟩ := applyRemapRows_eq_ok h
    have hroot : Moves (fun _ => False) c (c.remapLocation review) := .of_eq rfl
    exact .settled ((hroot.trans (remapRows_still hrows)).trans (.of_eq rfl))
  | moveAssetRecord record now =>
    simp only [Catalog.half, perform, moveAssetRecord, Result.bind_eq_ok, Result.pure_eq_ok] at h
    obtain ⟨_, ⟨asset, _, _, _, _, _, hmove⟩, rfl⟩ := h
    exact .settled (.moveAsset hmove fun _ _ _ => .inl rfl)
  | retireLocation locationId expectedRevision review =>
    simp only [Catalog.half, perform, retireLocation, Result.bind_eq_ok, Result.pure_eq_ok] at h
    obtain ⟨_, ⟨location, _, _, _, _, _, _, _, _, _, rfl⟩, rfl⟩ := h
    exact .settled (.of_eq rfl)

theorem perform_half {correctionId : Uuid} {call : Call R} {half : Halfway R}
    (h : c.half correctionId call = .ok half) (hrest : half.catalog = .ok c') :
    c.perform call = .ok c' := by
  cases call with
  | applyScanBatch reader operationId rootIdentity batch opened ids now =>
    simp only [Catalog.half, halfBatch, Result.bind_eq_ok] at h
    obtain ⟨digests, hdigests, op, hop, _, hrunning, location, hlocation, h⟩ := h
    simp only [perform, applyScanBatch, Result.map_eq_ok, Result.bind_eq_ok]
    split at h
    · next error hroot =>
      cases h
      cases hrest
      exact ⟨.downgraded (c.downgrade op location error) error, ⟨digests, hdigests, op, hop, _, hrunning, location, hlocation,
        by simp [hroot]⟩, rfl⟩
    · next hroot =>
      simp only [Result.bind_eq_ok, Result.pure_eq_ok] at h
      obtain ⟨⟨c₁, changed⟩, hbatch, rfl⟩ := h
      cases hrest
      exact ⟨.observed (c₁.markLocationObserved location.id) changed, ⟨digests, hdigests, op, hop, _, hrunning, location, hlocation,
        by simp [hroot, hbatch]⟩, rfl⟩
  | finishScan reader operationId observation rootCheck opened ids now =>
    simp only [Catalog.half, halfFinish, Result.bind_eq_ok] at h
    obtain ⟨_, hstate, digests, hdigests, op, hop, _, hrunning, _, hsame, location, hlocation, h⟩ := h
    simp only [perform, finishScan, Result.map_eq_ok, Result.bind_eq_ok]
    split at h
    · next error hroot =>
      simp only [Result.bind_eq_ok, Result.pure_eq_ok] at h
      obtain ⟨c₁, hfinish, rfl⟩ := h
      cases hrest
      exact ⟨.downgraded c' error, ⟨_, hstate, digests, hdigests, op, hop, _, hrunning, _, hsame,
        location, hlocation, by simp [hroot, hfinish]⟩, rfl⟩
    · next proven hroot =>
      simp only [Result.bind_eq_ok, Result.pure_eq_ok] at h
      obtain ⟨⟨c₁, changed⟩, hbatch, rfl⟩ := h
      simp only [Halfway.catalog, Result.bind_eq_ok] at hrest
      obtain ⟨op', hop', hfinish⟩ := hrest
      exact ⟨.observed c' changed, ⟨_, hstate, digests, hdigests, op, hop, _, hrunning, _, hsame,
        location, hlocation, by simp [hroot, finishVerified, hbatch, hop', hfinish]⟩, rfl⟩
  | correct expected corrections =>
    simp only [Catalog.half, Result.bind_eq_ok, Result.pure_eq_ok] at h
    obtain ⟨⟨c₁, changed⟩, hcorrect, rfl⟩ := h
    cases hrest
    simp [perform, hcorrect]
  | _ =>
    simp only [Catalog.half, Result.bind_eq_ok, Result.pure_eq_ok] at h
    obtain ⟨c₁, hperform, rfl⟩ := h
    cases hrest
    exact hperform

end Catalog

end PlateVault.Library
