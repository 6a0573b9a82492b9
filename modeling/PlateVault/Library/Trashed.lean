import PlateVault.Library.ScanLaws

/-!
# Trashed records and their episodes

A record is Trashed exactly while it has an open episode, as long as no call takes a Trashed record
out of the Trash without ending its episode: a remap and a record move make the records they touch
available, and a scan issue that asserts Trashed makes live records Trashed.
-/

namespace PlateVault.Library

variable {R : Reader}

namespace Catalog

def InTrash (c : Catalog R) (id : Uuid) : Prop :=
  ∃ episode ∈ c.episodes, episode.assetId = id ∧ episode.putBackAt = none

structure TrashKept (c : Catalog R) : Prop where
  trashed_iff : ∀ a ∈ c.assets.rows, a.availability = .trashed ↔ c.InTrash a.id
  known : ∀ id, c.InTrash id → ∃ a ∈ c.assets.rows, a.id = id
  locations : ∀ location ∈ c.locations.rows, location.availability ≠ .trashed

theorem TrashKept.empty : TrashKept (.empty : Catalog R) where
  trashed_iff := fun a ha => by simp [Catalog.empty] at ha
  known := fun id ⟨episode, hmem, _⟩ => by simp [Catalog.empty] at hmem
  locations := fun location h => by simp [Catalog.empty, Table.empty] at h

theorem TrashKept.fromRow_iff {c : Catalog R} (h : TrashKept c) (row : Asset R) :
    (c.fromRow row).availability = .trashed ↔ row.availability = .trashed := by
  constructor
  · intro hread
    obtain ⟨availability, heq, htrashed⟩ := c.fromRow_eq row
    rw [heq] at hread
    rcases htrashed hread with hrow | ⟨location, hmem, hlocation⟩
    · exact hrow
    · exact absurd hlocation (h.locations location hmem)
  · exact fromRow_trashed

/-- A call that neither trashes a record nor takes one out of the Trash. -/
structure LeavesTrash (c c' : Catalog R) : Prop where
  rows : Evolves (fun a a' => a'.availability = .trashed ↔ a.availability = .trashed)
    (fun a => a.availability ≠ .trashed) c c'
  episodes : c'.episodes = c.episodes
  locations : ∀ location ∈ c'.locations.rows, location.availability = .trashed →
    ∃ location ∈ c.locations.rows, location.availability = .trashed

namespace LeavesTrash

theorem refl (c : Catalog R) : LeavesTrash c c :=
  ⟨.refl (fun _ => Iff.rfl) c, rfl, fun location hmem h => ⟨location, hmem, h⟩⟩

theorem trans {c c' c'' : Catalog R} (h : LeavesTrash c c') (h' : LeavesTrash c' c'') :
    LeavesTrash c c'' where
  rows := .trans (fun _ _ _ hab hbd => hbd.trans hab) (fun _ _ hN hab => fun hb => hN (hab.mp hb))
    h.rows h'.rows
  episodes := h'.episodes.trans h.episodes
  locations := fun location hmem htrashed => by
    obtain ⟨location', hmem', htrashed'⟩ := h'.locations location hmem htrashed
    exact h.locations location' hmem' htrashed'

theorem kept {c c' : Catalog R} (h : LeavesTrash c c') (hc : TrashKept c) : TrashKept c' := by
  have hin : ∀ id, c'.InTrash id ↔ c.InTrash id := by
    intro id
    simp only [InTrash, h.episodes]
  constructor
  · intro a' ha'
    rw [hin]
    rcases h.rows.row a' ha' with ⟨a, ha, hid, hstep⟩ | ⟨hnew, hfresh⟩
    · rw [hstep, ← hid]
      exact hc.trashed_iff a ha
    · constructor
      · exact fun htrashed => absurd htrashed hnew
      · intro hopen
        obtain ⟨a, ha, hid⟩ := hc.known _ hopen
        exact absurd hid (hfresh a ha)
  · intro id hopen
    obtain ⟨a, ha, rfl⟩ := hc.known id ((hin id).mp hopen)
    obtain ⟨a', ha', hid, -⟩ := h.rows.kept a ha
    exact ⟨a', ha', hid⟩
  · intro location hmem htrashed
    obtain ⟨location', hmem', htrashed'⟩ := h.locations location hmem htrashed
    exact hc.locations location' hmem' htrashed'

theorem of_eq {c c' : Catalog R} (hassets : c'.assets = c.assets)
    (hepisodes : c'.episodes = c.episodes) (hlocations : c'.locations = c.locations) :
    LeavesTrash c c' :=
  ⟨.of_eq (fun _ => Iff.rfl) hassets, hepisodes,
    fun location hmem h => ⟨location, hlocations ▸ hmem, h⟩⟩

theorem after {c c' c'' : Catalog R} (h : LeavesTrash c' c'') (hassets : c'.assets = c.assets)
    (hepisodes : c'.episodes = c.episodes) (hlocations : c'.locations = c.locations) :
    LeavesTrash c c'' :=
  trans (of_eq hassets hepisodes hlocations) h

theorem updateAssets {c : Catalog R} {p : Asset R → Bool} {f : Asset R → Asset R} {hid hplace}
    (h : ∀ a ∈ c.assets.rows, p a = true →
      ((f a).availability = .trashed ↔ a.availability = .trashed)) :
    LeavesTrash c (c.updateAssets p f hid hplace) :=
  ⟨.updateAssets h fun _ _ _ => Iff.rfl, rfl, fun location hmem h => ⟨location, hmem, h⟩⟩

theorem updateLocation {c : Catalog R} {id : Uuid} {f : Location → Location} {hid}
    (h : ∀ location, (f location).availability = .trashed → location.availability = .trashed) :
    LeavesTrash c (c.updateLocation id f hid) := by
  refine ⟨.of_eq (fun _ => Iff.rfl) rfl, rfl, fun location hmem htrashed => ?_⟩
  obtain ⟨old, hold, rfl⟩ := (Table.mem_updateWhere hid).mp hmem
  split at htrashed
  · exact ⟨old, hold, h old htrashed⟩
  · exact ⟨old, hold, htrashed⟩

end LeavesTrash

/-! ## Scans -/

theorem armVerification_leavesTrash (c : Catalog R) (op : Operation) :
    LeavesTrash c (c.armVerification op) := by
  unfold armVerification
  split
  · simp only
    refine .trans ?_ (.updateAssets fun _ _ _ => Iff.rfl)
    split
    · exact .after (.updateLocation fun _ h => h) rfl rfl rfl
    · exact .of_eq rfl rfl rfl
  · exact .refl c

theorem recordIssue_leavesTrash {c c' : Catalog R} {op : Operation} {issue : ScanIssue}
    (hissue : issue.availability ≠ .trashed) (h : c.recordIssue op issue = .ok c') :
    LeavesTrash c c' := by
  obtain ⟨scope, hrec⟩ := recordIssue_eq_ok h
  refine ⟨hrec.rows.mono (fun a _ a' hmarked => ?_) fun _ => False.elim, hrec.tables.episodes,
    fun location hmem htrashed => ⟨location, hrec.tables.locations ▸ hmem, htrashed⟩⟩
  unfold Marked at hmarked
  split at hmarked
  · next hcover =>
    simp only [covers, Asset.live, Bool.and_eq_true, decide_eq_true_eq] at hcover
    subst hmarked
    exact iff_of_false hissue hcover.1.1
  · exact hmarked ▸ Iff.rfl

theorem recordIssues_leavesTrash {c c' : Catalog R} {op : Operation} {issues : List ScanIssue}
    (hissues : ∀ issue ∈ issues, issue.availability ≠ .trashed)
    (h : Run (fun c issue c' => c.recordIssue op issue = .ok c') c issues c') :
    LeavesTrash c c' := by
  induction h with
  | nil c => exact .refl c
  | cons hstep _ ih =>
    exact (recordIssue_leavesTrash (hissues _ List.mem_cons_self) hstep).trans
      (ih fun issue hissue => hissues issue (List.mem_cons_of_mem _ hissue))

theorem refreshAsset_leavesTrash {c c' : Catalog R} {op : Operation} {stored : Asset R}
    {file : ScanFile R} {seen : ObservationFingerprint} {observedAt : Nat} {change : Change}
    (hlive : ∀ a ∈ c.assets.rows, a.id = stored.id → a.availability ≠ .trashed)
    (h : c.refreshAsset op stored file seen observedAt = .ok (c', change)) : LeavesTrash c c' := by
  obtain ⟨hrows, htables⟩ := refreshAsset_evolves h
  refine ⟨hrows.mono (fun a ha a' hstep => ?_) fun _ => False.elim, htables.episodes,
    fun location hmem htrashed => ⟨location, htables.locations ▸ hmem, htrashed⟩⟩
  unfold Refreshes at hstep
  split at hstep
  · next hid =>
    refine iff_of_false ?_ (hlive a ha hid)
    rw [hstep.availability]
    decide
  · exact hstep ▸ Iff.rfl

theorem putBack_kept {c c' : Catalog R} {op : Operation} {row : Asset R} {stored : Asset R}
    {file : ScanFile R} {seen : ObservationFingerprint} {observedAt : Nat} {change : Change}
    (hc : TrashKept c) (hid : stored.id = row.id)
    (h : (c.closeEpisode row.id observedAt).refreshAsset op stored file seen observedAt =
      .ok (c', change)) : TrashKept c' := by
  obtain ⟨hrows, htables⟩ := refreshAsset_evolves h
  have hin : ∀ id, c'.InTrash id ↔ c.InTrash id ∧ id ≠ row.id := by
    intro id
    simp only [InTrash, htables.episodes, closeEpisode, List.mem_map]
    constructor
    · rintro ⟨_, ⟨episode, hmem, rfl⟩, hasset, hopen⟩
      split at hopen
      · cases hopen
      · next hother =>
        rw [if_neg hother] at hasset
        refine ⟨⟨episode, hmem, hasset, hopen⟩, fun heq => hother ⟨hasset.trans heq, hopen⟩⟩
    · rintro ⟨⟨episode, hmem, hasset, hopen⟩, hne⟩
      refine ⟨episode, ⟨episode, hmem, ?_⟩, hasset, hopen⟩
      rw [if_neg fun hrow => hne (hasset.symm.trans hrow.1)]
  constructor
  · intro a' ha'
    rw [hin]
    obtain ⟨a, ha, hsame, hstep⟩ | ⟨hfalse, -⟩ := hrows.row a' ha'
    · unfold Refreshes at hstep
      split at hstep
      · next hrow =>
        refine iff_of_false ?_ fun hopen => hopen.2 ?_
        · rw [hstep.availability]
          decide
        · rw [← hsame, hrow, hid]
      · next hrow =>
        have hne : a.id ≠ row.id := fun heq => hrow (heq.trans hid.symm)
        rw [hstep]
        simp only [hne, ne_eq, not_false_eq_true, and_true]
        exact hc.trashed_iff a ha
    · exact hfalse.elim
  · intro id hopen
    obtain ⟨a, ha, rfl⟩ := hc.known id ((hin id).mp hopen).1
    obtain ⟨a', ha', hid', -⟩ := hrows.kept a ha
    exact ⟨a', ha', hid'⟩
  · intro location hmem
    rw [htables.locations] at hmem
    exact hc.locations location hmem

theorem compared_id (c : Catalog R) (stored : Asset R) : (c.compared stored).id = stored.id := by
  unfold compared
  split <;> rfl

theorem markScopes_leavesTrash (op : Operation) (variants : List RelPath) (c : Catalog R) :
    LeavesTrash c (variants.foldl (fun c variant => c.markScopeIncomplete op.id variant) c) := by
  induction variants generalizing c with
  | nil => exact .refl c
  | cons variant variants ih =>
    have hmark : LeavesTrash c (c.markScopeIncomplete op.id variant) := .of_eq rfl rfl rfl
    exact hmark.trans (ih _)

theorem Observes.kept {c c' : Catalog R} {op : Operation} {location : Location} {file : ScanFile R}
    {digest : Option Text} {observedAt : Nat}
    (h : Observes c op location file digest observedAt c') (hc : TrashKept c) : TrashKept c' := by
  cases h with
  | issues recorded _ availability =>
    refine (recordIssues_leavesTrash (fun issue hissue => ?_) (recordIssues_run recorded)).kept hc
    rcases availability issue hissue with h | h <;> rw [h] <;> decide
  | @refreshed row _ matched live _ refresh =>
    refine (refreshAsset_leavesTrash (fun a ha hid => ?_) refresh).kept hc
    have hrow : a = row := Table.eq_of_key ha matched.mem (hid.trans (fromRow_id c row))
    rw [hrow]
    exact fun htrashed => live ((hc.fromRow_iff row).mpr htrashed)
  | putBack matched _ _ refresh =>
    exact putBack_kept hc ((compared_id c _).trans (fromRow_id c _)) refresh
  | inserted unrecorded insert =>
    obtain ⟨hrows, htables, -⟩ := insertAsset_eq_ok insert
    refine ((markScopes_leavesTrash op _ c).trans ⟨hrows.mono (fun a _ a' hsame => ?_)
      fun a hnew => ?_, htables.episodes, fun location hmem htrashed =>
        ⟨location, htables.locations ▸ hmem, htrashed⟩⟩).kept hc
    · rw [show a' = a from hsame]
    · rw [hnew.availability]
      decide

theorem observeBatch_kept {c c' : Catalog R} {op : Operation} {location : Location}
    {files : List (ScanFile R)} {issues : List ScanIssue} {digests : DigestMap}
    {ids : RelPath → Uuid} {observedAt : Nat} {changed : BatchChanges}
    (hissues : ∀ issue ∈ issues, issue.availability ≠ .trashed) (hc : TrashKept c)
    (h : c.observeBatch op location files issues digests ids observedAt = .ok (c', changed)) :
    TrashKept c' := by
  obtain ⟨middle, hfiles, hrecorded⟩ := observeBatch_runs h
  have hmiddle : TrashKept middle :=
    hfiles.invariant (fun _ _ _ hs hstep => Observes.kept hstep hs) hc
  clear hfiles h
  induction hrecorded with
  | nil => exact hmiddle
  | cons hstep _ ih =>
    refine ih (fun issue hissue => hissues issue (List.mem_cons_of_mem _ hissue)) ?_
    exact (recordIssue_leavesTrash (hissues _ List.mem_cons_self) hstep.recorded).kept hmiddle

theorem reconcileAbsence_leavesTrash (c : Catalog R) (op : Operation)
    (complete incomplete : List RelPath) :
    LeavesTrash c (c.reconcileAbsence op complete incomplete) := by
  refine .updateAssets fun a _ ha => ?_
  simp only [Asset.live, Bool.and_eq_true, decide_eq_true_eq] at ha
  exact iff_of_false (by simp) ha.1.1.1.1.1.1

theorem unavailableFor_ne (error : LibraryError) : unavailableFor error ≠ .trashed := by
  cases error <;> simp [unavailableFor]

theorem downgrade_leavesTrash (c : Catalog R) (op : Operation) (location : Location)
    (error : LibraryError) : LeavesTrash c (c.downgrade op location error) := by
  unfold downgrade setLocationUnavailable
  refine LeavesTrash.after (.updateLocation fun location h => ?_) rfl rfl rfl
  exact absurd h (unavailableFor_ne error)

theorem endRehashRun_leavesTrash (c : Catalog R) (op : Operation) (ended : Bool) :
    LeavesTrash c (c.endRehashRun op ended) := by
  unfold endRehashRun
  split
  · exact .updateLocation fun _ h => h
  · exact .refl c

theorem markLocationObserved_leavesTrash (c : Catalog R) (id : Uuid) :
    LeavesTrash c (c.markLocationObserved id) :=
  .updateLocation fun _ h => by simp at h

theorem finishObserved_leavesTrash {c c' : Catalog R} {op : Operation}
    {observation : ScanObservation R} {proven : Bool}
    (h : c.finishObserved op observation proven = .ok c') : LeavesTrash c c' := by
  simp only [finishObserved, Result.bind_eq_ok, Result.pure_eq_ok] at h
  obtain ⟨recorded, -, complete, -, rfl⟩ := h
  refine .trans (.trans ?_ (endRehashRun_leavesTrash _ _ _)) (.of_eq rfl rfl rfl)
  split
  · exact .refl c
  · exact reconcileAbsence_leavesTrash c op _ _

theorem applyScanBatch_kept {c reader : Catalog R} {operationId : Uuid}
    {rootIdentity : FileIdentity} {batch : ScanBatch R} {opened : RelPath → Result Reading}
    {ids : RelPath → Uuid} {now : Nat} {committed : Committed R}
    (hissues : ∀ issue ∈ batch.issues, issue.availability ≠ .trashed) (hc : TrashKept c)
    (h : c.applyScanBatch reader operationId rootIdentity batch opened ids now = .ok committed) :
    TrashKept committed.catalog := by
  simp only [applyScanBatch, Result.bind_eq_ok] at h
  obtain ⟨digests, -, op, -, -, -, location, -, h⟩ := h
  split at h
  · next error _ =>
    cases h
    exact (downgrade_leavesTrash c op location error).kept hc
  · simp only [Result.bind_eq_ok, Result.pure_eq_ok] at h
    obtain ⟨⟨c₁, changed⟩, hbatch, rfl⟩ := h
    have hobserved := observeBatch_kept hissues ((armVerification_leavesTrash c op).kept hc) hbatch
    exact (markLocationObserved_leavesTrash c₁ location.id).kept hobserved

theorem finishScan_kept {c reader : Catalog R} {operationId : Uuid}
    {observation : ScanObservation R} {rootCheck : Location → Result FileIdentity}
    {opened : RelPath → Result Reading} {ids : RelPath → Uuid} {now : Nat} {committed : Committed R}
    (hissues : ∀ issue ∈ observation.issues, issue.availability ≠ .trashed) (hc : TrashKept c)
    (h : c.finishScan reader operationId observation rootCheck opened ids now = .ok committed) :
    TrashKept committed.catalog := by
  simp only [finishScan, Result.bind_eq_ok] at h
  obtain ⟨-, -, digests, -, op, -, -, -, -, -, location, -, h⟩ := h
  split at h
  · simp only [Result.bind_eq_ok, Result.pure_eq_ok, finishVerified] at h
    obtain ⟨⟨c₁, changed⟩, ⟨⟨c₂, changed'⟩, hbatch, op', -, c₃, hfinish, heq⟩, rfl⟩ := h
    cases heq
    have hobserved := observeBatch_kept
      (fun issue hissue => hissues issue (List.mem_filter.mp hissue).1)
      ((armVerification_leavesTrash c op).kept hc) hbatch
    exact (finishObserved_leavesTrash hfinish).kept
      ((markLocationObserved_leavesTrash c₂ location.id).kept hobserved)
  · next error _ =>
    simp only [Result.bind_eq_ok, Result.pure_eq_ok, finishUnverified] at h
    obtain ⟨c₁, ⟨op', -, rfl⟩, rfl⟩ := h
    have hdown := (downgrade_leavesTrash c op location error).kept hc
    exact LeavesTrash.kept (c := c.downgrade op location error) (.of_eq rfl rfl rfl) hdown

/-! ## Decisions and digests -/

theorem recordDecision_leavesTrash (c : Catalog R) (decision : QualityDecision) :
    LeavesTrash c (c.recordDecision decision) := .of_eq rfl rfl rfl

theorem decideQuality_leavesTrash {c c' : Catalog R} {asset : Asset R} {quality : Quality}
    {digest : Option Hashed} {source : Source} {decidedAt : Nat}
    (h : c.decideQuality asset quality digest source decidedAt = .ok c') : LeavesTrash c c' := by
  simp only [decideQuality, Result.bind_eq_ok, Result.pure_eq_ok] at h
  obtain ⟨bound, -, rfl⟩ := h
  refine .trans (.updateAssets fun _ _ _ => ?_) (recordDecision_leavesTrash _ _)
  exact Iff.rfl

theorem decideAll_leavesTrash {quality : Quality} {digests : List Hashed} {sources : Sources}
    {decidedAt : Nat} {assets : List (Asset R)} {c c' : Catalog R}
    (h : c.decideAll quality digests sources decidedAt assets = .ok c') : LeavesTrash c c' := by
  induction assets generalizing c with
  | nil =>
    cases h
    exact .refl _
  | cons asset assets ih =>
    simp only [decideAll, Result.bind_eq_ok] at h
    obtain ⟨c₁, hone, hrest⟩ := h
    exact (decideQuality_leavesTrash hone).trans (ih hrest)

theorem setQuality_leavesTrash {c c' reader : Catalog R} {expected : List ExpectedAsset}
    {quality : Quality} {sources : Sources} {now : Nat}
    (h : c.setQuality reader expected quality sources now = .ok c') : LeavesTrash c c' := by
  simp only [setQuality, Result.bind_eq_ok] at h
  obtain ⟨digests, -, assets, -, h⟩ := h
  exact decideAll_leavesTrash h

theorem bindDigest_leavesTrash (c : Catalog R) (id : Uuid) (sha256 : Text) (verifiedAt : Nat) :
    LeavesTrash c (c.bindDigest id sha256 verifiedAt) :=
  .updateAssets fun _ _ _ => Iff.rfl

theorem bindCandidates_leavesTrash {verifiedAt : Nat} {hashed : List Hashed} {c c' : Catalog R}
    (h : c.bindCandidates verifiedAt hashed = .ok c') : LeavesTrash c c' := by
  induction hashed generalizing c with
  | nil =>
    cases h
    exact .refl _
  | cons one hashed ih =>
    simp only [bindCandidates, Result.bind_eq_ok] at h
    obtain ⟨asset, -, hrest⟩ := h
    refine .trans ?_ (ih hrest)
    split
    · exact bindDigest_leavesTrash c _ _ _
    · exact .refl c

theorem correctAssets_leavesTrash {corrections : List CorrectionInput} {ids : List Uuid}
    {c c' : Catalog R} {changed changed' : List Uuid}
    (h : c.correctAssets corrections changed ids = .ok (c', changed')) : LeavesTrash c c' := by
  induction ids generalizing c changed with
  | nil =>
    cases h
    exact .refl _
  | cons id ids ih =>
    simp only [correctAssets, correctAsset, Result.bind_eq_ok, Result.pure_eq_ok] at h
    obtain ⟨⟨c₁, moved⟩, ⟨asset, -, effective, -, heq⟩, hrest⟩ := h
    cases heq
    refine .trans ?_ (ih hrest)
    refine .after (.updateAssets fun _ _ _ => ?_) rfl rfl rfl
    exact Iff.rfl

/-! ## The OS Trash -/

theorem inTrash_addEpisode (c : Catalog R) {episode : TrashEpisode}
    (hopen : episode.putBackAt = none) (id : Uuid) :
    (c.addEpisode episode).InTrash id ↔ c.InTrash id ∨ id = episode.assetId := by
  constructor
  · rintro ⟨found, hmem, hasset, hfound⟩
    rcases List.mem_append.mp hmem with hold | hnew
    · exact .inl ⟨found, hold, hasset, hfound⟩
    · rw [List.mem_singleton] at hnew
      exact .inr (by rw [← hasset, hnew])
  · rintro (⟨found, hmem, hasset, hfound⟩ | rfl)
    · exact ⟨found, List.mem_append_left _ hmem, hasset, hfound⟩
    · exact ⟨episode, List.mem_append_right _ (List.mem_singleton_self _), rfl, hopen⟩

theorem markTrashed_evolves (c : Catalog R) (id : Uuid) :
    Evolves (Changes id fun a => { a with availability := .trashed, verificationPending := false })
      (fun _ => False) c (c.markTrashed id) := by
  refine .updateAssets (fun a _ ha => ?_) fun a _ ha => ?_
  · simp [Changes, of_decide_eq_true ha]
  · simp [Changes, of_decide_eq_false ha]

theorem recordFrame_kept {c c' : Catalog R} {storageOperationId : Uuid} {frame : TrashedFrame}
    {trashedAt : Nat} (hc : TrashKept c)
    (h : c.recordFrame storageOperationId frame trashedAt = .ok c') : TrashKept c' := by
  simp only [recordFrame, Result.bind_eq_ok] at h
  obtain ⟨asset, hload, h⟩ := h
  obtain ⟨row, hrow, -, rfl⟩ := loadAsset_eq_ok.mp hload
  split at h
  · split at h
    · cases h
      exact hc
    · cases h
  · next hnone =>
    simp only [Result.bind_eq_ok, Result.pure_eq_ok, fromRow_id] at h
    obtain ⟨-, -, -, -, -, -, rfl⟩ := h
    have hrows := markTrashed_evolves c row.id
    constructor
    · intro a' ha'
      rw [inTrash_addEpisode _ rfl]
      obtain ⟨a, ha, hsame, hstep⟩ | ⟨hfalse, -⟩ := hrows.row a' ha'
      · unfold Changes at hstep
        split at hstep
        · next hid => simp [hstep, hid]
        · next hid =>
          rw [hstep]
          exact ⟨fun h => .inl ((hc.trashed_iff a ha).mp h),
            fun h => (hc.trashed_iff a ha).mpr (h.resolve_right hid)⟩
      · exact hfalse.elim
    · intro id hopen
      rw [inTrash_addEpisode _ rfl] at hopen
      have hknown : ∃ a ∈ c.assets.rows, a.id = id := by
        rcases hopen with hopen | rfl
        · exact hc.known id hopen
        · exact ⟨row, hrow, rfl⟩
      obtain ⟨a, ha, rfl⟩ := hknown
      obtain ⟨a', ha', hid, -⟩ := hrows.kept a ha
      exact ⟨a', ha', hid⟩
    · exact hc.locations

theorem recordFrame_refused {c c' : Catalog R} {storageOperationId : Uuid} {frame : TrashedFrame}
    {trashedAt : Nat} {episode : TrashEpisode} (hopen : c.openEpisode frame.assetId = some episode)
    (hother : episode.storageOperationId ≠ storageOperationId) :
    c.recordFrame storageOperationId frame trashedAt ≠ .ok c' := by
  intro h
  simp only [recordFrame, Result.bind_eq_ok] at h
  obtain ⟨asset, hload, h⟩ := h
  obtain ⟨row, -, hid, rfl⟩ := loadAsset_eq_ok.mp hload
  rw [fromRow_id, hid, hopen] at h
  simp [hother] at h

theorem recordFrames_kept {storageOperationId : Uuid} {trashedAt : Nat}
    {frames : List TrashedFrame} {c c' : Catalog R} (hc : TrashKept c)
    (h : c.recordFrames storageOperationId trashedAt frames = .ok c') : TrashKept c' := by
  induction frames generalizing c with
  | nil =>
    cases h
    exact hc
  | cons frame frames ih =>
    simp only [recordFrames, Result.bind_eq_ok] at h
    obtain ⟨c₁, hone, hrest⟩ := h
    exact ih (recordFrame_kept hc hone) hrest

theorem recordTrashed_kept {c c' : Catalog R} {storageOperationId : Uuid}
    {frames : List TrashedFrame} {now : Nat} (hc : TrashKept c)
    (h : c.recordTrashed storageOperationId frames now = .ok c') : TrashKept c' := by
  simp only [recordTrashed, Result.bind_eq_ok] at h
  obtain ⟨-, -, h⟩ := h
  split at h
  · cases h
  · exact recordFrames_kept hc h

/-! ## Remaps and record moves -/

theorem remapRows_leavesTrash {assets : List (Asset R)} {verifiedAt : Nat}
    {items : List RemapItem} {c c' : Catalog R}
    (hlive : ∀ a ∈ c.assets.rows, (∃ asset ∈ assets, asset.id = a.id) → a.availability ≠ .trashed)
    (h : c.remapRows assets verifiedAt items = .ok c') : LeavesTrash c c' := by
  induction items generalizing c with
  | nil =>
    cases h
    exact .refl _
  | cons item items ih =>
    simp only [remapRows, Result.bind_eq_ok, Result.orElse_eq_ok] at h
    obtain ⟨asset, hfind, hrest⟩ := h
    have hmem := List.mem_of_find?_eq_some hfind
    have hone : LeavesTrash c (c.remapRow asset item verifiedAt) := by
      refine .updateAssets fun a ha hid => ?_
      refine iff_of_false (by simp) (hlive a ha ⟨asset, hmem, ?_⟩)
      exact (of_decide_eq_true hid).symm
    refine hone.trans (ih (fun a' ha' hasset => ?_) hrest)
    obtain ⟨a, ha, rfl⟩ := mem_updateAssets.mp ha'
    split
    · simp
    · next hother =>
      rw [if_neg hother] at hasset
      exact hlive a ha hasset

theorem applyRemap_eq_ok {c c' reader : Catalog R} {reviewId : Uuid} {expectedRevision : Nat}
    {files : RemapFiles} {overlap : Result Unit} {now : Nat}
    (h : c.applyRemap reader reviewId expectedRevision files overlap now = .ok c') :
    ∃ review, reader.remapReviews.find? reviewId = some review ∧
      requireSameAssets review (reader.locationAssets review.locationId) = .ok () ∧
      verifyItems files (reader.locationAssets review.locationId) review.items = .ok () ∧
      requireSameAssets review (c.locationAssets review.locationId) = .ok () ∧
      c.applyRemapRows review (c.locationAssets review.locationId) files now = .ok c' := by
  simp only [applyRemap, Result.bind_eq_ok, Result.orElse_eq_ok] at h
  obtain ⟨review, hreview, _, _, location, hlocation, _, _, _, _, _, _, _, _, _, hsame, _, _, _,
    hverify, _, _, current, _, _, _, _, _, stored, _, _, _, _, hsame', _, _, h⟩ := h
  have hid : location.id = review.locationId := by
    simp only [loadLocation, Result.orElse_eq_ok] at hlocation
    exact Table.find?_key hlocation
  rw [hid] at hsame' h
  exact ⟨review, hreview, hsame, hverify, hsame', h⟩

theorem applyRemapRows_eq_ok {c c' : Catalog R} {review : RemapReview} {assets : List (Asset R)}
    {files : RemapFiles} {now : Nat} (h : c.applyRemapRows review assets files now = .ok c') :
    ∃ remapped, (c.remapLocation review).remapRows assets now review.items = .ok remapped ∧
      c' = remapped.settleReview review.id := by
  simp only [applyRemapRows, Result.bind_eq_ok, Result.pure_eq_ok] at h
  obtain ⟨_, _, remapped, hrows, rfl⟩ := h
  exact ⟨remapped, hrows, rfl⟩

theorem mem_locationAssets {c : Catalog R} {id : Uuid} {a : Asset R} :
    a ∈ c.locationAssets id ↔ ∃ row ∈ c.assets.rows, row.locationId = id ∧ a = c.fromRow row := by
  simp only [locationAssets, List.mem_map, List.mem_filter, decide_eq_true_eq]
  constructor
  · rintro ⟨row, ⟨hmem, hid⟩, rfl⟩
    exact ⟨row, hmem, hid, rfl⟩
  · rintro ⟨row, hmem, hid, rfl⟩
    exact ⟨row, ⟨hmem, hid⟩, rfl⟩

theorem applyRemap_leavesTrash {c c' reader : Catalog R} {reviewId : Uuid} {expectedRevision : Nat}
    {files : RemapFiles} {overlap : Result Unit} {now : Nat}
    (hlive : ∀ review, reader.remapReviews.find? reviewId = some review →
      ∀ a ∈ c.assets.rows, a.locationId = review.locationId → a.availability ≠ .trashed)
    (h : c.applyRemap reader reviewId expectedRevision files overlap now = .ok c') :
    LeavesTrash c c' := by
  obtain ⟨review, hreview, -, -, -, h⟩ := applyRemap_eq_ok h
  obtain ⟨remapped, hrows, rfl⟩ := applyRemapRows_eq_ok h
  have hroot : LeavesTrash c (c.remapLocation review) := by
    refine .updateLocation fun location h => ?_
    simp at h
  have hremap : LeavesTrash (c.remapLocation review) remapped := by
    refine remapRows_leavesTrash (fun a ha hasset => ?_) hrows
    obtain ⟨asset, hasset, hid⟩ := hasset
    obtain ⟨row, hrow, hlocation, rfl⟩ := mem_locationAssets.mp hasset
    have : row = a := Table.eq_of_key hrow ha ((fromRow_id c row).symm.trans hid)
    exact this ▸ hlive review hreview row hrow hlocation
  exact (hroot.trans hremap).trans (.of_eq rfl rfl rfl)

theorem moveAssetRecord_leavesTrash {c c' : Catalog R} {record : RecordMove} {now : Nat}
    (hlive : ∀ a ∈ c.assets.rows, a.id = record.assetId → a.availability ≠ .trashed)
    (h : c.moveAssetRecord record now = .ok c') : LeavesTrash c c' := by
  simp only [moveAssetRecord, Result.bind_eq_ok] at h
  obtain ⟨asset, hload, _, _, _, _, hmove⟩ := h
  obtain ⟨row, hrow, hid, rfl⟩ := loadAsset_eq_ok.mp hload
  have htables := SameTables.moveAsset hmove
  refine ⟨.moveAsset hmove (fun a ha hsame => ?_) fun _ _ _ => Iff.rfl, htables.episodes,
    fun location hmem htrashed => ⟨location, htables.locations ▸ hmem, htrashed⟩⟩
  exact iff_of_false (by simp) (hlive a ha (hsame.trans ((fromRow_id c row).trans hid)))

/-! ## Every call -/

/-- The calls under which trashed records and open episodes stay together: no scan issue asserts
Trashed, a remap is of a location that holds no Trashed record, and no Trashed record is moved. -/
def SparesTrash (c : Catalog R) : Call R → Prop
  | .applyScanBatch _ _ _ batch _ _ _ => ∀ issue ∈ batch.issues, issue.availability ≠ .trashed
  | .finishScan _ _ observation _ _ _ _ =>
    ∀ issue ∈ observation.issues, issue.availability ≠ .trashed
  | .applyRemap reader reviewId _ _ _ _ =>
    ∀ review, reader.remapReviews.find? reviewId = some review →
      ∀ a ∈ c.assets.rows, a.locationId = review.locationId → a.availability ≠ .trashed
  | .moveAssetRecord record _ =>
    ∀ a ∈ c.assets.rows, a.id = record.assetId → a.availability ≠ .trashed
  | _ => True

theorem Step.trashKept {c c' : Catalog R} {call : Call R} (h : Step c call c')
    (hcall : c.SparesTrash call) (hc : TrashKept c) : TrashKept c' := by
  unfold Step perform at h
  cases call with
  | registerLocation id name path identity overlap =>
    simp only [registerLocation, Result.bind_eq_ok, Result.orElse_eq_ok, Result.pure_eq_ok] at h
    obtain ⟨_, _, locations, hinsert, rfl⟩ := h
    refine LeavesTrash.kept (c := c)
      ⟨.of_eq (fun _ => Iff.rfl) rfl, rfl, fun location hmem htrashed => ?_⟩ hc
    simp only at hmem
    rw [(Table.insert?_eq_some hinsert).2] at hmem
    rcases List.mem_append.mp hmem with hold | hnew
    · exact ⟨location, hold, htrashed⟩
    · rw [List.mem_singleton] at hnew
      simp [hnew] at htrashed
  | reselectLocation id expectedRevision path identity overlap =>
    simp only [reselectLocation, Result.bind_eq_ok, Result.pure_eq_ok] at h
    obtain ⟨current, _, _, _, _, _, _, _, _, _, rfl⟩ := h
    exact LeavesTrash.kept (.updateLocation fun location h => by simp at h) hc
  | markLocationUnavailable id availability reason =>
    simp only [markLocationUnavailable, Result.bind_eq_ok, Result.require_eq_ok, Bool.or_eq_true,
      decide_eq_true_eq] at h
    obtain ⟨_, hav, current, _, _, _, h⟩ := h
    have hunavailable : LeavesTrash c (c.setLocationUnavailable id availability) := by
      refine .updateLocation fun location h => ?_
      rcases hav with (hav | hav) | hav <;> simp [hav] at h
    split at h
    · simp only [Result.bind_eq_ok, Result.pure_eq_ok] at h
      obtain ⟨op, _, rfl⟩ := h
      exact LeavesTrash.kept (c := c.setLocationUnavailable id availability) (.of_eq rfl rfl rfl)
        (hunavailable.kept hc)
    · cases h
      exact hunavailable.kept hc
  | beginScan id locationId scope now =>
    simp only [beginScan, Result.bind_eq_ok, Result.pure_eq_ok] at h
    obtain ⟨location, _, _, _, _, _, _, _, operations, _, rfl⟩ := h
    exact LeavesTrash.kept (c := c) (.of_eq rfl rfl rfl) hc
  | applyScanBatch reader operationId rootIdentity batch opened ids now =>
    simp only [Result.map_eq_ok] at h
    obtain ⟨committed, hcommitted, rfl⟩ := h
    exact applyScanBatch_kept hcall hc hcommitted
  | finishScan reader operationId observation rootCheck opened ids now =>
    simp only [Result.map_eq_ok] at h
    obtain ⟨committed, hcommitted, rfl⟩ := h
    exact finishScan_kept hcall hc hcommitted
  | abortScan operationId state reason =>
    simp only [abortScan, Result.bind_eq_ok, Result.pure_eq_ok] at h
    obtain ⟨_, _, op, _, _, _, location, _, rfl⟩ := h
    exact LeavesTrash.kept (c := c) (.of_eq rfl rfl rfl) hc
  | setQuality reader expected quality sources now => exact (setQuality_leavesTrash h).kept hc
  | verifyDigest reader assetId sources now =>
    simp only [verifyDigest, Result.bind_eq_ok, Result.pure_eq_ok] at h
    obtain ⟨_, _, _, _, digest, _, _, _, rfl⟩ := h
    exact (bindDigest_leavesTrash c _ _ _).kept hc
  | verifyDuplicateCandidates reader operationId assets sources completed now =>
    simp only [verifyDuplicateCandidates, Result.bind_eq_ok] at h
    obtain ⟨_, _, _, _, _, _, h⟩ := h
    exact (bindCandidates_leavesTrash h).kept hc
  | recordCopyLink left right =>
    cases h
    refine LeavesTrash.kept (c := c) ?_ hc
    unfold recordCopyLink
    simp only
    split
    · exact .refl c
    · exact .of_eq rfl rfl rfl
  | correct expected corrections =>
    simp only [correctInTxn, Result.map_eq_ok, Result.bind_eq_ok] at h
    obtain ⟨⟨c₁, changed⟩, ⟨_, _, h⟩, rfl⟩ := h
    exact (correctAssets_leavesTrash h).kept hc
  | recordTrashed storageOperationId frames now => exact recordTrashed_kept hc h
  | reviewRemap reader id locationId expectedRevision proposedRoot proposedIdentity files =>
    simp only [reviewRemap, Result.bind_eq_ok, Result.pure_eq_ok] at h
    obtain ⟨location, _, _, _, _, _, remapReviews, _, rfl⟩ := h
    exact LeavesTrash.kept (c := c) (.of_eq rfl rfl rfl) hc
  | applyRemap reader reviewId expectedRevision files overlap now =>
    exact (applyRemap_leavesTrash hcall h).kept hc
  | moveAssetRecord record now => exact (moveAssetRecord_leavesTrash hcall h).kept hc
  | retireLocation locationId expectedRevision review =>
    simp only [retireLocation, Result.bind_eq_ok, Result.pure_eq_ok] at h
    obtain ⟨location, _, _, _, _, _, _, _, _, _, rfl⟩ := h
    exact LeavesTrash.kept (.updateLocation fun location h => h) hc

theorem TrashKept.recordTrashed {c : Catalog R} (hc : TrashKept c) {a : Asset R}
    (ha : a ∈ c.assets.rows) (hlive : a.availability ≠ .trashed)
    (hactive : (c.fromRow a).availability ≠ .retired) (storageOperationId : Uuid)
    {frame : TrashedFrame} (hframe : frame.assetId = a.id) (hvalid : validSha256 frame.sha256 = true)
    (hdigest : ∀ sha ∈ a.fingerprint.contentSha256, sha = frame.sha256) (now : Nat) :
    ∃ c', c.recordTrashed storageOperationId [frame] now = .ok c' ∧
      ∀ a' ∈ c'.assets.rows, a'.id = a.id → a'.availability = .trashed := by
  have hload : c.loadAsset frame.assetId = .ok (c.fromRow a) :=
    loadAsset_eq_ok.mpr ⟨a, ha, hframe.symm, rfl⟩
  have hopen : c.openEpisode a.id = none := by
    refine List.find?_eq_none.mpr fun episode hmem h => hlive ((hc.trashed_iff a ha).mpr ?_)
    simp only [Bool.and_eq_true, decide_eq_true_eq, Option.isNone_iff_eq_none] at h
    exact ⟨episode, hmem, h.1, h.2⟩
  have hread : (c.fromRow a).availability ≠ .trashed := mt (hc.fromRow_iff a).mp hlive
  have hsha : a.fingerprint.contentSha256.all (· = frame.sha256) = true := by
    cases h : a.fingerprint.contentSha256 with
    | none => rfl
    | some sha => simpa using hdigest sha h
  refine ⟨(c.markTrashed a.id).addEpisode ⟨a.id, storageOperationId, frame.sha256, now, none⟩, ?_,
    fun a' ha' hid => ?_⟩
  · simp [Catalog.recordTrashed, recordFrames, recordFrame, hload, hopen, hvalid, hread, hactive,
      hsha, Result.require]
  · obtain ⟨old, -, hsame, hstep⟩ | ⟨hfalse, -⟩ := (markTrashed_evolves c a.id).row a' ha'
    · rw [Changes, if_pos (hsame.trans hid)] at hstep
      rw [hstep]
    · exact hfalse.elim

/-- In every catalog that calls which spare the Trash lead to, a record is Trashed exactly while it
has an open episode; so a record that left Trashed can be recorded as Trashed by any operation. -/
theorem trashed_iff_open_episode {calls : List (Call R)} {c : Catalog R}
    (h : Run (fun c call c' => c.SparesTrash call ∧ Step c call c') .empty calls c) :
    (∀ a ∈ c.assets.rows, a.availability = .trashed ↔
      ∃ episode ∈ c.episodes, episode.assetId = a.id ∧ episode.putBackAt = none) ∧
    ∀ a ∈ c.assets.rows, a.availability ≠ .trashed → (c.fromRow a).availability ≠ .retired →
      ∀ (storageOperationId : Uuid) (frame : TrashedFrame) (now : Nat), frame.assetId = a.id →
        validSha256 frame.sha256 = true →
        (∀ sha ∈ a.fingerprint.contentSha256, sha = frame.sha256) →
        ∃ c', c.recordTrashed storageOperationId [frame] now = .ok c' ∧
          ∀ a' ∈ c'.assets.rows, a'.id = a.id → a'.availability = .trashed := by
  have hc : TrashKept c :=
    h.invariant (fun _ _ _ hs hstep => hstep.2.trashKept hstep.1 hs) .empty
  exact ⟨hc.trashed_iff, fun a ha hlive hactive storageOperationId frame now hframe hvalid hdigest =>
    hc.recordTrashed ha hlive hactive storageOperationId hframe hvalid hdigest now⟩

end Catalog

/-! ## A frame on a card, trashed and then remapped -/

def plainReader : Reader where
  Metadata := Unit
  decEq := inferInstance
  applyCorrections := fun observed _ => .ok observed
  sameOn := fun left right _ => left = right

def volumeNamed (id : String) : VolumeIdentity where
  filesystem := "apfs"
  stableId := some id
  fileIdsStable := true
  case := .sensitive
  normalization := .sensitive

def frameOn (volume : String) : ObservationFingerprint where
  identity := ⟨volumeNamed volume, some "7"⟩
  sizeBytes := 10
  modifiedNs := 5
  contentSha256 := none

def frameSha : Text := List.replicate 64 'a'

/-- The frame as hashing reads it on a volume, in its place throughout. -/
def frameSource (volume : String) : Source where
  probe := fun _ => .ok (frameOn volume)
  opened := fun _ => .ok ⟨(frameOn volume).identity, 10, 5, 10, 5, frameSha⟩
  reprobe := fun _ => .ok (frameOn volume)
  handle := fun _ => .ok ⟨(frameOn volume).identity, 10, 5, 10, 5, frameSha⟩

def goneSource : Source where
  probe := fun _ => .error (.sourceUnavailable "no such file")
  opened := fun _ => .error (.sourceUnavailable "no such file")
  reprobe := fun _ => .error (.sourceUnavailable "no such file")
  handle := fun _ => .error (.sourceUnavailable "no such file")

/-- A location is registered and scanned: it holds one frame, whose digest is then taken. -/
def catalogued : List (Catalog plainReader → Call plainReader) :=
  [fun _ => .registerLocation 1 [] ⟨true, []⟩ ⟨volumeNamed "card", some "root"⟩ (.ok ()),
    fun _ => .beginScan 2 1 none 0,
    fun c => .applyScanBatch c 2 ⟨volumeNamed "card", some "root"⟩
      ⟨[⟨["a.fits".toList], frameOn "card", .fits, ()⟩], []⟩
      (fun _ => .error (.sourceUnavailable "not hashed")) (fun _ => 3) 1,
    fun c => .verifyDigest c 3 ⟨.ok (), fun _ => frameSource "card", .ok ()⟩ 2]

def trashedFrame : List (Catalog plainReader → Call plainReader) :=
  catalogued ++ [fun _ => .recordTrashed 4 [⟨3, frameSha⟩] 3]

/-- The frame is gone from the card, and a clone of the card still holds it. -/
def cloneFiles : RemapFiles where
  rootBlocks := 0
  verify := .ok ()
  online := true
  original := fun _ => goneSource
  candidate := fun _ => frameSource "clone"
  verifyAfter := .ok ()

def remappedFrame : List (Catalog plainReader → Call plainReader) :=
  trashedFrame ++
    [fun c => .reviewRemap c 5 1 1 ⟨true, []⟩ ⟨volumeNamed "clone", some "root"⟩ cloneFiles,
      fun c => .applyRemap c 5 1 cloneFiles (.ok ()) 4]

namespace Catalog

theorem trashed_iff_open_episode_of_a_frame :
    ∃ c : Catalog plainReader, ∃ a ∈ c.assets.rows, a.availability = .trashed ∧
      ∃ episode ∈ c.episodes, episode.assetId = a.id ∧ episode.putBackAt = none := by
  have hfollow : ((Catalog.empty.follow trashedFrame).any fun made =>
      made.2.assets.rows.any fun a => a.availability = .trashed) = true := by decide
  obtain ⟨⟨made, c⟩, hmade, hany⟩ := (Option.any_eq_true _ _).mp hfollow
  obtain ⟨a, ha, htrashed⟩ := List.any_eq_true.mp hany
  have hspares : ∀ call ∈ trashedFrame, ∀ c, SparesTrash c (call c) := by
    intro call hcall c
    simp only [trashedFrame, catalogued, List.cons_append, List.nil_append, List.mem_cons,
      List.not_mem_nil, or_false] at hcall
    rcases hcall with rfl | rfl | rfl | rfl | rfl <;> simp [SparesTrash]
  exact ⟨c, a, ha, of_decide_eq_true htrashed,
    ((trashed_iff_open_episode (follow_run hspares hmade)).1 a ha).mp (of_decide_eq_true htrashed)⟩

/-- A remap to a clone makes the trashed frame available and leaves its episode open, so no other
operation can record it as Trashed again. -/
theorem remap_leaves_episode_open :
    ∃ (calls : List (Call plainReader)) (c : Catalog plainReader),
      Run Step .empty calls c ∧ ∃ a ∈ c.assets.rows, a.availability = .available ∧
        (∃ episode ∈ c.episodes, episode.assetId = a.id ∧ episode.putBackAt = none) ∧
        ∀ storageOperationId, storageOperationId ≠ 4 → ∀ now c',
          c.recordTrashed storageOperationId [⟨a.id, frameSha⟩] now ≠ .ok c' := by
  have hfollow : ((Catalog.empty.follow remappedFrame).any fun made =>
      made.2.assets.rows.any fun a => a.availability = .available && a.id = 3 &&
        made.2.openEpisode 3 = some ⟨3, 4, frameSha, 3, none⟩) = true := by decide
  obtain ⟨⟨made, c⟩, hmade, hany⟩ := (Option.any_eq_true _ _).mp hfollow
  obtain ⟨a, ha, hrow⟩ := List.any_eq_true.mp hany
  simp only [Bool.and_eq_true, decide_eq_true_eq] at hrow
  obtain ⟨⟨havailable, hid⟩, hopen⟩ := hrow
  have hrun := follow_run (P := fun _ _ => True) (fun _ _ _ => trivial) hmade
  refine ⟨made, c, ?_, a, ha, havailable, ⟨_, List.mem_of_find?_eq_some hopen, hid.symm, rfl⟩,
    fun storageOperationId hother now => ?_⟩
  · exact hrun.mono fun _ _ _ h => h.2
  · rintro c' h
    simp only [Catalog.recordTrashed, Result.bind_eq_ok] at h
    obtain ⟨-, -, h⟩ := h
    split at h
    · cases h
    · simp only [recordFrames, Result.bind_eq_ok] at h
      obtain ⟨c₁, hframe, -⟩ := h
      refine recordFrame_refused (hid ▸ hopen) hother.symm hframe

end Catalog

end PlateVault.Library
