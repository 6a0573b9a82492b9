import PlateVault.Library.Passing

/-!
# What a finished scan marks Missing

A finish marks a record of its location Missing only where its observation was complete, ended on a
proven root, and neither delivered nor excluded the record's path: whatever the operation's batches
applied before still stands when it finishes, and the rest is observed first.
-/

namespace PlateVault.Library

variable {R : Reader}

/-- A step of a library in use while it is scanned: its hashing read a catalog of the run, and no
archive moves a record out of a scanned location. -/
structure World.Passes (w : World R) (call : Call R) (w' : World R) : Prop where
  step : Catalog.Step w.catalog call w'.catalog
  reader : ∀ reader ∈ call.reader, reader ∈ w.catalog :: w.past
  spares : w.catalog.SparesScans call
  past : w'.past = w.catalog :: w.past
  made : w'.made = call :: w.made

theorem World.Step.passes {w w' : World R} {call : Call R} (h : w.Step call w') :
    w.Passes call w' := by
  refine ⟨h.step, h.reader, ?_, h.past, h.made⟩
  cases call with
  | moveAssetRecord record now => exact absurd rfl (h.stays record now)
  | _ => trivial

namespace Catalog

/-! ## What every reader saw still holds -/

/-- The invariant of running scans, now and in what readers may have seen. -/
structure Passing (w : World R) : Prop where
  scanning : Scanning w.catalog
  past : ∀ reader ∈ w.past, Scanning reader ∧ Follows reader w.catalog

theorem Passing.reader {w : World R} (h : Passing w) {reader : Catalog R}
    (hreader : reader ∈ w.catalog :: w.past) : Scanning reader ∧ Follows reader w.catalog := by
  rcases List.mem_cons.mp hreader with rfl | hpast
  · exact ⟨h.scanning, .refl _⟩
  · exact h.past reader hpast

theorem Passing.step {w w' : World R} {call : Call R} (h : Passing w) (hstep : w.Passes call w') :
    Passing w' := by
  obtain ⟨hscanning, hfollows⟩ := hstep.step.follows hstep.spares h.scanning
  refine ⟨hscanning, fun reader hreader => ?_⟩
  rw [hstep.past] at hreader
  obtain ⟨hbefore, hsaw⟩ := h.reader hreader
  exact ⟨hbefore, hsaw.trans hbefore hfollows⟩

theorem passing_of_run {calls : List (Call R)} {w : World R}
    (h : Run World.Passes .start calls w) : Passing w :=
  h.invariant (fun _ _ _ hw hstep => hw.step hstep) ⟨.empty, by simp [World.start]⟩

/-! ## Observed files -/

/-- The operation observed the record at this path, or left an issue there. -/
def Answered (op : Operation) (path : RelPath) (c : Catalog R) : Prop :=
  (∃ a ∈ c.assets.rows, a.place = (op.locationId, path) ∧ a.lastOperationId = some op.id) ∨
    path ∈ c.loadIssuePaths op.id

theorem mem_loadIssuePaths {c : Catalog R} {id : Uuid} {path : RelPath} :
    path ∈ c.loadIssuePaths id ↔
      ∃ row ∈ c.issues, row.operationId = id ∧ row.issue.relativePath = path := by
  simp only [loadIssuePaths, List.mem_map, List.mem_filter, decide_eq_true_eq, and_assoc]

theorem Answered.sees {c c' : Catalog R} {op : Operation} {path : RelPath}
    (h : Answered op path c) (hsees : Sees (some op) c c') : Answered op path c' := by
  rcases h with ⟨a, ha, hplace, hlast⟩ | hissue
  · obtain ⟨a', ha', -, hobserved⟩ := hsees.rows.kept a ha
    rcases hobserved with ⟨hplace', hlast'⟩ | ⟨op', hop', hseen⟩
    · exact .inl ⟨a', ha', hplace'.trans hplace, hlast'.trans hlast⟩
    · obtain rfl : op = op' := Option.some.inj hop'
      simp only [Asset.place, Prod.mk.injEq] at hplace
      refine .inl ⟨a', ha', ?_, hseen.lastOperationId⟩
      rw [Asset.place, hseen.locationId, hseen.path hlast, hplace.2]
  · obtain ⟨row, hrow, hid, hpath⟩ := mem_loadIssuePaths.mp hissue
    exact .inr (mem_loadIssuePaths.mpr ⟨row, hsees.issues row hrow, hid, hpath⟩)

theorem recordIssues_mem {op : Operation} {issues : List ScanIssue} {c c' : Catalog R}
    (h : Run (fun c issue c' => c.recordIssue op issue = .ok c') c issues c') :
    ∀ issue ∈ issues, issue.relativePath ∈ c'.loadIssuePaths op.id := by
  induction h with
  | nil => simp
  | @cons _ issue _ _ _ hstep hrest ih =>
    refine List.forall_mem_cons.mpr ⟨?_, ih⟩
    obtain ⟨scope, hrecorded⟩ := recordIssue_eq_ok hstep
    have hsees : Sees none _ _ := recordIssues_sees hrest
    refine mem_loadIssuePaths.mpr ⟨⟨op.id, issue⟩, hsees.issues _ ?_, rfl, rfl⟩
    rw [hrecorded.issues]
    exact List.mem_append_right _ (List.mem_singleton_self _)

theorem refreshAsset_answered {c c' : Catalog R} {op : Operation} {location : Location}
    {row : Asset R} {stored : Asset R} {file : ScanFile R} {seen : ObservationFingerprint}
    {observedAt : Nat} {change : Change} (hlocation : location.id = op.locationId)
    (hrow : Matched c op location file.relativePath row) (hid : stored.id = row.id)
    (h : c.refreshAsset op stored file seen observedAt = .ok (c', change)) :
    Answered op file.relativePath c' := by
  obtain ⟨a', ha', -, hstep⟩ := (refreshAsset_evolves h).1.kept row hrow.mem
  rw [Refreshes, if_pos hid.symm] at hstep
  refine .inl ⟨a', ha', ?_, hstep.lastOperationId⟩
  rw [Asset.place, hstep.locationId, hstep.relativePath, hrow.locationId, hlocation]

theorem Observes.answered {c c' : Catalog R} {op : Operation} {location : Location}
    {file : ScanFile R} {digest : Option Text} {observedAt : Nat}
    (hlocation : location.id = op.locationId)
    (h : Observes c op location file digest observedAt c') : Answered op file.relativePath c' := by
  cases h with
  | issues recorded path _ =>
    obtain ⟨issue, hissue, hpath⟩ := path
    exact .inr (hpath ▸ recordIssues_mem (recordIssues_run recorded) issue hissue)
  | refreshed matched _ _ refresh =>
    exact refreshAsset_answered hlocation matched (fromRow_id c _) refresh
  | @putBack row _ matched _ _ refresh =>
    have hmatched : Matched (c.closeEpisode row.id observedAt) op location file.relativePath row :=
      ⟨matched.mem, matched.locationId, matched.path⟩
    exact refreshAsset_answered hlocation hmatched
      ((compared_id c _).trans (fromRow_id c _)) refresh
  | inserted unrecorded insert =>
    simp only [insertAsset, Result.bind_eq_ok, Result.orElse_eq_ok, Result.pure_eq_ok,
      Prod.mk.injEq] at insert
    obtain ⟨assets, hinsert, rfl, -⟩ := insert
    obtain ⟨-, hrows⟩ := Indexed.insert?_eq_some hinsert
    refine .inl ⟨_, hrows ▸ List.mem_append_right _ (List.mem_singleton_self _), ?_, rfl⟩
    rw [← hlocation]
    rfl

theorem observeBatch_answered {c c' : Catalog R} {op : Operation} {location : Location}
    {files : List (ScanFile R)} {issues : List ScanIssue} {digests : DigestMap}
    {ids : RelPath → Uuid} {observedAt : Nat} {changed : BatchChanges}
    (hlocation : location.id = op.locationId)
    (h : c.observeBatch op location files issues digests ids observedAt = .ok (c', changed)) :
    ∀ file ∈ files, Answered op file.relativePath c' := by
  obtain ⟨middle, hfiles, hrecorded⟩ := observeBatch_runs h
  have hissues : Sees (some op) middle c' :=
    recordIssues_sees (hrecorded.mono fun _ _ _ hstep => hstep.recorded)
  have hanswered : ∀ file ∈ files, Answered op file.relativePath middle := by
    clear h hrecorded hissues
    induction hfiles with
    | nil => simp
    | @cons _ file _ files _ hstep hrest ih =>
      refine List.forall_mem_cons.mpr ⟨?_, ih⟩
      have hlater := hrest.relates (I := fun _ => True) (R := Sees (some op)) .refl
        (fun _ _ _ h h' => h.trans h') (fun _ _ _ _ _ => trivial)
        (fun _ _ _ _ hstep => Observes.sees hlocation hstep) trivial
      exact (Observes.answered hlocation hstep).sees hlater
  exact fun file hfile => (hanswered file hfile).sees hissues

theorem unappliedFiles_answered {reader : Catalog R} {op row : Operation} (hid : row.id = op.id)
    (hlocation : row.locationId = op.locationId) (hrow : row ∈ reader.operations.rows)
    (hrunning : row.state = .running) (hreader : Scanning reader) {files : List (ScanFile R)}
    {file : ScanFile R} (hfile : file ∈ files)
    (hunapplied : file ∉ reader.unappliedFiles op.id files) :
    Answered op file.relativePath reader := by
  simp only [unappliedFiles, List.mem_filter, not_and, Bool.not_eq_true, Bool.and_eq_false_iff,
    Bool.not_eq_false'] at hunapplied
  rcases hunapplied hfile with happlied | hissue
  · obtain ⟨a, hfound, -⟩ := (Option.any_eq_true _ _).mp happlied
    have hpath : a.relativePath = file.relativePath := by
      simpa only [decide_eq_true_eq] using List.find?_some hfound
    have hmem := List.mem_reverse.mp (List.mem_of_find?_eq_some hfound)
    obtain ⟨stored, hstored, rfl⟩ := List.mem_map.mp hmem
    obtain ⟨hstored, hlast⟩ := List.mem_filter.mp hstored
    have hlast' : stored.lastOperationId = some op.id := of_decide_eq_true hlast
    obtain ⟨row', hrow', hid', hplace⟩ := hreader.seen stored hstored _ hlast'
    obtain rfl : row' = row := Table.eq_of_key hrow' hrow (hid'.trans hid.symm)
    refine .inl ⟨stored, hstored, ?_, hlast'⟩
    rw [Asset.place, hplace hrunning, hlocation, ← hpath, fromRow_relativePath]
  · exact .inr (by simpa using hissue)

/-! ## No record becomes Missing before absence is reconciled -/

def MarksNone (c c' : Catalog R) : Prop :=
  Evolves (fun a a' => a'.availability = .missing → a.availability = .missing)
    (fun a => a.availability ≠ .missing) c c'

namespace MarksNone

variable {c c' c'' : Catalog R}

theorem refl (c : Catalog R) : MarksNone c c := Evolves.refl (fun _ h => h) c

theorem trans (h : MarksNone c c') (h' : MarksNone c' c'') : MarksNone c c'' :=
  Evolves.trans (fun _ _ _ hab hbd hd => hab (hbd hd)) (fun _ _ hnew hab hb => hnew (hab hb)) h h'

theorem of_eq (h : c'.assets = c.assets) : MarksNone c c' := Evolves.of_eq (fun _ h => h) h

theorem updateAssets {p : Asset R → Bool} {f : Asset R → Asset R} {hid hplace}
    (h : ∀ a, (f a).availability = .missing → a.availability = .missing) :
    MarksNone c (c.updateAssets p f hid hplace) :=
  Evolves.updateAssets (fun a _ _ => h a) fun _ _ _ h => h

theorem missing (h : MarksNone c c') {a' : Asset R} (ha' : a' ∈ c'.assets.rows)
    (hmissing : a'.availability = .missing) :
    ∃ a ∈ c.assets.rows, a.id = a'.id ∧ a.availability = .missing := by
  obtain ⟨a, ha, hid, hstep⟩ | ⟨hnew, -⟩ := h.row a' ha'
  · exact ⟨a, ha, hid, hstep hmissing⟩
  · exact absurd hmissing hnew

end MarksNone

theorem armVerification_marksNone (c : Catalog R) (op : Operation) :
    MarksNone c (c.armVerification op) := by
  unfold armVerification
  split
  · simp only
    refine .trans (.of_eq ?_) (.updateAssets fun _ h => h)
    split <;> rfl
  · exact .refl c

theorem recordIssue_marksNone {c c' : Catalog R} {op : Operation} {issue : ScanIssue}
    (hissue : issue.availability ≠ .missing) (h : c.recordIssue op issue = .ok c') :
    MarksNone c c' := by
  simp only [recordIssue, Result.bind_eq_ok, Result.pure_eq_ok] at h
  obtain ⟨scope, -, rfl⟩ := h
  refine .trans (.of_eq ?_) (.updateAssets fun _ h => absurd h hissue)
  rfl

theorem recordIssues_marksNone {c c' : Catalog R} {op : Operation} {issues : List ScanIssue}
    (hissues : ∀ issue ∈ issues, issue.availability ≠ .missing)
    (h : Run (fun c issue c' => c.recordIssue op issue = .ok c') c issues c') : MarksNone c c' := by
  induction h with
  | nil c => exact .refl c
  | cons hstep _ ih =>
    obtain ⟨hissue, hissues⟩ := List.forall_mem_cons.mp hissues
    exact (recordIssue_marksNone hissue hstep).trans (ih hissues)

theorem refreshAsset_marksNone {c c' : Catalog R} {op : Operation} {stored : Asset R}
    {file : ScanFile R} {seen : ObservationFingerprint} {observedAt : Nat} {change : Change}
    (h : c.refreshAsset op stored file seen observedAt = .ok (c', change)) : MarksNone c c' := by
  refine (refreshAsset_evolves h).1.mono (fun a _ a' hstep hmissing => ?_) fun _ => False.elim
  unfold Refreshes at hstep
  split at hstep
  · rw [hstep.availability] at hmissing
    cases hmissing
  · exact hstep ▸ hmissing

theorem markScopes_assets (op : Operation) (variants : List RelPath) (c : Catalog R) :
    (variants.foldl (fun c variant => c.markScopeIncomplete op.id variant) c).assets =
      c.assets := by
  induction variants generalizing c with
  | nil => rfl
  | cons variant variants ih => exact ih _

theorem Observes.marksNone {c c' : Catalog R} {op : Operation} {location : Location}
    {file : ScanFile R} {digest : Option Text} {observedAt : Nat}
    (h : Observes c op location file digest observedAt c') : MarksNone c c' := by
  cases h with
  | issues recorded _ availability =>
    refine recordIssues_marksNone (fun issue hissue hmissing => ?_) (recordIssues_run recorded)
    rcases availability issue hissue with h | h <;> rw [h] at hmissing <;> cases hmissing
  | refreshed _ _ _ refresh => exact refreshAsset_marksNone refresh
  | @putBack row _ _ _ _ refresh =>
    have hclose : MarksNone c (c.closeEpisode row.id observedAt) := .of_eq rfl
    exact hclose.trans (refreshAsset_marksNone refresh)
  | inserted _ insert =>
    obtain ⟨hrows, -, -⟩ := insertAsset_eq_ok insert
    refine MarksNone.trans (.of_eq (markScopes_assets op _ c))
      (hrows.mono (fun a _ a' hsame hmissing => ?_) fun a hnew hmissing => ?_)
    · exact hsame ▸ hmissing
    · rw [hnew.availability] at hmissing
      cases hmissing

theorem observeBatch_marksNone {c c' : Catalog R} {op : Operation} {location : Location}
    {files : List (ScanFile R)} {issues : List ScanIssue} {digests : DigestMap}
    {ids : RelPath → Uuid} {observedAt : Nat} {changed : BatchChanges}
    (h : c.observeBatch op location files issues digests ids observedAt = .ok (c', changed)) :
    MarksNone c c' := by
  obtain ⟨middle, hfiles, hrecorded⟩ := observeBatch_runs h
  have hobserved : MarksNone c middle := hfiles.relates (I := fun _ => True) (R := MarksNone) .refl
    (fun _ _ _ h h' => h.trans h') (fun _ _ _ _ _ => trivial)
    (fun _ _ _ _ hstep => Observes.marksNone hstep) trivial
  have hissues : MarksNone middle c' := hrecorded.relates (I := fun _ => True) (R := MarksNone) .refl
    (fun _ _ _ h h' => h.trans h') (fun _ _ _ _ _ => trivial)
    (fun _ _ _ _ hstep => recordIssue_marksNone hstep.valid.2 hstep.recorded) trivial
  exact hobserved.trans hissues

/-! ## The finish -/

structure Unseen (c : Catalog R) (op : Operation) (complete incomplete : List RelPath)
    (a : Asset R) : Prop where
  mem : a ∈ c.assets.rows
  locationId : a.locationId = op.locationId
  lastOperationId : a.lastOperationId ≠ some op.id
  complete : ∃ scope ∈ complete, within a.relativePath scope = true
  incomplete : ∀ scope ∈ incomplete, within a.relativePath scope = false
  issues : ∀ path ∈ c.loadIssuePaths op.id, within a.relativePath path = false

theorem Unseen.not_answered {c : Catalog R} {op : Operation} {complete incomplete : List RelPath}
    {a : Asset R} (h : Unseen c op complete incomplete a) {path : RelPath}
    (hanswered : Answered op path c) : path ≠ a.relativePath := by
  rintro rfl
  rcases hanswered with ⟨b, hb, hplace, hlast⟩ | hissue
  · have hsame : b = a := c.assets.eq_of_index hb h.mem (by rw [hplace, Asset.place, h.locationId])
    exact h.lastOperationId (hsame ▸ hlast)
  · have hoff := h.issues _ hissue
    rw [within_refl] at hoff
    cases hoff

theorem reconcileAbsence_unseen {c : Catalog R} {op : Operation} {complete incomplete : List RelPath}
    {a' : Asset R} (ha' : a' ∈ (c.reconcileAbsence op complete incomplete).assets.rows)
    (hmissing : a'.availability = .missing) : ∃ a ∈ c.assets.rows, a.id = a'.id ∧
      (a.availability = .missing ∨
        (a.place = a'.place ∧ Unseen c op complete incomplete a)) := by
  obtain ⟨a, ha, rfl⟩ := mem_updateAssets.mp ha'
  refine ⟨a, ha, ?_⟩
  split
  · next hselected =>
    simp only [Bool.and_eq_true, decide_eq_true_eq, Bool.not_eq_true', List.any_eq_false,
      List.any_eq_true, List.mem_append, Bool.not_eq_true] at hselected
    obtain ⟨⟨⟨⟨⟨⟨-, hlocation⟩, -⟩, hlast⟩, -⟩, hcomplete⟩, hincomplete⟩ := hselected
    exact ⟨rfl, .inr ⟨rfl, ha, hlocation, hlast, hcomplete,
      fun scope hscope => hincomplete scope (.inl hscope),
      fun path hpath => hincomplete path (.inr hpath)⟩⟩
  · next hkept =>
    rw [if_neg hkept] at hmissing
    exact ⟨rfl, .inl hmissing⟩

theorem mem_foldl_pushUnique {scopes paths : List RelPath} {path : RelPath} :
    path ∈ scopes.foldl pushUnique paths ↔ path ∈ paths ∨ path ∈ scopes := by
  induction scopes generalizing paths with
  | nil => simp
  | cons scope scopes ih => simp [ih, or_assoc]

theorem relativePath_eq_ok {path checked : RelPath} (h : Library.relativePath path = .ok checked) :
    checked = path := by
  unfold Library.relativePath at h
  split at h
  · cases h
  · cases h
    rfl

theorem mapM_relativePath {paths checked : List RelPath}
    (h : paths.mapM Library.relativePath = .ok checked) : checked = paths := by
  induction paths generalizing checked with
  | nil =>
    cases h
    rfl
  | cons path paths ih =>
    simp only [List.mapM_cons, Result.bind_eq_ok, Result.pure_eq_ok] at h
    obtain ⟨one, hone, rest, hrest, rfl⟩ := h
    rw [relativePath_eq_ok hone, ih hrest]

theorem mem_recordedIncomplete {op : Operation} {observation : ScanObservation R}
    {recorded : List RelPath} (h : recordedIncomplete op observation = .ok recorded)
    {scope : RelPath} (hscope : scope ∈ observation.incompleteScopes) : scope ∈ recorded := by
  simp only [recordedIncomplete, Result.bind_eq_ok, Result.pure_eq_ok] at h
  obtain ⟨scopes, hscopes, rfl⟩ := h
  rw [mapM_relativePath hscopes]
  exact mem_foldl_pushUnique.mpr (.inr hscope)

theorem mem_completeScopes {op : Operation} {observation : ScanObservation R} {proven : Bool}
    {complete : List RelPath} (h : completeScopes op observation proven = .ok complete)
    {scope : RelPath} (hscope : scope ∈ complete) :
    scope ∈ observation.completeScopes ∧ terminal observation.state = true ∧ proven = true := by
  unfold completeScopes at h
  split at h
  · next hproven =>
    simp only [Bool.and_eq_true] at hproven
    simp only [Result.bind_eq_ok, Result.pure_eq_ok] at h
    obtain ⟨scopes, hscopes, rfl⟩ := h
    rw [mapM_relativePath hscopes] at hscope
    have hmem := (mem_foldl_pushUnique.mp hscope).resolve_left (by simp)
    exact ⟨(List.mem_filter.mp hmem).1, hproven.1.1, hproven.2⟩
  · cases h
    cases hscope

theorem finishObserved_unseen {c c' : Catalog R} {op : Operation} {observation : ScanObservation R}
    {proven : Bool} (h : c.finishObserved op observation proven = .ok c') {a' : Asset R}
    (ha' : a' ∈ c'.assets.rows) (hmissing : a'.availability = .missing) :
    ∃ a ∈ c.assets.rows, a.id = a'.id ∧ (a.availability = .missing ∨ (a.place = a'.place ∧
      ∃ complete incomplete, Unseen c op complete incomplete a ∧
        (∀ scope ∈ complete, scope ∈ observation.completeScopes ∧
          terminal observation.state = true ∧ proven = true) ∧
        ∀ scope ∈ observation.incompleteScopes, scope ∈ incomplete)) := by
  simp only [finishObserved, Result.bind_eq_ok, Result.pure_eq_ok] at h
  obtain ⟨recorded, hrecorded, complete, hcomplete, rfl⟩ := h
  have hended : ∀ (middle : Catalog R) ended, (middle.endRehashRun op ended).assets =
      middle.assets := by
    intro middle ended
    unfold endRehashRun
    split <;> rfl
  simp only [finalizeOperation, updateOperation_assets, hended] at ha'
  by_cases hempty : complete.isEmpty
  · rw [if_pos hempty] at ha'
    exact ⟨a', ha', rfl, .inl hmissing⟩
  · rw [if_neg hempty] at ha'
    obtain ⟨a, ha, hid, hunseen⟩ := reconcileAbsence_unseen ha' hmissing
    refine ⟨a, ha, hid, ?_⟩
    rcases hunseen with hwas | ⟨hplace, hunseen⟩
    · exact .inl hwas
    · refine .inr ⟨hplace, complete, _, hunseen,
        fun scope hscope => mem_completeScopes hcomplete hscope, fun scope hscope => ?_⟩
      have hmem := mem_recordedIncomplete hrecorded hscope
      split
      · exact mem_pushUnique.mpr (.inl hmem)
      · exact hmem

/-- What a finish that marks this record Missing was told. -/
structure Marks (c : Catalog R) (observation : ScanObservation R)
    (rootCheck : Location → Result FileIdentity) (a : Asset R) : Prop where
  locationId : a.locationId = observation.locationId
  ended : terminal observation.state = true
  proven : ∃ location ∈ c.locations.rows, location.id = observation.locationId ∧
    ∃ current, rootCheck location = .ok current ∧
      rootProven location.identity current = true ∧
      rootProven location.identity observation.rootIdentity = true
  complete : ∃ scope ∈ observation.completeScopes, within a.relativePath scope = true
  incomplete : ∀ scope ∈ observation.incompleteScopes, within a.relativePath scope = false
  files : ∀ file ∈ observation.files, file.relativePath ≠ a.relativePath

theorem verifyFinish_eq_ok {location : Location} {op : Operation} {observation : ScanObservation R}
    {rootCheck : Result FileIdentity}
    (h : verifyFinish location op observation rootCheck = .ok true) :
    ∃ current, rootCheck = .ok current ∧ rootProven location.identity current = true ∧
      rootProven location.identity observation.rootIdentity = true := by
  simp only [verifyFinish, Result.bind_eq_ok, Result.pure_eq_ok] at h
  obtain ⟨current, hcurrent, -, -, -, -, hproven⟩ := h
  exact ⟨current, hcurrent, (Bool.and_eq_true _ _).mp hproven⟩

theorem finishScan_marks {w : World R} (hw : Passing w) {reader : Catalog R}
    (hreader : reader ∈ w.catalog :: w.past) {operationId : Uuid}
    {observation : ScanObservation R} {rootCheck : Location → Result FileIdentity}
    {opened : RelPath → Result Reading} {ids : RelPath → Uuid} {now : Nat} {committed : Committed R}
    (h : w.catalog.finishScan reader operationId observation rootCheck opened ids now =
      .ok committed) {a' : Asset R} (ha' : a' ∈ committed.catalog.assets.rows)
    (hmissing : a'.availability = .missing)
    (hbefore : ∀ a ∈ w.catalog.assets.rows, a.id = a'.id → a.availability ≠ .missing) :
    Marks w.catalog observation rootCheck a' := by
  obtain ⟨hsane, hfollows⟩ := hw.reader hreader
  obtain ⟨c, past, made⟩ := w
  simp only at h hbefore hfollows ⊢
  simp only [finishScan, Result.bind_eq_ok, loadOperationRow_eq_ok, requireRunning_eq_ok,
    Result.require_eq_ok, decide_eq_true_eq] at h
  obtain ⟨-, -, digests, hdigests, op, ⟨hop, rfl⟩, -, hrunning, -, hlocation, location, hload, h⟩ :=
    h
  have hid := loadLocation_id hload
  have hnot : ∀ {c'}, MarksNone c c' → a' ∉ c'.assets.rows := fun hnone hmem => by
    obtain ⟨a, ha, hid, hwas⟩ := hnone.missing hmem hmissing
    exact hbefore a ha hid hwas
  split at h
  · next proven hproven =>
    simp only [Result.bind_eq_ok, Result.pure_eq_ok, finishVerified, loadOperationRow_eq_ok] at h
    obtain ⟨⟨c₁, changed⟩, ⟨⟨c₂, changed'⟩, hbatch, op', ⟨hop', hid'⟩, c₃, hfinish, heq⟩, rfl⟩ := h
    cases heq
    have harmed : Sees (some op) c (c.armVerification op) := armVerification_sees c op
    have hsees : Sees (some op) c c₂ := harmed.trans (observeBatch_sees hid hbatch)
    have hnone : MarksNone c (c₂.markLocationObserved location.id) :=
      ((armVerification_marksNone c op).trans (observeBatch_marksNone hbatch)).trans (.of_eq rfl)
    -- the operation is the one that was loaded
    have hplace' : op'.locationId = op.locationId := by
      obtain ⟨row, hrow, hlater⟩ := hsees.before op' hop'
      obtain rfl : row = op := Table.eq_of_key hrow hop (hlater.id.symm.trans hid')
      exact hlater.locationId
    have hanswered : ∀ file ∈ observation.files, Answered op file.relativePath c₂ := by
      intro file hfile
      by_cases hunapplied : file ∈ reader.unappliedFiles op.id observation.files
      · exact observeBatch_answered hid hbatch file hunapplied
      · simp only [digestsBefore, Result.bind_eq_ok, loadOperationRow_eq_ok] at hdigests
        obtain ⟨row, ⟨hrow, hrowId⟩, -⟩ := hdigests
        obtain ⟨later, hmem, hlater⟩ := hfollows.operations row hrow
        obtain rfl : later = op := Table.eq_of_key hmem hop (hlater.id.trans hrowId)
        have happlied := unappliedFiles_answered hrowId hlater.locationId.symm hrow
          (hlater.running hrunning) hsane hfile hunapplied
        refine Answered.sees ?_ hsees
        rcases happlied with ⟨a, ha, hplace, hlast⟩ | hissue
        · obtain ⟨a', ha', hplace', hlast'⟩ := hfollows.rows later hop hrunning a ha hlast
          exact .inl ⟨a', ha', hplace'.trans hplace, hlast'.trans hlast⟩
        · obtain ⟨issue, hissue, hissueId, hpath⟩ := mem_loadIssuePaths.mp hissue
          exact .inr (mem_loadIssuePaths.mpr ⟨issue, hfollows.issues issue hissue, hissueId, hpath⟩)
    obtain ⟨a, ha, hsame, hwas | ⟨hplace, complete, incomplete, hunseen, hcomplete, hincomplete⟩⟩ :=
      finishObserved_unseen hfinish ha' hmissing
    · obtain ⟨old, hold, holdId, hwas⟩ := hnone.missing ha hwas
      exact absurd hwas (hbefore old hold (holdId.trans hsame))
    · simp only [Asset.place, Prod.mk.injEq] at hplace
      obtain ⟨scope, hscope, hwithin⟩ := hunseen.complete
      obtain ⟨hmem, hended, rfl⟩ := hcomplete scope hscope
      obtain ⟨hlocationMem, -⟩ : location ∈ c.locations.rows ∧ location.id = op.locationId := by
        simpa only [loadLocation, Result.orElse_eq_ok, Table.find?_eq_some] using hload
      refine ⟨?_, hended, ⟨location, hlocationMem, hid.trans hlocation.symm,
        verifyFinish_eq_ok hproven⟩, ⟨scope, hmem, hplace.2 ▸ hwithin⟩, fun scope hscope => ?_,
        fun file hfile => ?_⟩
      · rw [← hplace.1, hunseen.locationId, hplace', hlocation]
      · exact hplace.2 ▸ hunseen.incomplete scope (hincomplete scope hscope)
      · rw [← hplace.2]
        refine hunseen.not_answered ?_
        have hanswer := hanswered file hfile
        unfold Answered at hanswer ⊢
        rw [hplace', hid']
        exact hanswer
  · next error _ =>
    simp only [Result.bind_eq_ok, Result.pure_eq_ok, finishUnverified] at h
    obtain ⟨c₁, ⟨op', -, rfl⟩, rfl⟩ := h
    exact absurd ha' (hnot (.of_eq rfl))

end Catalog

end PlateVault.Library
