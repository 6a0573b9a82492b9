import PlateVault.Library.Absence

/-!
# Rehash marks

What a call leaves of a record's rehash mark and of the running scans: outside the arming of a scan no
call marks a record, and a record that stays marked stays in its location.
-/

namespace PlateVault.Library

variable {R : Reader}

namespace Catalog

/-! ## What a call leaves of the marks -/

/-- What a call leaves of a record's mark. `scanning` is whether the call is one of the scan: the scan
takes the mark off what it observes, and other calls observe nothing as it. -/
structure Clears (id : Uuid) (scanning : Prop) (a a' : Asset R) : Prop where
  pending : a'.verificationPending = true → a.verificationPending = true ∧
    a'.locationId = a.locationId ∧ (scanning → a'.relativePath = a.relativePath)
  missing : a'.availability = .missing → a.availability = .missing ∨ a'.verificationPending = false
  last : a'.lastOperationId = some id → a.lastOperationId = some id ∨
    (scanning ∧ a'.verificationPending = false)

structure Clear (id : Uuid) (scanning : Prop) (a : Asset R) : Prop where
  pending : a.verificationPending = false
  last : a.lastOperationId = some id → scanning

structure Armed (op op' : Operation) : Prop where
  id : op'.id = op.id
  locationId : op'.locationId = op.locationId
  scope : op'.scope = op.scope
  state : op'.state = op.state
  armed : op.verificationArmed = true → op'.verificationArmed = true

/-- A write that begins and ends no scan, and marks no record. -/
structure Settles (id : Uuid) (scanning : Prop) (c c' : Catalog R) : Prop where
  rows : Evolves (Clears id scanning) (Clear id scanning) c c'
  scans : ∃ f, c'.operations.rows = c.operations.rows.map f ∧ ∀ op, Armed op (f op)

section Settles

variable {id : Uuid} {scanning : Prop}

theorem Clears.refl (a : Asset R) : Clears id scanning a a :=
  ⟨fun h => ⟨h, rfl, fun _ => rfl⟩, .inl, .inl⟩

theorem Clears.trans {a b d : Asset R} (h : Clears id scanning a b) (h' : Clears id scanning b d) :
    Clears id scanning a d where
  pending := fun hd => by
    obtain ⟨hb, hlocation', hpath'⟩ := h'.pending hd
    obtain ⟨ha, hlocation, hpath⟩ := h.pending hb
    exact ⟨ha, hlocation'.trans hlocation, fun hs => (hpath' hs).trans (hpath hs)⟩
  missing := fun hd => by
    rcases h'.missing hd with hb | hclear
    · refine (h.missing hb).imp_right fun hclear => ?_
      rw [← Bool.not_eq_true]
      exact fun hd => Bool.false_ne_true (hclear.symm.trans (h'.pending hd).1)
    · exact .inr hclear
  last := fun hd => by
    rcases h'.last hd with hb | hclear
    · refine (h.last hb).imp_right fun ⟨hs, hclear⟩ => ⟨hs, ?_⟩
      rw [← Bool.not_eq_true]
      exact fun hd => Bool.false_ne_true (hclear.symm.trans (h'.pending hd).1)
    · exact .inr hclear

theorem Clears.of_eq {a a' : Asset R} (hpending : a'.verificationPending = a.verificationPending)
    (hplace : a'.place = a.place) (hlast : a'.lastOperationId = a.lastOperationId)
    (hmissing : a'.availability = .missing → a.availability = .missing) : Clears id scanning a a' := by
  simp only [Asset.place, Prod.mk.injEq] at hplace
  exact ⟨fun h => ⟨hpending ▸ h, hplace.1, fun _ => hplace.2⟩, fun h => .inl (hmissing h),
    fun h => .inl (hlast ▸ h)⟩

theorem Clears.of_clear {a a' : Asset R} (hpending : a'.verificationPending = false)
    (hlast : a'.lastOperationId = some id → a.lastOperationId = some id ∨ scanning) :
    Clears id scanning a a' :=
  ⟨fun h => by simp [hpending] at h, fun _ => .inr hpending,
    fun h => (hlast h).imp (fun h => h) fun hs => ⟨hs, hpending⟩⟩

theorem Clear.clears {a b : Asset R} (h : Clear id scanning a) (h' : Clears id scanning a b) :
    Clear id scanning b where
  pending := by
    rw [← Bool.not_eq_true]
    exact fun hb => Bool.false_ne_true (h.pending.symm.trans (h'.pending hb).1)
  last := fun hb => (h'.last hb).elim h.last fun hclear => hclear.1

theorem Armed.refl (op : Operation) : Armed op op := ⟨rfl, rfl, rfl, rfl, fun h => h⟩

theorem Armed.trans {op op' op'' : Operation} (h : Armed op op') (h' : Armed op' op'') :
    Armed op op'' :=
  ⟨h'.id.trans h.id, h'.locationId.trans h.locationId, h'.scope.trans h.scope,
    h'.state.trans h.state, fun harmed => h'.armed (h.armed harmed)⟩

theorem mem_updateOperation {c : Catalog R} {other : Uuid} {f : Operation → Operation} {hid}
    {op' : Operation} : op' ∈ (c.updateOperation other f hid).operations.rows ↔
      ∃ op ∈ c.operations.rows, op' = if op.id = other then f op else op := by
  simp [updateOperation, Table.mem_updateWhere hid]

namespace Settles

variable {c c' c'' : Catalog R}

theorem of_tables (hrows : Evolves (Clears id scanning) (Clear id scanning) c c')
    (hoperations : c'.operations = c.operations) : Settles id scanning c c' :=
  ⟨hrows, fun op => op, by rw [hoperations, List.map_id'], .refl⟩

theorem of_eq (hassets : c'.assets = c.assets) (hoperations : c'.operations = c.operations) :
    Settles id scanning c c' :=
  of_tables (.of_eq .refl hassets) hoperations

theorem refl (c : Catalog R) : Settles id scanning c c := of_eq rfl rfl

theorem trans (h : Settles id scanning c c') (h' : Settles id scanning c' c'') :
    Settles id scanning c c'' where
  rows := .trans (fun _ _ _ => .trans) (fun _ _ => .clears) h.rows h'.rows
  scans := by
    obtain ⟨f, hf, hlater⟩ := h.scans
    obtain ⟨g, hg, hlater'⟩ := h'.scans
    exact ⟨g ∘ f, by rw [hg, hf, List.map_map], fun op => (hlater op).trans (hlater' (f op))⟩

theorem updateAssets {p : Asset R → Bool} {f : Asset R → Asset R} {hid hplace}
    (hf : ∀ a, p a = true → Clears id scanning a (f a)) :
    Settles id scanning c (c.updateAssets p f hid hplace) :=
  of_tables (.updateAssets (fun a _ ha => hf a ha) fun a _ _ => .refl a) rfl

theorem updateOperation {other : Uuid} {f : Operation → Operation} {hid}
    (hf : ∀ op, Armed op (f op)) : Settles id scanning c (c.updateOperation other f hid) where
  rows := .of_eq .refl rfl
  scans := by
    refine ⟨fun op => if op.id = other then f op else op, ?_, fun op => ?_⟩
    · simp [Catalog.updateOperation, Table.updateWhere]
    · dsimp only
      split
      · exact hf op
      · exact .refl op

end Settles

end Settles

/-! ## Calls outside the scan -/

section Calls

variable {id : Uuid} {scanning : Prop}

theorem addIssue_settles (c : Catalog R) (operationId : Uuid) (path : RelPath) (reason : String)
    (availability : Availability) :
    Settles id scanning c (c.addIssue operationId path reason availability) :=
  .of_eq rfl rfl

theorem markScopeIncomplete_settles (c : Catalog R) (operationId : Uuid) (scope : RelPath) :
    Settles id scanning c (c.markScopeIncomplete operationId scope) :=
  .updateOperation fun _ => ⟨rfl, rfl, rfl, rfl, fun h => h⟩

theorem recordIssue_settles {c c' : Catalog R} {op : Operation} {issue : ScanIssue}
    (hmissing : issue.availability ≠ .missing) (h : c.recordIssue op issue = .ok c') :
    Settles id scanning c c' := by
  simp only [recordIssue, Result.bind_eq_ok, Result.pure_eq_ok] at h
  obtain ⟨scope, -, rfl⟩ := h
  exact ((addIssue_settles c _ _ _ _).trans (markScopeIncomplete_settles _ _ _)).trans
    (.updateAssets fun _ _ => .of_eq rfl rfl rfl fun h => absurd h hmissing)

theorem recordIssues_settles {c c' : Catalog R} {op : Operation} {issues : List ScanIssue}
    (hmissing : ∀ issue ∈ issues, issue.availability ≠ .missing)
    (h : Run (fun c issue c' => c.recordIssue op issue = .ok c') c issues c') :
    Settles id scanning c c' := by
  induction h with
  | nil c => exact .refl c
  | cons hstep _ ih =>
    exact (recordIssue_settles (hmissing _ List.mem_cons_self) hstep).trans
      (ih fun issue hissue => hmissing issue (List.mem_cons_of_mem _ hissue))

theorem markScopes_settles (op : Operation) (variants : List RelPath) (c : Catalog R) :
    Settles id scanning c
      (variants.foldl (fun c variant => c.markScopeIncomplete op.id variant) c) := by
  induction variants generalizing c with
  | nil => exact .refl c
  | cons variant variants ih => exact (markScopeIncomplete_settles c op.id variant).trans (ih _)

theorem decideAll_settles {quality : Quality} {digests : List Hashed} {sources : Sources}
    {decidedAt : Nat} {assets : List (Asset R)} {c c' : Catalog R}
    (h : c.decideAll quality digests sources decidedAt assets = .ok c') :
    Settles id scanning c c' := by
  induction assets generalizing c with
  | nil =>
    cases h
    exact .refl _
  | cons asset assets ih =>
    simp only [decideAll, Result.bind_eq_ok] at h
    obtain ⟨c₁, hone, hrest⟩ := h
    refine .trans ?_ (ih hrest)
    simp only [decideQuality, Result.bind_eq_ok, Result.pure_eq_ok] at hone
    obtain ⟨bound, -, rfl⟩ := hone
    refine .trans (.updateAssets fun _ _ => ?_) (.of_eq (recordDecision_assets _ _) rfl)
    exact .of_clear rfl .inl

theorem bindDigest_settles (c : Catalog R) (assetId : Uuid) (sha256 : Text) (verifiedAt : Nat) :
    Settles id scanning c (c.bindDigest assetId sha256 verifiedAt) :=
  .updateAssets fun _ _ => .of_eq rfl rfl rfl fun h => h

theorem bindCandidates_settles {verifiedAt : Nat} {hashed : List Hashed} {c c' : Catalog R}
    (h : c.bindCandidates verifiedAt hashed = .ok c') : Settles id scanning c c' := by
  induction hashed generalizing c with
  | nil =>
    cases h
    exact .refl _
  | cons one hashed ih =>
    simp only [bindCandidates, Result.bind_eq_ok] at h
    obtain ⟨asset, -, hrest⟩ := h
    refine .trans ?_ (ih hrest)
    split
    · exact bindDigest_settles c _ _ _
    · exact .refl c

theorem correctAssets_settles {corrections : List CorrectionInput} {ids : List Uuid}
    {c c' : Catalog R} {changed changed' : List Uuid}
    (h : c.correctAssets corrections changed ids = .ok (c', changed')) :
    Settles id scanning c c' := by
  induction ids generalizing c changed with
  | nil =>
    cases h
    exact .refl _
  | cons one ids ih =>
    simp only [correctAssets, correctAsset, Result.bind_eq_ok, Result.pure_eq_ok] at h
    obtain ⟨⟨c₁, moved⟩, ⟨asset, -, effective, -, heq⟩, hrest⟩ := h
    cases heq
    have hrecorded : Settles id scanning c
        (c.recordCorrections one (corrections.filter (·.assetId = one))) := .of_eq rfl rfl
    refine (hrecorded.trans (.updateAssets fun _ _ => ?_)).trans (ih hrest)
    exact .of_eq rfl rfl rfl fun h => h

theorem recordFrames_settles {storageOperationId : Uuid} {trashedAt : Nat}
    {frames : List TrashedFrame} {c c' : Catalog R}
    (h : c.recordFrames storageOperationId trashedAt frames = .ok c') :
    Settles id scanning c c' := by
  induction frames generalizing c with
  | nil =>
    cases h
    exact .refl _
  | cons frame frames ih =>
    simp only [recordFrames, recordFrame, Result.bind_eq_ok] at h
    obtain ⟨c₁, ⟨asset, -, hone⟩, hrest⟩ := h
    refine .trans ?_ (ih hrest)
    split at hone
    · split at hone
      · cases hone
        exact .refl c
      · cases hone
    · simp only [Result.bind_eq_ok, Result.pure_eq_ok] at hone
      obtain ⟨-, -, -, -, -, -, rfl⟩ := hone
      have hmarked : Settles id scanning c (c.markTrashed asset.id) :=
        .updateAssets fun _ _ => .of_clear rfl .inl
      exact hmarked.trans (.of_eq rfl rfl)

theorem remapRows_settles {assets : List (Asset R)} {verifiedAt : Nat} {items : List RemapItem}
    {c c' : Catalog R} (h : c.remapRows assets verifiedAt items = .ok c') :
    Settles id scanning c c' := by
  induction items generalizing c with
  | nil =>
    cases h
    exact .refl _
  | cons item items ih =>
    simp only [remapRows, Result.bind_eq_ok, Result.orElse_eq_ok] at h
    obtain ⟨asset, -, hrest⟩ := h
    refine .trans (.updateAssets fun _ _ => ?_) (ih hrest)
    exact .of_eq rfl rfl rfl fun h => by cases h

theorem moveAssetRecord_settles {c c' : Catalog R} {record : RecordMove} {now : Nat}
    (h : c.moveAssetRecord record now = .ok c') : Settles id scanning c c' := by
  simp only [moveAssetRecord, Result.bind_eq_ok] at h
  obtain ⟨asset, -, -, -, -, -, hmove⟩ := h
  refine .of_tables (.moveAsset hmove (fun a _ _ => ?_) fun a _ _ => .refl a)
    (SameTables.moveAsset hmove).operations
  exact .of_clear rfl .inl

end Calls

end Catalog

end PlateVault.Library
