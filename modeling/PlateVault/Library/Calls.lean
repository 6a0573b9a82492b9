import PlateVault.Lib.Runs
import PlateVault.Library.Custody

/-!
# Calls on the catalog

A call is one committed transaction of the catalog with everything it reads from outside: what the
files it hashes hold, the times and new ids it takes, and the catalog a reader saw before the
transaction began. `perform` is the catalog the call commits; a refused call commits none. Every
call leaves the rows it does not name as they are, which `Evolves` says for all rows at once.
-/

namespace PlateVault.Library

inductive Call (R : Reader)
  | registerLocation (id : Uuid) (name : Text) (path : PathBuf) (identity : FileIdentity)
      (overlap : Result Unit)
  | reselectLocation (id : Uuid) (expectedRevision : Nat) (path : PathBuf)
      (identity : FileIdentity) (overlap : Result Unit)
  | markLocationUnavailable (id : Uuid) (availability : Availability) (reason : String)
  | beginScan (id locationId : Uuid) (scope : Option RelPath) (now : Nat)
  | applyScanBatch (reader : Catalog R) (operationId : Uuid) (rootIdentity : FileIdentity)
      (batch : ScanBatch R) (opened : RelPath → Result Reading) (ids : RelPath → Uuid) (now : Nat)
  | finishScan (reader : Catalog R) (operationId : Uuid) (observation : ScanObservation R)
      (rootCheck : Location → Result FileIdentity) (opened : RelPath → Result Reading)
      (ids : RelPath → Uuid) (now : Nat)
  | abortScan (operationId : Uuid) (state : ScanState) (reason : String)
  | setQuality (reader : Catalog R) (expected : List ExpectedAsset) (quality : Quality)
      (sources : Sources) (now : Nat)
  | verifyDigest (reader : Catalog R) (assetId : Uuid) (sources : Sources) (now : Nat)
  | verifyDuplicateCandidates (reader : Catalog R) (operationId : Uuid) (assets : List Uuid)
      (sources : Uuid → Sources) (completed now : Nat)
  | recordCopyLink (left right : Uuid)
  | correct (expected : List ExpectedAsset) (corrections : List CorrectionInput)
  | recordTrashed (storageOperationId : Uuid) (frames : List TrashedFrame) (now : Nat)
  | reviewRemap (reader : Catalog R) (id locationId : Uuid) (expectedRevision : Nat)
      (proposedRoot : PathBuf) (proposedIdentity : FileIdentity) (files : RemapFiles)
  | applyRemap (reader : Catalog R) (reviewId : Uuid) (expectedRevision : Nat)
      (files : RemapFiles) (overlap : Result Unit) (now : Nat)
  | moveAssetRecord (record : RecordMove) (now : Nat)
  | retireLocation (locationId : Uuid) (expectedRevision : Nat) (review : Result Unit)

variable {R : Reader}

namespace Catalog

def perform (c : Catalog R) : Call R → Result (Catalog R)
  | .registerLocation id name path identity overlap =>
    c.registerLocation id name path identity overlap
  | .reselectLocation id expectedRevision path identity overlap =>
    c.reselectLocation id expectedRevision path identity overlap
  | .markLocationUnavailable id availability reason =>
    c.markLocationUnavailable id availability reason
  | .beginScan id locationId scope now => c.beginScan id locationId scope now
  | .applyScanBatch reader operationId rootIdentity batch opened ids now =>
    Committed.catalog <$> c.applyScanBatch reader operationId rootIdentity batch opened ids now
  | .finishScan reader operationId observation rootCheck opened ids now =>
    Committed.catalog <$> c.finishScan reader operationId observation rootCheck opened ids now
  | .abortScan operationId state reason => c.abortScan operationId state reason
  | .setQuality reader expected quality sources now =>
    c.setQuality reader expected quality sources now
  | .verifyDigest reader assetId sources now => c.verifyDigest reader assetId sources now
  | .verifyDuplicateCandidates reader operationId assets sources completed now =>
    c.verifyDuplicateCandidates reader operationId assets sources completed now
  | .recordCopyLink left right => .ok (c.recordCopyLink left right)
  | .correct expected corrections => Prod.fst <$> c.correctInTxn expected corrections
  | .recordTrashed storageOperationId frames now => c.recordTrashed storageOperationId frames now
  | .reviewRemap reader id locationId expectedRevision proposedRoot proposedIdentity files =>
    c.reviewRemap reader id locationId expectedRevision proposedRoot proposedIdentity files
  | .applyRemap reader reviewId expectedRevision files overlap now =>
    c.applyRemap reader reviewId expectedRevision files overlap now
  | .moveAssetRecord record now => c.moveAssetRecord record now
  | .retireLocation locationId expectedRevision review =>
    c.retireLocation locationId expectedRevision review

def Step (c : Catalog R) (call : Call R) (c' : Catalog R) : Prop := c.perform call = .ok c'

/-- Calls made one after the other, each made of the catalog it is made on; `none` where one is
refused. -/
def follow (c : Catalog R) : List (Catalog R → Call R) → Option (List (Call R) × Catalog R)
  | [] => some ([], c)
  | call :: calls =>
    match c.perform (call c) with
    | .ok c' => (c'.follow calls).map fun (made, last) => (call c :: made, last)
    | .error _ => none

theorem follow_run {P : Catalog R → Call R → Prop} {calls : List (Catalog R → Call R)}
    (hP : ∀ call ∈ calls, ∀ c, P c (call c)) {c last : Catalog R} {made : List (Call R)}
    (h : c.follow calls = some (made, last)) :
    Run (fun c call c' => P c call ∧ Step c call c') c made last := by
  induction calls generalizing c made with
  | nil =>
    cases h
    exact .nil _
  | cons call calls ih =>
    simp only [follow] at h
    split at h
    · next c' hstep =>
      obtain ⟨⟨rest, last'⟩, hrest, heq⟩ := Option.map_eq_some_iff.mp h
      cases heq
      exact .cons ⟨hP _ List.mem_cons_self c, hstep⟩
        (ih (fun call hcall => hP call (List.mem_cons_of_mem _ hcall)) hrest)
    · cases h

/-! ## What happens to the rows -/

/-- Every record of `c'` is one of `c`, changed as `K` says, or a new one of which `N` holds; no
record is lost. -/
structure Evolves (K : Asset R → Asset R → Prop) (N : Asset R → Prop) (c c' : Catalog R) :
    Prop where
  row : ∀ a' ∈ c'.assets.rows, (∃ a ∈ c.assets.rows, a.id = a'.id ∧ K a a') ∨
    (N a' ∧ ∀ a ∈ c.assets.rows, a.id ≠ a'.id)
  kept : ∀ a ∈ c.assets.rows, ∃ a' ∈ c'.assets.rows, a'.id = a.id ∧ K a a'

namespace Evolves

variable {K : Asset R → Asset R → Prop} {N : Asset R → Prop} {c c' c'' : Catalog R}

theorem of_eq (hK : ∀ a, K a a) (h : c'.assets = c.assets) : Evolves K N c c' := by
  refine ⟨fun a ha => .inl ⟨a, ?_, rfl, hK a⟩, fun a ha => ⟨a, ?_, rfl, hK a⟩⟩
  · rwa [h] at ha
  · rwa [h]

theorem refl (hK : ∀ a, K a a) (c : Catalog R) : Evolves K N c c := of_eq hK rfl

theorem of_assets_eq (hassets : c''.assets = c'.assets) (h : Evolves K N c c') :
    Evolves K N c c'' := by
  constructor
  · rw [hassets]
    exact h.row
  · rw [hassets]
    exact h.kept

theorem comp {K₁ K₂ K : Asset R → Asset R → Prop} {N₁ N₂ N : Asset R → Prop}
    {c c' c'' : Catalog R} (hK : ∀ a b d, a.id = b.id → K₁ a b → K₂ b d → K a d)
    (hN₁ : ∀ b d, N₁ b → K₂ b d → N d) (hN₂ : ∀ d, N₂ d → N d)
    (h : Evolves K₁ N₁ c c') (h' : Evolves K₂ N₂ c' c'') : Evolves K N c c'' := by
  constructor
  · intro a'' ha''
    rcases h'.row a'' ha'' with ⟨a', ha', hid', hstep'⟩ | ⟨hnew, hfresh⟩
    · rcases h.row a' ha' with ⟨a, ha, hid, hstep⟩ | ⟨hnew, hfresh⟩
      · exact .inl ⟨a, ha, hid.trans hid', hK _ _ _ hid hstep hstep'⟩
      · exact .inr ⟨hN₁ _ _ hnew hstep', fun a ha => hid' ▸ hfresh a ha⟩
    · refine .inr ⟨hN₂ _ hnew, fun a ha heq => ?_⟩
      obtain ⟨a', ha', hid', -⟩ := h.kept a ha
      exact hfresh a' ha' (hid'.trans heq)
  · intro a ha
    obtain ⟨a', ha', hid', hstep⟩ := h.kept a ha
    obtain ⟨a'', ha'', hid'', hstep'⟩ := h'.kept a' ha'
    exact ⟨a'', ha'', hid''.trans hid', hK _ _ _ hid'.symm hstep hstep'⟩

theorem trans (hK : ∀ a b d, K a b → K b d → K a d) (hN : ∀ a b, N a → K a b → N b)
    (h : Evolves K N c c') (h' : Evolves K N c' c'') : Evolves K N c c'' :=
  comp (fun a b d _ => hK a b d) hN (fun _ hd => hd) h h'

theorem mono {K' : Asset R → Asset R → Prop} {N' : Asset R → Prop}
    (hK : ∀ a ∈ c.assets.rows, ∀ a', K a a' → K' a a') (hN : ∀ a, N a → N' a)
    (h : Evolves K N c c') : Evolves K' N' c c' := by
  constructor
  · intro a' ha'
    rcases h.row a' ha' with ⟨a, ha, hid, hstep⟩ | ⟨hnew, hfresh⟩
    · exact .inl ⟨a, ha, hid, hK a ha a' hstep⟩
    · exact .inr ⟨hN _ hnew, hfresh⟩
  · intro a ha
    obtain ⟨a', ha', hid', hstep⟩ := h.kept a ha
    exact ⟨a', ha', hid', hK a ha a' hstep⟩

theorem of_map {g : Asset R → Asset R} (hrows : ∀ a', a' ∈ c'.assets.rows ↔
    ∃ a ∈ c.assets.rows, a' = g a) (hid : ∀ a, (g a).id = a.id)
    (hK : ∀ a ∈ c.assets.rows, K a (g a)) : Evolves K N c c' := by
  constructor
  · intro a' ha'
    obtain ⟨a, ha, rfl⟩ := (hrows a').mp ha'
    exact .inl ⟨a, ha, (hid a).symm, hK a ha⟩
  · intro a ha
    exact ⟨g a, (hrows (g a)).mpr ⟨a, ha, rfl⟩, hid a, hK a ha⟩

theorem updateAssets {p : Asset R → Bool} {f : Asset R → Asset R} {hid hplace}
    (hsel : ∀ a ∈ c.assets.rows, p a = true → K a (f a))
    (hrest : ∀ a ∈ c.assets.rows, p a = false → K a a) :
    Evolves K N c (c.updateAssets p f hid hplace) := by
  refine of_map (fun _ => mem_updateAssets) (fun a => ?_) fun a ha => ?_
  · split
    · exact hid a
    · rfl
  · cases hp : p a with
    | true => simpa [hp] using hsel a ha hp
    | false => simpa [hp] using hrest a ha hp

theorem moveAsset {id : Uuid} {f : Asset R → Asset R} {hid}
    (h : c.moveAsset id f hid = .ok c') (hsel : ∀ a ∈ c.assets.rows, a.id = id → K a (f a))
    (hrest : ∀ a ∈ c.assets.rows, a.id ≠ id → K a a) : Evolves K N c c' := by
  refine of_map (fun _ => mem_moveAsset h) (fun a => ?_) fun a ha => ?_
  · split
    · exact hid a
    · rfl
  · by_cases ha' : a.id = id
    · simpa [ha'] using hsel a ha ha'
    · simpa [ha'] using hrest a ha ha'

theorem insert {assets} {a : Asset R} (hK : ∀ a, K a a)
    (h : c.assets.insert? a = some assets) (hN : N a) :
    Evolves K N c { c with assets } := by
  obtain ⟨hfresh, hrows⟩ := Indexed.insert?_eq_some h
  constructor
  · intro a' ha'
    rw [hrows] at ha'
    rcases List.mem_append.mp ha' with hold | hnew
    · exact .inl ⟨a', hold, rfl, hK a'⟩
    · rw [List.mem_singleton] at hnew
      subst hnew
      exact .inr ⟨hN, fun b hb => (hfresh b hb).1⟩
  · intro b hb
    exact ⟨b, by simp [hrows, hb], rfl, hK b⟩

end Evolves

end Catalog

end PlateVault.Library
