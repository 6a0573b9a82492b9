import PlateVault.Output.System

/-!
# What each call can do

One inversion for each call of the catalog: what it needs, and what it leaves.
-/

namespace PlateVault.Output

open Result (bind_eq_ok require_eq_ok orElse_eq_ok)

namespace Catalog

variable {c c' : Catalog}

theorem reserveOperation_ok {id : Uuid} {kind : ProjectOperationKind}
    (h : c.reserveOperation id kind = .ok c') :
    (∀ operation ∈ c.operations, operation.active = false) ∧
      c' = { c with operations := c.operations ++ [{ id, kind, active := true }] } := by
  obtain ⟨-, -, h₁⟩ := bind_eq_ok.mp h
  cases hactive : c.activeOperation with
  | some running =>
    rw [hactive] at h₁
    cases h₁
  | none =>
    rw [hactive] at h₁
    cases h₁
    refine ⟨fun operation hoperation => ?_, rfl⟩
    simpa using List.find?_eq_none.mp hactive operation hoperation

theorem settleOperation_ok {id : Uuid} (h : c.settleOperation id = .ok c') :
    c' = { c with operations := c.operations.map fun operation =>
      if operation.id = id && operation.active then { operation with active := false }
      else operation } := by
  unfold settleOperation at h
  split at h
  · cases h
    rfl
  · cases h

theorem upsert_ok {observation : OutputObservation} (h : c.upsert observation = .ok c') :
    c' = { c with outputs := Function.update c.outputs observation.path (some observation) } := by
  obtain ⟨-, -, h₁⟩ := bind_eq_ok.mp h
  cases h₁
  rfl

theorem recordOutputScan_ok {scan : OutputScan} {record : OutputScanRecord}
    (h : c.recordOutputScan scan = .ok (c', record)) :
    (record = .stale ∧ c' = c) ∨ (record = .recorded ∧ c.copyCount.2 = false ∧
      c.copyCount.1 = scan.copies ∧ ∃ outputs, applyScan c.outputs scan.folder = .ok outputs ∧
      c' = { c with outputs }) := by
  obtain ⟨-, -, h₁⟩ := bind_eq_ok.mp h
  split at h₁
  · cases h₁
    exact .inl ⟨rfl, rfl⟩
  · rename_i hfresh
    obtain ⟨outputs, houtputs, h₂⟩ := bind_eq_ok.mp h₁
    cases h₂
    simp only [Bool.or_eq_true, decide_eq_true_eq, not_or, Bool.not_eq_true, not_not] at hfresh
    exact .inr ⟨rfl, hfresh.1, hfresh.2, outputs, houtputs, rfl⟩

theorem setOutputDetails_ok {path : Text} {kind : Option OutputKind} {channel : Option Text}
    (h : c.setOutputDetails path kind channel = .ok c') :
    ∃ row, c.outputs path = some row ∧ ({ row with kind, channel } : OutputObservation).validate = .ok () ∧
      c' = { c with outputs := Function.update c.outputs row.path (some { row with kind, channel }) } := by
  obtain ⟨-, -, h₁⟩ := bind_eq_ok.mp h
  obtain ⟨row, hrow, h₂⟩ := bind_eq_ok.mp h₁
  obtain ⟨_, hvalid, h₃⟩ := bind_eq_ok.mp h₂
  exact ⟨row, orElse_eq_ok.mp hrow, hvalid, upsert_ok h₃⟩

theorem beginOutputCopy_ok {id storage : Uuid} {source : EntryEvidence} {planned : OutputObservation}
    {offered : Option OutputKind} (h : c.beginOutputCopy id storage source planned offered = .ok c') :
    planned.origin = .copied ∧ planned.sha256 = source.sha256 ∧ planned.validate = .ok () ∧
      (∀ operation ∈ c.operations, operation.active = false) ∧ c.outputs planned.path = none ∧
      c' = { c with
        operations := c.operations ++ [{ id, kind := .copyToOutput, active := true }]
        copies := c.copies ++ [{
          operationId := id
          storageOperationId := storage
          planned := { planned with kind := planned.kind <|> offered } }]
        storage := Function.update c.storage storage (some none) } := by
  obtain ⟨_, hcopy, h₁⟩ := bind_eq_ok.mp h
  obtain ⟨_, hvalid, h₂⟩ := bind_eq_ok.mp h₁
  obtain ⟨reserved, hreserved, h₃⟩ := bind_eq_ok.mp h₂
  obtain ⟨_, hfree, h₄⟩ := bind_eq_ok.mp h₃
  obtain ⟨hidle, rfl⟩ := reserveOperation_ok hreserved
  have hchecks := require_eq_ok.mp hcopy
  simp only [Bool.and_eq_true, decide_eq_true_eq] at hchecks
  cases h₄
  exact ⟨hchecks.1.1.1, hchecks.1.2, hvalid, hidle, Option.isNone_iff_eq_none.mp (require_eq_ok.mp hfree),
    rfl⟩

theorem finishOutputCopy_ok {id : Uuid} {installed : Option ObservationFingerprint}
    {listed : Option OutputObservation} (h : c.finishOutputCopy id installed = .ok (c', listed)) :
    ∃ copy outcome outputs, copy ∈ c.copies ∧ copy.operationId = id ∧
      c.storage copy.storageOperationId = some (some outcome) ∧
      c' = { c with
        outputs
        copies := c.copies.filter fun copy => copy.operationId ≠ id
        operations := c.operations.map fun operation =>
          if operation.id = id && operation.active then { operation with active := false }
          else operation } ∧
      ((listed = none ∧ outputs = c.outputs) ∨ ∃ fingerprint observation, listed = some observation ∧
        outcome = .copied ∧ observation = { copy.planned with
          sizeBytes := fingerprint.sizeBytes, fingerprint := some fingerprint, state := .settled } ∧
        observation.validate = .ok () ∧
        outputs = Function.update c.outputs observation.path (some observation)) := by
  obtain ⟨copy, hcopy, h₁⟩ := bind_eq_ok.mp h
  obtain ⟨state, hstate, h₂⟩ := bind_eq_ok.mp h₁
  obtain ⟨outcome, houtcome, h₃⟩ := bind_eq_ok.mp h₂
  have hfound := orElse_eq_ok.mp hcopy
  have hmem := List.mem_of_find?_eq_some hfound
  have hid : copy.operationId = id := by simpa using List.find?_some hfound
  have hstorage : c.storage copy.storageOperationId = some (some outcome) := by
    rw [orElse_eq_ok.mp hstate, orElse_eq_ok.mp houtcome]
  by_cases hcopied : outcome = .copied
  · simp only [if_pos hcopied] at h₃
    obtain ⟨fingerprint, -, h₄⟩ := bind_eq_ok.mp h₃
    obtain ⟨_, hvalid, h₅⟩ := bind_eq_ok.mp h₄
    obtain ⟨upserted, hupserted, h₆⟩ := bind_eq_ok.mp h₅
    obtain ⟨pair, hpair, h₇⟩ := bind_eq_ok.mp h₆
    cases hpair
    obtain ⟨settled, hsettled, h₈⟩ := bind_eq_ok.mp h₇
    cases h₈
    cases upsert_ok hupserted
    exact ⟨copy, outcome, _, hmem, hid, hstorage, settleOperation_ok hsettled,
      .inr ⟨fingerprint, _, rfl, hcopied, rfl, hvalid, rfl⟩⟩
  · simp only [if_neg hcopied] at h₃
    obtain ⟨pair, hpair, h₄⟩ := bind_eq_ok.mp h₃
    cases hpair
    obtain ⟨settled, hsettled, h₅⟩ := bind_eq_ok.mp h₄
    cases h₅
    exact ⟨copy, outcome, _, hmem, hid, hstorage, settleOperation_ok hsettled, .inl ⟨rfl, rfl⟩⟩

end Catalog

theorem copyToOutput_ok {c c' : Catalog} {id storage : Uuid} {name : Text} {source : EntryEvidence}
    {destination : Except Inventory.IoError Inventory.Metadata} {panel : Option Uuid}
    {offered : Option OutputKind}
    (h : copyToOutput c id storage name source destination panel offered = .ok c') :
    c.beginOutputCopy id storage source (plannedCopy name source panel) offered = .ok c' := by
  obtain ⟨-, -, h₁⟩ := bind_eq_ok.mp h
  obtain ⟨-, -, h₂⟩ := bind_eq_ok.mp h₁
  obtain ⟨-, -, h₃⟩ := bind_eq_ok.mp h₂
  cases destination with
  | ok _ => cases h₃
  | error error =>
    simp only at h₃
    obtain ⟨-, -, h₄⟩ := bind_eq_ok.mp h₃
    obtain ⟨-, -, h₅⟩ := bind_eq_ok.mp h₄
    exact h₅

end PlateVault.Output
