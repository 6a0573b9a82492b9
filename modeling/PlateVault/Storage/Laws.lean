import PlateVault.Lib.Runs
import PlateVault.Storage.Journal

/-!
# Laws of the storage journal

What the checks admit (`ChangeFits`, `DraftFits`), what an accepted call does to the rows
(`Effect`), and from both the invariant of every journal the calls reach: a settled item or
operation is final, and an item's phase, outcome, reason, written copy and digest fit together.
-/

namespace PlateVault

/-! ## What the checks admit -/

/-- What `validateChange` admits. -/
structure ChangeFits (kind : StorageOperationKind) (change : ItemChange) : Prop where
  phase : phaseFits kind change.phase = true
  settled : change.phase = .settled ↔ change.outcome.isSome = true
  outcome : ∀ o, change.outcome = some o → outcomeFits kind o = true
  reason : change.reason.isSome = explains change.outcome
  written : wrote kind change.phase = true → change.written.isSome = true
  trash : kind = .trash → change.written = none

theorem validateOutcome_ok {kind : StorageOperationKind} {change : ItemChange}
    (h : validateOutcome kind change = .ok ()) :
    (change.phase = .settled ↔ change.outcome.isSome = true) ∧
      ∀ o, change.outcome = some o → outcomeFits kind o = true := by
  unfold validateOutcome at h
  split at h
  · cases h
  · next hphase houtcome =>
    rw [Result.require_eq_ok] at h
    refine ⟨by simp [hphase, houtcome], fun o ho => ?_⟩
    rw [houtcome, Option.some.injEq] at ho
    exact ho ▸ h
  · next hnone hphase =>
    refine ⟨⟨fun hsettled => (hphase hsettled).elim, fun hsome => ?_⟩, fun o ho => ?_⟩
    · simp [hnone] at hsome
    · simp [hnone] at ho
  · cases h

theorem validateChange_ok {kind : StorageOperationKind} {change : ItemChange}
    (h : validateChange kind change = .ok ()) : ChangeFits kind change := by
  simp only [validateChange, Result.bind_eq_ok, Result.require_eq_ok] at h
  obtain ⟨⟨⟩, hphase, ⟨⟩, houtcome, ⟨⟩, hreason, ⟨⟩, hwrote, htrash⟩ := h
  obtain ⟨hsettled, hfits⟩ := validateOutcome_ok houtcome
  refine ⟨hphase, hsettled, hfits, (of_decide_eq_true hreason).symm, fun hw => ?_, fun hk => ?_⟩
  · cases hwritten : change.written
    · simp [hw, hwritten] at hwrote
    · rfl
  · cases hwritten : change.written
    · rfl
    · simp [hk, hwritten] at htrash

/-- What a draft's checks leave of its evidence: a file has its digest, and only files are
transferred. -/
structure DraftFits (kind : StorageOperationKind) (draft : StorageItemDraft) : Prop where
  digest : draft.source.kind = .file →
    ∃ digest, draft.source.sha256 = some digest ∧ sha256 digest = .ok ()
  transfer : kind ≠ .trash → draft.source.kind = .file

theorem validateDigest_ok {source : EntryEvidence} (h : validateDigest source = .ok ())
    (hfile : source.kind = .file) : ∃ digest, source.sha256 = some digest ∧ sha256 digest = .ok () := by
  unfold validateDigest at h
  split at h
  · next digest _ hdigest => exact ⟨_, hdigest, h⟩
  · cases h
  · next hlink _ => simp [hfile] at hlink
  · cases h

theorem validateTransfer_ok {kind : StorageOperationKind} {draft : StorageItemDraft}
    (h : validateTransfer kind draft = .ok ()) (hkind : kind ≠ .trash) :
    draft.source.kind = .file := by
  unfold validateTransfer at h
  split at h
  · exact absurd rfl hkind
  · cases h
  · cases h
  · cases h
  all_goals
    simp only [Result.bind_eq_ok, Result.require_eq_ok] at h
    obtain ⟨⟨⟩, hfile, -⟩ := h
    exact of_decide_eq_true hfile

theorem validateDraft_ok {kind : StorageOperationKind} {draft : StorageItemDraft}
    (h : validateDraft kind draft = .ok ()) : DraftFits kind draft := by
  simp only [validateDraft, validateEvidence, Result.bind_eq_ok] at h
  obtain ⟨⟨⟩, ⟨⟨⟩, -, ⟨⟩, -, hdigest⟩, ⟨⟩, -, htransfer⟩ := h
  exact ⟨validateDigest_ok hdigest, validateTransfer_ok htransfer⟩

theorem checkAll_ok {α : Type} {check : α → Result Unit} {as : List α}
    (h : checkAll check as = .ok ()) : ∀ a ∈ as, check a = .ok () := by
  induction as with
  | nil => simp
  | cons a as ih =>
    simp only [checkAll, Result.bind_eq_ok] at h
    obtain ⟨⟨⟩, ha, has⟩ := h
    simpa [ha] using ih has

/-! ## What an accepted call does -/

namespace Journal

inductive Effect (journal : Journal) : JournalCall → Journal → Prop
  | recorded {kind drafts id now operations new at_} :
      (∀ draft ∈ drafts, DraftFits kind draft) →
      journal.operations.insert? ⟨id, kind, .reviewed, 1, at_, at_⟩ = some operations →
      (∀ row ∈ new, ∃ seq, ∃ draft ∈ drafts, row = .ofDraft id seq draft at_) →
      ∀ after : Journal, after.operations = operations →
        after.items.rows = journal.items.rows ++ new →
        Effect journal (.record kind drafts id now) after
  | started {id now row at_} :
      journal.operations.find? id = some row → row.state = .reviewed →
      Effect journal (.start id now) (journal.updateOperation id .running at_)
  | running {id now row} :
      journal.operations.find? id = some row → row.state = .running →
      Effect journal (.start id now) journal
  | advanced {id seq expected change now operation row at_} :
      journal.operations.find? id = some operation → operation.state = .running →
      validateChange operation.kind change = .ok () →
      journal.items.find? (id, seq) = some row → row.outcome = none → row.revision = expected →
      Effect journal (.advance id seq expected change now) (journal.updateItem id seq change at_)
  | settled {id now row at_} :
      journal.operations.find? id = some row → row.state = .running →
      (∀ row ∈ journal.items.rows, row.opId = id → row.outcome.isSome = true) →
      Effect journal (.settle id now) (journal.updateOperation id .settled at_)
  | alreadySettled {id now row} :
      journal.operations.find? id = some row → row.state = .settled →
      Effect journal (.settle id now) journal

theorem operationRow_eq_ok {journal : Journal} {id : Uuid} {row : OperationRow} :
    journal.operationRow id = .ok row ↔ journal.operations.find? id = some row := by
  simp [operationRow]

theorem operationState_eq_ok {journal : Journal} {id : Uuid} {state : StorageOperationState} :
    journal.operationState id = .ok state ↔
      ∃ row, journal.operations.find? id = some row ∧ row.state = state := by
  simp only [operationState, operationRow, Result.bind_eq_ok, Result.orElse_eq_ok,
    Result.pure_eq_ok]

theorem insertItems_ok {journal after : Journal} {id : Uuid} {at_ : String} {seq : Nat}
    {drafts : List StorageItemDraft} (h : journal.insertItems id at_ seq drafts = .ok after) :
    after.operations = journal.operations ∧
      ∃ new, after.items.rows = journal.items.rows ++ new ∧
        ∀ row ∈ new, ∃ seq, ∃ draft ∈ drafts, row = .ofDraft id seq draft at_ := by
  induction drafts generalizing journal seq with
  | nil =>
    cases h
    exact ⟨rfl, [], by simp, by simp⟩
  | cons draft drafts ih =>
    simp only [insertItems, insertItem, Result.bind_eq_ok, Result.orElse_eq_ok,
      Result.pure_eq_ok] at h
    obtain ⟨middle, ⟨⟨⟩, -, ⟨⟩, -, ⟨⟩, -, items, hinsert, rfl⟩, h⟩ := h
    obtain ⟨hoperations, new, hrows, hnew⟩ := ih h
    obtain ⟨-, hitems⟩ := Table.insert?_eq_some hinsert
    refine ⟨hoperations, .ofDraft id seq draft at_ :: new, ?_, ?_⟩
    · simp [hrows, hitems]
    · intro row hrow
      rcases List.mem_cons.mp hrow with rfl | hrow
      · exact ⟨seq, draft, by simp, rfl⟩
      · obtain ⟨seq', draft', hdraft, hrow⟩ := hnew row hrow
        exact ⟨seq', draft', by simp [hdraft], hrow⟩

theorem recordStorageOperation_effect {journal after : Journal} {kind : StorageOperationKind}
    {drafts : List StorageItemDraft} {id : Uuid} {now : Result String} {operation}
    (h : journal.recordStorageOperation kind drafts id now = .ok (operation, after)) :
    journal.Effect (.record kind drafts id now) after := by
  simp only [recordStorageOperation, insertOperation, Result.bind_eq_ok, Result.orElse_eq_ok,
    Result.pure_eq_ok, Prod.mk.injEq] at h
  obtain ⟨_, ⟨⟨⟩, -, ⟨⟩, hdrafts, at_, -, operations, hinsert, hitems⟩, _, -, -, rfl⟩ := h
  obtain ⟨hoperations, new, hrows, hnew⟩ := insertItems_ok hitems
  exact .recorded (fun draft hdraft => validateDraft_ok (checkAll_ok hdrafts draft hdraft)) hinsert
    hnew _ hoperations hrows

theorem setOperationState_ok {journal after : Journal} {id : Uuid} {state : StorageOperationState}
    {now : Result String} (h : journal.setOperationState id state now = .ok after) :
    ∃ at_, after = journal.updateOperation id state at_ := by
  simp only [setOperationState, Result.bind_eq_ok, Result.pure_eq_ok] at h
  obtain ⟨at_, -, _, -, ⟨⟩, -, rfl⟩ := h
  exact ⟨at_, rfl⟩

theorem startStorageOperation_effect {journal after : Journal} {id : Uuid} {now : Result String}
    {operation} (h : journal.startStorageOperation id now = .ok (operation, after)) :
    journal.Effect (.start id now) after := by
  simp only [startStorageOperation, Result.bind_eq_ok] at h
  obtain ⟨state, hstate, h⟩ := h
  obtain ⟨row, hrow, hrowState⟩ := operationState_eq_ok.mp hstate
  cases state with
  | running =>
    simp only [Result.bind_eq_ok, Result.pure_eq_ok, Prod.mk.injEq] at h
    obtain ⟨_, ⟨⟩, _, -, -, rfl⟩ := h
    exact .running hrow hrowState
  | reviewed =>
    simp only [Result.bind_eq_ok, Result.pure_eq_ok, Prod.mk.injEq] at h
    obtain ⟨_, hstarted, _, -, -, rfl⟩ := h
    obtain ⟨at_, rfl⟩ := setOperationState_ok hstarted
    exact .started hrow hrowState
  | settled => cases h

theorem advanceStorageItem_effect {journal after : Journal} {id : Uuid} {seq expected : Nat}
    {change : ItemChange} {now : Result String} {item}
    (h : journal.advanceStorageItem id seq expected change now = .ok (item, after)) :
    journal.Effect (.advance id seq expected change now) after := by
  simp only [advanceStorageItem, loadItem, itemFromRow, Result.bind_eq_ok, Result.pure_eq_ok,
    Result.require_eq_ok, Result.orElse_eq_ok, operationRow_eq_ok, operationState_eq_ok,
    Prod.mk.injEq] at h
  obtain ⟨op, hop, ⟨⟩, hchange, _, ⟨op', hop', rfl⟩, ⟨⟩, hrunning, _, ⟨row, hrow, ⟨⟩, -, rfl⟩, ⟨⟩,
    hopen, ⟨⟩, hrevision, at_, -, ⟨⟩, -, ⟨⟩, -, _, -, -, rfl⟩ := h
  rw [hop, Option.some.injEq] at hop'
  subst hop'
  refine .advanced hop (of_decide_eq_true hrunning) hchange hrow ?_
    (of_decide_eq_true hrevision)
  simpa using hopen

theorem settleStorageOperation_effect {journal after : Journal} {id : Uuid} {now : Result String}
    {operation} (h : journal.settleStorageOperation id now = .ok (operation, after)) :
    journal.Effect (.settle id now) after := by
  simp only [settleStorageOperation, Result.bind_eq_ok] at h
  obtain ⟨state, hstate, h⟩ := h
  obtain ⟨row, hrow, hrowState⟩ := operationState_eq_ok.mp hstate
  cases state with
  | settled =>
    simp only [Result.bind_eq_ok, Result.pure_eq_ok, Prod.mk.injEq] at h
    obtain ⟨_, -, -, rfl⟩ := h
    exact .alreadySettled hrow hrowState
  | reviewed => cases h
  | running =>
    simp only [Result.bind_eq_ok, Result.pure_eq_ok, Result.require_eq_ok, Prod.mk.injEq] at h
    obtain ⟨⟨⟩, hopen, settled, hsettled, _, -, -, rfl⟩ := h
    obtain ⟨at_, rfl⟩ := setOperationState_ok hsettled
    refine .settled hrow hrowState fun item hitem hid => ?_
    have hnone : (journal.itemRows id).filter (fun row => row.outcome.isNone) = [] :=
      List.eq_nil_of_length_eq_zero (of_decide_eq_true hopen)
    rw [List.filter_eq_nil_iff] at hnone
    have hmem : item ∈ journal.itemRows id := by simp [itemRows, hitem, hid]
    simpa [Option.isNone_iff_eq_none, Option.isSome_iff_ne_none] using hnone item hmem

theorem writeTxn_cases {α : Type} (journal : Journal) (answer : α → JournalAnswer)
    (body : Result (α × Journal)) :
    (∃ error, writeTxn journal answer body = (.error error, journal)) ∨
      ∃ value after, body = .ok (value, after) ∧
        writeTxn journal answer body = (.ok (answer value), after) := by
  cases body with
  | error error => exact .inl ⟨error, rfl⟩
  | ok done => exact .inr ⟨done.1, done.2, rfl, rfl⟩

theorem call_cases (journal : Journal) (call : JournalCall) :
    (∃ error, journal.call call = (.error error, journal)) ∨
      ∃ answer after, journal.call call = (.ok answer, after) ∧ journal.Effect call after := by
  cases call with
  | record kind drafts id now =>
    refine (writeTxn_cases journal .operation _).imp_right ?_
    rintro ⟨operation, after, hbody, hcall⟩
    exact ⟨_, after, hcall, recordStorageOperation_effect hbody⟩
  | start id now =>
    refine (writeTxn_cases journal .operation _).imp_right ?_
    rintro ⟨operation, after, hbody, hcall⟩
    exact ⟨_, after, hcall, startStorageOperation_effect hbody⟩
  | advance id seq expected change now =>
    refine (writeTxn_cases journal .item _).imp_right ?_
    rintro ⟨item, after, hbody, hcall⟩
    exact ⟨_, after, hcall, advanceStorageItem_effect hbody⟩
  | settle id now =>
    refine (writeTxn_cases journal .operation _).imp_right ?_
    rintro ⟨operation, after, hbody, hcall⟩
    exact ⟨_, after, hcall, settleStorageOperation_effect hbody⟩

/-! ## The invariant -/

end Journal

def ItemRow.recorded (row : ItemRow) : ItemChange :=
  ⟨row.phase, row.outcome, row.reason, row.written⟩

/-- An item row of an operation of `kind` is well formed: its last change fits, a file keeps its
digest in every phase, and only files are transferred. -/
structure ItemFits (kind : StorageOperationKind) (row : ItemRow) : Prop
    extends ChangeFits kind row.recorded where
  digest : row.identity.kind = .file →
    ∃ digest, row.sha256 = some digest ∧ sha256 digest = .ok ()
  transfer : kind ≠ .trash → row.identity.kind = .file

theorem ItemFits.ofDraft {kind : StorageOperationKind} {draft : StorageItemDraft}
    (h : DraftFits kind draft) (id : Uuid) (seq : Nat) (at_ : String) :
    ItemFits kind (.ofDraft id seq draft at_) where
  phase := by cases kind <;> rfl
  settled := by simp [ItemRow.recorded, ItemRow.ofDraft]
  outcome := by simp [ItemRow.recorded, ItemRow.ofDraft]
  reason := rfl
  written := by simp [ItemRow.recorded, ItemRow.ofDraft, wrote]
  trash := fun _ => rfl
  digest := h.digest
  transfer := h.transfer

theorem ItemFits.change {kind : StorageOperationKind} {row : ItemRow} {change : ItemChange}
    (h : ItemFits kind row) (hchange : ChangeFits kind change) (at_ : String) :
    ItemFits kind (row.change change at_) where
  toChangeFits := hchange
  digest := h.digest
  transfer := h.transfer

namespace Journal

/-- Every item fits its operation, and a settled operation has no open item. -/
structure Lawful (journal : Journal) : Prop where
  item : ∀ row ∈ journal.items.rows,
    ∃ op ∈ journal.operations.rows, op.id = row.opId ∧ ItemFits op.kind row
  settled : ∀ op ∈ journal.operations.rows, op.state = .settled →
    ∀ row ∈ journal.items.rows, row.opId = op.id → row.outcome.isSome = true

theorem Lawful.empty : Lawful .empty where
  item := by simp [Journal.empty, Table.empty]
  settled := by simp [Journal.empty, Table.empty]

theorem mem_updateOperation {journal : Journal} {id : Uuid} {state : StorageOperationState}
    {at_ : String} {op : OperationRow}
    (h : op ∈ (journal.updateOperation id state at_).operations.rows) :
    (op ∈ journal.operations.rows ∧ op.id ≠ id) ∨ ∃ old ∈ journal.operations.rows, old.id = id ∧
      op = { old with state, revision := old.revision + 1, updatedAt := at_ } :=
  Table.mem_modify (by intro _; rfl) h

theorem mem_updateItem {journal : Journal} {id : Uuid} {seq : Nat} {change : ItemChange}
    {at_ : String} {row : ItemRow} (h : row ∈ (journal.updateItem id seq change at_).items.rows) :
    (row ∈ journal.items.rows ∧ row.key ≠ (id, seq)) ∨
      ∃ old ∈ journal.items.rows, old.key = (id, seq) ∧ row = old.change change at_ :=
  Table.mem_modify (by intro _; rfl) h

theorem exists_mem_updateOperation {journal : Journal} {id : Uuid} {state : StorageOperationState}
    {at_ : String} {op : OperationRow} (h : op ∈ journal.operations.rows) :
    ∃ op' ∈ (journal.updateOperation id state at_).operations.rows,
      op'.id = op.id ∧ op'.kind = op.kind := by
  refine ⟨_, Table.mem_modify_of_mem (by intro _; rfl) h, ?_⟩
  split <;> exact ⟨rfl, rfl⟩

theorem find?_updateOperation {journal : Journal} {id : Uuid} {op : OperationRow}
    (h : journal.operations.find? id = some op) (state : StorageOperationState) (at_ : String) :
    (journal.updateOperation id state at_).operations.find? id =
      some { op with state, revision := op.revision + 1, updatedAt := at_ } := by
  simp [updateOperation, Table.find?_modify, h]

theorem find?_updateOperation_ne {journal : Journal} {id id' : Uuid} (h : id' ≠ id)
    (state : StorageOperationState) (at_ : String) :
    (journal.updateOperation id state at_).operations.find? id' =
      journal.operations.find? id' := by
  simp [updateOperation, Table.find?_modify, h]

theorem find?_updateItem {journal : Journal} {id : Uuid} {seq : Nat} {row : ItemRow}
    (h : journal.items.find? (id, seq) = some row) (change : ItemChange) (at_ : String) :
    (journal.updateItem id seq change at_).items.find? (id, seq) =
      some (row.change change at_) := by
  simp [updateItem, Table.find?_modify, h]

theorem find?_updateItem_ne {journal : Journal} {id : Uuid} {seq : Nat} {key : Uuid × Nat}
    (h : key ≠ (id, seq)) (change : ItemChange) (at_ : String) :
    (journal.updateItem id seq change at_).items.find? key = journal.items.find? key := by
  simp [updateItem, Table.find?_modify, h]

theorem Lawful.recorded {journal after : Journal} {kind : StorageOperationKind}
    {drafts : List StorageItemDraft} {id : Uuid} {operations}
    {new : List ItemRow} {at_ : String} (h : Lawful journal)
    (hdrafts : ∀ draft ∈ drafts, DraftFits kind draft)
    (hinsert : journal.operations.insert? ⟨id, kind, .reviewed, 1, at_, at_⟩ = some operations)
    (hnew : ∀ row ∈ new, ∃ seq, ∃ draft ∈ drafts, row = .ofDraft id seq draft at_)
    (hoperations : after.operations = operations)
    (hitems : after.items.rows = journal.items.rows ++ new) : Lawful after := by
  obtain ⟨hfresh, hrows⟩ := Table.insert?_eq_some hinsert
  subst hoperations
  constructor
  · intro row hrow
    rw [hitems] at hrow
    rcases List.mem_append.mp hrow with hrow | hrow
    · obtain ⟨op, hop, hid, hfits⟩ := h.item row hrow
      exact ⟨op, by simp [hrows, hop], hid, hfits⟩
    · obtain ⟨seq, draft, hdraft, rfl⟩ := hnew row hrow
      refine ⟨⟨id, kind, .reviewed, 1, at_, at_⟩, by simp [hrows], rfl, ?_⟩
      exact .ofDraft (hdrafts draft hdraft) id seq at_
  · intro op hop hsettled row hrow hid
    rw [hrows] at hop
    rcases List.mem_append.mp hop with hop | hop
    · rw [hitems] at hrow
      rcases List.mem_append.mp hrow with hrow | hrow
      · exact h.settled op hop hsettled row hrow hid
      · obtain ⟨seq, draft, hdraft, rfl⟩ := hnew row hrow
        exact absurd hid.symm (Table.find?_eq_none.mp hfresh op hop)
    · -- the new operation is reviewed, not settled
      rw [List.mem_singleton.mp hop] at hsettled
      cases hsettled

theorem Lawful.setState {journal : Journal} {id : Uuid} {state : StorageOperationState}
    {at_ : String} (h : Lawful journal)
    (hopen : state = .settled → ∀ row ∈ journal.items.rows, row.opId = id →
      row.outcome.isSome = true) :
    Lawful (journal.updateOperation id state at_) := by
  constructor
  · intro row hrow
    obtain ⟨op, hop, hid, hfits⟩ := h.item row hrow
    obtain ⟨op', hop', hid', hkind⟩ := exists_mem_updateOperation hop
    exact ⟨op', hop', hid'.trans hid, hkind ▸ hfits⟩
  · intro op hop hsettled row hrow hid
    rcases mem_updateOperation hop with ⟨hop, -⟩ | ⟨old, hold, hkey, rfl⟩
    · exact h.settled op hop hsettled row hrow hid
    · exact hopen hsettled row hrow (hid.trans hkey)

theorem Lawful.advanced {journal : Journal} {id : Uuid} {seq : Nat} {change : ItemChange}
    {operation : OperationRow} {at_ : String} (h : Lawful journal)
    (hop : journal.operations.find? id = some operation) (hrunning : operation.state = .running)
    (hchange : ChangeFits operation.kind change) :
    Lawful (journal.updateItem id seq change at_) := by
  constructor
  · intro row hrow
    rcases mem_updateItem hrow with ⟨hrow, -⟩ | ⟨old, hold, hkey, rfl⟩
    · exact h.item row hrow
    · obtain ⟨op, hopMem, hid, hfits⟩ := h.item old hold
      have hidEq : op.id = id := hid.trans (congrArg Prod.fst hkey)
      have hsame : journal.operations.find? op.id = some op := Table.find?_of_mem hopMem
      rw [hidEq, hop, Option.some.injEq] at hsame
      exact ⟨op, hopMem, hid, hfits.change (hsame ▸ hchange) at_⟩
  · intro op hopMem hsettled row hrow hid
    rcases mem_updateItem hrow with ⟨hrow, -⟩ | ⟨old, hold, hkey, rfl⟩
    · exact h.settled op hopMem hsettled row hrow hid
    · have hidEq : op.id = id := hid.symm.trans (congrArg Prod.fst hkey)
      have hsame : journal.operations.find? op.id = some op := Table.find?_of_mem hopMem
      rw [hidEq, hop, Option.some.injEq] at hsame
      rw [← hsame, hrunning] at hsettled
      cases hsettled

theorem Effect.lawful {journal after : Journal} {call : JournalCall} (h : journal.Lawful)
    (heffect : journal.Effect call after) : after.Lawful := by
  cases heffect with
  | recorded hdrafts hinsert hnew after hoperations hitems =>
    exact h.recorded hdrafts hinsert hnew hoperations hitems
  | started => exact h.setState fun hstate => by cases hstate
  | running => exact h
  | advanced hop hrunning hchange =>
    exact h.advanced hop hrunning (validateChange_ok hchange)
  | settled _ _ hopen => exact h.setState fun _ => hopen
  | alreadySettled => exact h

/-! ## Nothing settled changes, no revision falls -/

structure Kept (journal later : Journal) : Prop where
  operation : ∀ id op, journal.operations.find? id = some op →
    ∃ op', later.operations.find? id = some op' ∧ op'.kind = op.kind ∧
      op.revision ≤ op'.revision ∧
      (op.state = .settled → op' = op ∧ later.itemRows id = journal.itemRows id)
  item : ∀ key row, journal.items.find? key = some row →
    ∃ row', later.items.find? key = some row' ∧ row.revision ≤ row'.revision ∧
      (row.outcome.isSome = true → row' = row)

theorem Kept.refl (journal : Journal) : Kept journal journal where
  operation _ op h := ⟨op, h, rfl, le_rfl, fun _ => ⟨rfl, rfl⟩⟩
  item _ row h := ⟨row, h, le_rfl, fun _ => rfl⟩

theorem Kept.trans {a b c : Journal} (hab : Kept a b) (hbc : Kept b c) : Kept a c where
  operation id op h := by
    obtain ⟨op', h', hkind, hrevision, hsettled⟩ := hab.operation id op h
    obtain ⟨op'', h'', hkind', hrevision', hsettled'⟩ := hbc.operation id op' h'
    refine ⟨op'', h'', hkind'.trans hkind, hrevision.trans hrevision', fun hs => ?_⟩
    obtain ⟨rfl, hrows⟩ := hsettled hs
    obtain ⟨rfl, hrows'⟩ := hsettled' hs
    exact ⟨rfl, hrows'.trans hrows⟩
  item key row h := by
    obtain ⟨row', h', hrevision, hsettled⟩ := hab.item key row h
    obtain ⟨row'', h'', hrevision', hsettled'⟩ := hbc.item key row' h'
    refine ⟨row'', h'', hrevision.trans hrevision', fun hs => ?_⟩
    obtain rfl := hsettled hs
    exact hsettled' hs

theorem Kept.recorded {journal after : Journal} {kind : StorageOperationKind}
    {drafts : List StorageItemDraft} {id : Uuid} {operations} {new : List ItemRow} {at_ : String}
    (hinsert : journal.operations.insert? ⟨id, kind, .reviewed, 1, at_, at_⟩ = some operations)
    (hnew : ∀ row ∈ new, ∃ seq, ∃ draft ∈ drafts, row = .ofDraft id seq draft at_)
    (hoperations : after.operations = operations)
    (hitems : after.items.rows = journal.items.rows ++ new) : Kept journal after where
  operation id' op h := by
    have hne : id' ≠ id := by
      rintro rfl
      rw [(Table.insert?_eq_some hinsert).1] at h
      cases h
    refine ⟨op, ?_, rfl, le_rfl, fun _ => ⟨rfl, ?_⟩⟩
    · rw [hoperations, Table.find?_insert? hinsert, if_neg hne]
      exact h
    · have hnone : new.filter (fun row => row.opId = id') = [] := by
        rw [List.filter_eq_nil_iff]
        intro row hrow
        obtain ⟨seq, draft, -, rfl⟩ := hnew row hrow
        simp [ItemRow.ofDraft, Ne.symm hne]
      rw [itemRows, hitems, List.filter_append, hnone, List.append_nil]
      rfl
  item key row h := by
    obtain ⟨hmem, rfl⟩ := Table.find?_eq_some.mp h
    exact ⟨row, Table.find?_of_mem (by simp [hitems, hmem]), le_rfl, fun _ => rfl⟩

theorem Kept.updateOperation {journal : Journal} {id : Uuid} {op : OperationRow}
    (h : journal.operations.find? id = some op) (hopen : op.state ≠ .settled)
    (state : StorageOperationState) (at_ : String) :
    Kept journal (journal.updateOperation id state at_) where
  operation id' op' h' := by
    by_cases hid : id' = id
    · subst hid
      rw [h, Option.some.injEq] at h'
      subst h'
      exact ⟨_, find?_updateOperation h state at_, rfl, Nat.le_succ _, fun hs => absurd hs hopen⟩
    · exact ⟨op', (find?_updateOperation_ne hid state at_).trans h', rfl, le_rfl,
        fun _ => ⟨rfl, rfl⟩⟩
  item _ row h := ⟨row, h, le_rfl, fun _ => rfl⟩

theorem Kept.updateItem {journal : Journal} {id : Uuid} {seq : Nat} {op : OperationRow}
    {row : ItemRow} (hop : journal.operations.find? id = some op) (hopen : op.state ≠ .settled)
    (hrow : journal.items.find? (id, seq) = some row) (hitem : row.outcome = none)
    (change : ItemChange) (at_ : String) :
    Kept journal (journal.updateItem id seq change at_) where
  operation id' op' h' := by
    refine ⟨op', h', rfl, le_rfl, fun hs => ⟨rfl, ?_⟩⟩
    have hne : id ≠ id' := by
      rintro rfl
      rw [hop, Option.some.injEq] at h'
      exact hopen (h' ▸ hs)
    refine Table.filter_modify (by intro _; rfl) fun row hkey => ?_
    have hid : row.opId = id := congrArg Prod.fst hkey
    simp [ItemRow.change, hid, hne]
  item key row' h' := by
    by_cases hkey : key = (id, seq)
    · subst hkey
      rw [hrow, Option.some.injEq] at h'
      subst h'
      exact ⟨_, find?_updateItem hrow change at_, Nat.le_succ _, fun hs => by simp [hitem] at hs⟩
    · exact ⟨row', (find?_updateItem_ne hkey change at_).trans h', le_rfl, fun _ => rfl⟩

theorem Effect.kept {journal after : Journal} {call : JournalCall}
    (heffect : journal.Effect call after) : Kept journal after := by
  cases heffect with
  | recorded _ hinsert hnew _ hoperations hitems => exact .recorded hinsert hnew hoperations hitems
  | started hrow hstate => exact .updateOperation hrow (by simp [hstate]) _ _
  | running => exact .refl _
  | advanced hop hstate _ hrow hopen _ => exact .updateItem hop (by simp [hstate]) hrow hopen _ _
  | settled hrow hstate => exact .updateOperation hrow (by simp [hstate]) _ _
  | alreadySettled => exact .refl _

/-- What an accepted call did to the revision of what it changed. A running operation started and
a settled one settled again are answered unchanged. -/
def Revised (journal : Journal) (call : JournalCall) (after : Journal) : Prop :=
  match call with
  | .record _ _ id _ => journal.operations.find? id = none ∧
      ∃ op, after.operations.find? id = some op ∧ op.revision = 1 ∧ op.state = .reviewed
  | .start id _ => ∃ op op', journal.operations.find? id = some op ∧
      after.operations.find? id = some op' ∧ op'.state = .running ∧
      (op.state = .reviewed ∧ op.revision < op'.revision ∨ op.state = .running ∧ after = journal)
  | .advance id seq expected change _ => ∃ op row row', journal.operations.find? id = some op ∧
      journal.items.find? (id, seq) = some row ∧ after.items.find? (id, seq) = some row' ∧
      validateChange op.kind change = .ok () ∧ op.state = .running ∧ row.outcome = none ∧
      row.revision = expected ∧ row.revision < row'.revision ∧ row'.recorded = change
  | .settle id _ => ∃ op op', journal.operations.find? id = some op ∧
      after.operations.find? id = some op' ∧ op'.state = .settled ∧
      (op.state = .running ∧ op.revision < op'.revision ∨ op.state = .settled ∧ after = journal)

theorem Effect.revised {journal after : Journal} {call : JournalCall}
    (heffect : journal.Effect call after) : Revised journal call after := by
  cases heffect with
  | @recorded kind _ id _ _ _ at_ _ hinsert _ _ hoperations _ =>
    refine ⟨(Table.insert?_eq_some hinsert).1, ⟨id, kind, .reviewed, 1, at_, at_⟩, ?_, rfl, rfl⟩
    rw [hoperations, Table.find?_insert? hinsert, if_pos rfl]
  | started hrow hstate =>
    exact ⟨_, _, hrow, find?_updateOperation hrow _ _, rfl, .inl ⟨hstate, Nat.lt_succ_self _⟩⟩
  | running hrow hstate => exact ⟨_, _, hrow, hrow, hstate, .inr ⟨hstate, rfl⟩⟩
  | advanced hop hstate hchange hrow hopen hrevision =>
    exact ⟨_, _, _, hop, hrow, find?_updateItem hrow _ _, hchange, hstate, hopen, hrevision,
      Nat.lt_succ_self _, rfl⟩
  | settled hrow hstate =>
    exact ⟨_, _, hrow, find?_updateOperation hrow _ _, rfl, .inl ⟨hstate, Nat.lt_succ_self _⟩⟩
  | alreadySettled hrow hstate => exact ⟨_, _, hrow, hrow, hstate, .inr ⟨hstate, rfl⟩⟩

/-! ## Runs -/

def Step (journal : Journal) (call : JournalCall) (after : Journal) : Prop :=
  (journal.call call).2 = after

/-- The journal a sequence of calls leaves, refused ones included. -/
def after (journal : Journal) (calls : List JournalCall) : Journal :=
  calls.foldl (fun journal call => (journal.call call).2) journal

theorem run_after (journal : Journal) (calls : List JournalCall) :
    Run Step journal calls (journal.after calls) := by
  induction calls generalizing journal with
  | nil => exact .nil journal
  | cons call calls ih => exact .cons rfl (ih _)

theorem Step.cases {journal next : Journal} {call : JournalCall} (h : Step journal call next) :
    next = journal ∨ journal.Effect call next := by
  obtain ⟨error, hcall⟩ | ⟨answer, after, hcall, heffect⟩ := call_cases journal call
  · exact .inl (h.symm.trans (by rw [hcall]))
  · rw [Step, hcall] at h
    exact .inr (h ▸ heffect)

theorem Step.lawful {journal next : Journal} {call : JournalCall} (hlaw : journal.Lawful)
    (h : Step journal call next) : next.Lawful := by
  rcases h.cases with rfl | heffect
  · exact hlaw
  · exact heffect.lawful hlaw

theorem Step.kept {journal next : Journal} {call : JournalCall} (h : Step journal call next) :
    Kept journal next := by
  rcases h.cases with rfl | heffect
  · exact .refl _
  · exact heffect.kept

theorem lawful_after (calls : List JournalCall) : (empty.after calls).Lawful :=
  (run_after empty calls).invariant (I := Lawful)
    (fun _ _ _ hlaw hstep => Step.lawful hlaw hstep) .empty

theorem kept_after (journal : Journal) (later : List JournalCall) :
    Kept journal (journal.after later) :=
  (run_after journal later).relates (I := fun _ => True) (R := Kept) Kept.refl
    (fun _ _ _ hab hbc => hab.trans hbc) (fun _ _ _ _ _ => trivial)
    (fun _ _ _ _ hstep => Step.kept hstep) trivial

theorem Kept.loadOperation {journal later : Journal} (h : Kept journal later) {id : Uuid}
    {operation : StorageOperation} (hload : journal.loadOperation id = .ok operation)
    (hsettled : operation.state = .settled) : later.loadOperation id = .ok operation := by
  have hrow : ∃ row, journal.operations.find? id = some row ∧ row.state = .settled := by
    simp only [Journal.loadOperation, operationRow, Result.bind_eq_ok, Result.orElse_eq_ok,
      Result.pure_eq_ok] at hload
    obtain ⟨row, hfind, _, -, rfl⟩ := hload
    exact ⟨row, hfind, hsettled⟩
  obtain ⟨row, hfind, hstate⟩ := hrow
  obtain ⟨row', hfind', -, -, hsame⟩ := h.operation id row hfind
  obtain ⟨rfl, hrows⟩ := hsame hstate
  rw [← hload]
  simp only [Journal.loadOperation, operationRow, hfind, hfind', hrows]

/-- After any calls: every item fits its operation and a settled operation has no open item; a
refused call leaves the journal as it is and an accepted one raises the revision of what it changed;
and whatever calls follow, what is settled reads the same and no revision falls. -/
theorem journal_laws (calls : List JournalCall) :
    (empty.after calls).Lawful ∧
    (∀ call, match (empty.after calls).call call with
      | (.error _, next) => next = empty.after calls
      | (.ok _, next) => Revised (empty.after calls) call next) ∧
    ∀ later, Kept (empty.after calls) ((empty.after calls).after later) ∧
      ∀ id operation, (empty.after calls).loadOperation id = .ok operation →
        operation.state = .settled →
        ((empty.after calls).after later).loadOperation id = .ok operation := by
  refine ⟨lawful_after calls, fun call => ?_, fun later => ⟨kept_after _ later, ?_⟩⟩
  · obtain ⟨error, hcall⟩ | ⟨answer, next, hcall, heffect⟩ := call_cases (empty.after calls) call
    · rw [hcall]
    · rw [hcall]
      exact heffect.revised
  · intro id operation hload hsettled
    exact (kept_after _ later).loadOperation hload hsettled

end Journal

end PlateVault
