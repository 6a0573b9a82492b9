import Mathlib.Algebra.Order.BigOperators.Group.List
import Mathlib.Algebra.Order.Group.Nat
import PlateVault.Custody.Executor
import PlateVault.Storage.Laws

/-!
# Every storage operation settles

The phases an operation's own steps record keep what the next step reads (`Own`), so a step fails
only where one of its effects does. It takes the first open item to a later phase, which bounds the
steps of a run. Between two effects other operations' calls may come, and a run may stop at any of
them and start over later.
-/

namespace PlateVault

/-! ## Calls of other operations -/

def JournalCall.target : JournalCall → Uuid
  | .record _ _ id _ | .start id _ | .advance id .. | .settle id _ => id

namespace Journal

/-- `later` has the operation's rows as they were. -/
def Same (id : Uuid) (journal later : Journal) : Prop :=
  later.operations.find? id = journal.operations.find? id ∧ later.itemRows id = journal.itemRows id

theorem itemRows_updateItem (journal : Journal) (id : Uuid) (seq : Nat) (change : ItemChange)
    (at_ : String) : (journal.updateItem id seq change at_).itemRows id =
      (journal.itemRows id).map fun row => if row.seq = seq then row.change change at_ else row := by
  unfold updateItem itemRows Table.modify
  simp only
  induction journal.items.rows with
  | nil => rfl
  | cons row rows ih =>
    rw [List.map_cons]
    by_cases hid : row.opId = id
    · have hkey : row.key = (id, seq) ↔ row.seq = seq := by simp [ItemRow.key, hid]
      have hnew : (if row.key = (id, seq) then row.change change at_ else row).opId = id := by
        split <;> exact hid
      rw [List.filter_cons_of_pos (by simpa using hnew), List.filter_cons_of_pos (by simpa using hid),
        List.map_cons, ih]
      simp only [hkey]
    · have hkey : row.key ≠ (id, seq) := fun heq => hid (congrArg Prod.fst heq)
      rw [if_neg hkey, List.filter_cons_of_neg (by simpa using hid),
        List.filter_cons_of_neg (by simpa using hid), ih]

theorem itemRows_updateItem_ne (journal : Journal) {id other : Uuid} (h : other ≠ id) (seq : Nat)
    (change : ItemChange) (at_ : String) :
    (journal.updateItem other seq change at_).itemRows id = journal.itemRows id := by
  refine Table.filter_modify (by intro _; rfl) fun row hkey => ?_
  have hid : row.opId = other := congrArg Prod.fst hkey
  simp [ItemRow.change, hid, h]

theorem Effect.same {journal after : Journal} {call : JournalCall} {id : Uuid}
    (h : journal.Effect call after) (hother : call.target ≠ id) : journal.Same id after := by
  cases h with
  | @recorded kind drafts other now operations new at_ _ hinsert hnew _ hoperations hitems =>
    have hother' : id ≠ other := fun heq => hother heq.symm
    constructor
    · rw [hoperations, Table.find?_insert? hinsert, if_neg hother']
    · have hnone : new.filter (fun row => row.opId = id) = [] := by
        rw [List.filter_eq_nil_iff]
        intro row hrow
        obtain ⟨seq, draft, -, rfl⟩ := hnew row hrow
        simp [ItemRow.ofDraft, Ne.symm hother']
      unfold itemRows
      rw [hitems, List.filter_append, hnone, List.append_nil]
  | started => exact ⟨find?_updateOperation_ne (Ne.symm hother) _ _, rfl⟩
  | running => exact ⟨rfl, rfl⟩
  | advanced => exact ⟨rfl, itemRows_updateItem_ne journal hother _ _ _⟩
  | settled => exact ⟨find?_updateOperation_ne (Ne.symm hother) _ _, rfl⟩
  | alreadySettled => exact ⟨rfl, rfl⟩

theorem same_after {journal : Journal} {id : Uuid} {calls : List JournalCall}
    (h : ∀ call ∈ calls, call.target ≠ id) : journal.Same id (journal.after calls) := by
  induction calls generalizing journal with
  | nil => exact ⟨rfl, rfl⟩
  | cons call calls ih =>
    have hrest : (journal.call call).2.Same id ((journal.call call).2.after calls) :=
      ih fun c hc => h c (List.mem_cons_of_mem _ hc)
    have hfirst : journal.Same id (journal.call call).2 := by
      obtain ⟨error, hcall⟩ | ⟨answer, after, hcall, heffect⟩ := call_cases journal call
      · rw [hcall]
        exact ⟨rfl, rfl⟩
      · rw [hcall]
        exact heffect.same (h call List.mem_cons_self)
    exact ⟨hrest.1.trans hfirst.1, hrest.2.trans hfirst.2⟩

end Journal

namespace Custody

/-! ## What an operation's own steps record -/

def ItemPhase.rank : ItemPhase → Nat
  | .pending => 0
  | .writing => 1
  | .installed => 2
  | .destinationVerified => 3
  | .retiring => 4
  | .settled => 5

def Reaches (kind : StorageOperationKind) (phase : ItemPhase) : Prop :=
  phaseFits kind phase = true ∧ (kind = .copy → phase ≠ .destinationVerified)

/-- An item row that the steps of an operation of `kind` record. -/
structure OwnRow (kind : StorageOperationKind) (row : ItemRow) : Prop extends
    ChangeFits kind row.recorded where
  seq : row.seq < 2 ^ 32
  reaches : Reaches kind row.phase
  destination : kind ≠ .trash → row.destination.isSome = true
  revision : row.revision ≤ ItemPhase.rank row.phase + 1

def stateRank : StorageOperationState → Nat
  | .reviewed => 1
  | .running => 2
  | .settled => 3

/-- The operation and its items, as its own steps record them. -/
structure Own (id : Uuid) (op : OperationRow) (journal : Journal) : Prop where
  operation : journal.operations.find? id = some op
  revision : op.revision ≤ stateRank op.state
  items : ∀ row ∈ journal.itemRows id, OwnRow op.kind row
  settled : op.state = .settled → ∀ row ∈ journal.itemRows id, row.outcome.isSome = true

theorem Own.same {id : Uuid} {op : OperationRow} {journal later : Journal} (h : Own id op journal)
    (hsame : journal.Same id later) : Own id op later where
  operation := hsame.1.trans h.operation
  revision := h.revision
  items row hrow := h.items row (hsame.2 ▸ hrow)
  settled hstate row hrow := h.settled hstate row (hsame.2 ▸ hrow)

/-! ## What the calls answer -/

def item (row : ItemRow) : StorageItem where
  seq := row.seq
  source := {
    path := row.path
    root := row.root
    kind := row.identity.kind
    fingerprint := row.identity.fingerprint
    sha256 := row.sha256 }
  reliedOn := row.reliedOn
  destination := row.destination
  written := row.written
  phase := row.phase
  outcome := row.outcome
  reason := row.reason
  revision := row.revision
  updatedAt := row.updatedAt

theorem itemFromRow_eq {row : ItemRow} (h : row.seq < 2 ^ 32) : itemFromRow row = .ok (item row) := by
  unfold itemFromRow
  rw [show decide (row.seq < 2 ^ 32) = true from decide_eq_true h]
  rfl

theorem readAll_eq {rows : List ItemRow} (h : ∀ row ∈ rows, row.seq < 2 ^ 32) :
    readAll itemFromRow rows = .ok (rows.map item) := by
  induction rows with
  | nil => rfl
  | cons row rows ih =>
    unfold readAll
    rw [itemFromRow_eq (h row List.mem_cons_self), ih fun r hr => h r (List.mem_cons_of_mem _ hr)]
    rfl

structure Reads (journal : Journal) (id : Uuid) (op : OperationRow) (operation : StorageOperation) :
    Prop where
  kind : operation.kind = op.kind
  state : operation.state = op.state
  items : ∀ i, i ∈ operation.items ↔ ∃ row ∈ journal.itemRows id, item row = i

theorem Own.loadOperation {id : Uuid} {op : OperationRow} {journal : Journal}
    (h : Own id op journal) :
    ∃ operation, journal.loadOperation id = .ok operation ∧ Reads journal id op operation := by
  let rows := (journal.itemRows id).insertionSort fun left right => left.seq ≤ right.seq
  have hrows : readAll itemFromRow rows = .ok (rows.map item) := by
    apply readAll_eq
    intro row hrow
    exact (h.items row (((journal.itemRows id).perm_insertionSort _).mem_iff.mp hrow)).seq
  refine ⟨⟨id, op.kind, op.state, op.revision, rows.map item, op.createdAt, op.updatedAt⟩, ?_,
    ⟨rfl, rfl, fun i => ?_⟩⟩
  · unfold Journal.loadOperation Journal.operationRow
    rw [h.operation]
    change (readAll itemFromRow rows >>= _) = _
    rw [hrows]
    rfl
  · simp only [List.mem_map]
    constructor
    · rintro ⟨row, hrow, rfl⟩
      exact ⟨row, ((journal.itemRows id).perm_insertionSort _).mem_iff.mp hrow, rfl⟩
    · rintro ⟨row, hrow, rfl⟩
      exact ⟨row, ((journal.itemRows id).perm_insertionSort _).mem_iff.mpr hrow, rfl⟩

def startedRow (op : OperationRow) (at_ : String) : OperationRow :=
  { op with state := .running, revision := op.revision + 1, updatedAt := at_ }

theorem Own.started {id : Uuid} {op : OperationRow} {journal : Journal} (h : Own id op journal)
    (hstate : op.state = .reviewed) (at_ : String) :
    Own id (startedRow op at_) (journal.updateOperation id .running at_) where
  operation := Journal.find?_updateOperation h.operation .running at_
  revision := by
    have := h.revision
    rw [hstate] at this
    exact Nat.succ_le_succ this
  items := h.items
  settled hsettled := by cases hsettled

def settledRow (op : OperationRow) (at_ : String) : OperationRow :=
  { op with state := .settled, revision := op.revision + 1, updatedAt := at_ }

theorem Own.settle {id : Uuid} {op : OperationRow} {journal : Journal} (h : Own id op journal)
    (hstate : op.state = .running) (hdone : ∀ row ∈ journal.itemRows id, row.outcome.isSome = true)
    (at_ : String) : Own id (settledRow op at_) (journal.updateOperation id .settled at_) where
  operation := Journal.find?_updateOperation h.operation .settled at_
  revision := by
    have := h.revision
    rw [hstate] at this
    exact Nat.succ_le_succ this
  items := h.items
  settled _ := hdone

/-- A change that takes an item of `kind` from a phase to a later one it may reach. -/
structure Forward (kind : StorageOperationKind) (row : ItemRow) (change : ItemChange) : Prop where
  valid : validateChange kind change = .ok ()
  reaches : Reaches kind change.phase
  later : ItemPhase.rank row.phase < ItemPhase.rank change.phase

theorem OwnRow.change {kind : StorageOperationKind} {row : ItemRow} {change : ItemChange}
    (h : OwnRow kind row) (hchange : Forward kind row change) (at_ : String) :
    OwnRow kind (row.change change at_) where
  toChangeFits := validateChange_ok hchange.valid
  seq := h.seq
  reaches := hchange.reaches
  destination := h.destination
  revision := by
    have := h.revision
    have := hchange.later
    change row.revision + 1 ≤ ItemPhase.rank change.phase + 1
    omega

/-- One item's row is `next` now, and no other changed. -/
def Replaced (id : Uuid) (journal : Journal) (row next : ItemRow) (later : Journal) : Prop :=
  later.itemRows id =
    (journal.itemRows id).map fun other => if other.seq = row.seq then next else other

theorem mem_itemRows {journal : Journal} {id : Uuid} {row : ItemRow} :
    row ∈ journal.itemRows id ↔ row ∈ journal.items.rows ∧ row.opId = id := by
  simp [Journal.itemRows]

theorem eq_of_seq {journal : Journal} {id : Uuid} {row other : ItemRow}
    (hrow : row ∈ journal.itemRows id) (hother : other ∈ journal.itemRows id)
    (hseq : other.seq = row.seq) : other = row := by
  obtain ⟨hmem, hid⟩ := mem_itemRows.mp hrow
  obtain ⟨hmem', hid'⟩ := mem_itemRows.mp hother
  exact List.inj_on_of_nodup_map journal.items.nodup hmem' hmem
    (Prod.ext (hid'.trans hid.symm) hseq)

theorem find?_item {journal : Journal} {id : Uuid} {row : ItemRow}
    (hrow : row ∈ journal.itemRows id) : journal.items.find? (id, row.seq) = some row := by
  obtain ⟨hmem, rfl⟩ := mem_itemRows.mp hrow
  exact Table.find?_of_mem hmem

theorem Replaced.update {id : Uuid} {journal : Journal} {row : ItemRow}
    (hrow : row ∈ journal.itemRows id) (change : ItemChange) (at_ : String) :
    Replaced id journal row (row.change change at_)
      (journal.updateItem id row.seq change at_) := by
  unfold Replaced
  rw [Journal.itemRows_updateItem]
  apply List.map_congr_left
  intro other hother
  by_cases hseq : other.seq = row.seq
  · rw [if_pos hseq, if_pos hseq, eq_of_seq hrow hother hseq]
  · rw [if_neg hseq, if_neg hseq]

theorem Replaced.of_same {id : Uuid} {journal later : Journal} {row : ItemRow}
    (hrow : row ∈ journal.itemRows id) (h : later.itemRows id = journal.itemRows id) :
    Replaced id journal row row later := by
  unfold Replaced
  rw [h]
  conv_lhs => rw [← List.map_id (journal.itemRows id)]
  apply List.map_congr_left
  intro other hother
  by_cases hseq : other.seq = row.seq
  · rw [if_pos hseq, eq_of_seq hrow hother hseq]
    rfl
  · rw [if_neg hseq]
    rfl

theorem Replaced.trans {id : Uuid} {journal middle later : Journal} {row next last : ItemRow}
    (h : Replaced id journal row next middle) (hseq : next.seq = row.seq)
    (h' : Replaced id middle next last later) : Replaced id journal row last later := by
  unfold Replaced at h h' ⊢
  rw [h', h, List.map_map]
  apply List.map_congr_left
  intro other _
  simp only [Function.comp_apply]
  by_cases hother : other.seq = row.seq
  · rw [if_pos hother, if_pos hother, if_pos rfl]
  · rw [if_neg hother, if_neg hother, if_neg (by rwa [hseq])]

theorem Replaced.mem {id : Uuid} {journal later : Journal} {row next : ItemRow}
    (h : Replaced id journal row next later) (hrow : row ∈ journal.itemRows id) :
    next ∈ later.itemRows id := by
  rw [h]
  exact List.mem_map.mpr ⟨row, hrow, if_pos rfl⟩

theorem Replaced.keeps {id : Uuid} {journal later : Journal} {row next other : ItemRow}
    (h : Replaced id journal row next later) (hrow : row ∈ journal.itemRows id)
    (hother : other ∈ journal.itemRows id) (hne : other ≠ row) : other ∈ later.itemRows id := by
  rw [h]
  exact List.mem_map.mpr ⟨other, hother, if_neg fun hseq => hne (eq_of_seq hrow hother hseq)⟩

theorem Own.updateItem {id : Uuid} {op : OperationRow} {journal : Journal} {row : ItemRow}
    {change : ItemChange} (h : Own id op journal) (hstate : op.state = .running)
    (hrow : row ∈ journal.itemRows id) (hforward : Forward op.kind row change) (at_ : String) :
    Own id op (journal.updateItem id row.seq change at_) where
  operation := h.operation
  revision := h.revision
  items next hnext := by
    rw [Replaced.update hrow change at_] at hnext
    obtain ⟨other, hother, rfl⟩ := List.mem_map.mp hnext
    split
    · exact (h.items row hrow).change hforward at_
    · exact h.items other hother
  settled hsettled := by
    rw [hstate] at hsettled
    cases hsettled

/-! ## The calls never fail by themselves -/

section Calls

variable {id : Uuid} {op : OperationRow} {journal : Journal} {at_ : String}

theorem Own.setOperationState (h : Own id op journal)
    (state : StorageOperationState) : journal.setOperationState id state (.ok at_) =
      .ok (journal.updateOperation id state at_) := by
  have hrevision : op.revision < maxColumn := by
    have := h.revision
    have hrank : stateRank op.state ≤ 3 := by cases op.state <;> decide
    unfold maxColumn
    omega
  unfold Journal.setOperationState Journal.operationRow
  rw [h.operation]
  change (Result.require (decide (op.revision < maxColumn)) _ >>= _) = _
  rw [decide_eq_true hrevision]
  rfl

theorem Own.start_reviewed (h : Own id op journal) (at_ : String) (hstate : op.state = .reviewed) :
    ∃ operation, journal.startStorageOperation id (.ok at_) =
        .ok (operation, journal.updateOperation id .running at_) ∧
      (journal.updateOperation id .running at_).loadOperation id = .ok operation ∧
      Reads (journal.updateOperation id .running at_) id (startedRow op at_) operation := by
  obtain ⟨operation, hload, hreads⟩ := (h.started hstate at_).loadOperation
  refine ⟨operation, ?_, hload, hreads⟩
  unfold Journal.startStorageOperation
  rw [Result.bind_eq_ok]
  refine ⟨.reviewed, Journal.operationState_eq_ok.mpr ⟨op, h.operation, hstate⟩, ?_⟩
  change (journal.setOperationState id .running (.ok at_) >>= _) = _
  rw [h.setOperationState]
  change ((journal.updateOperation id .running at_).loadOperation id >>= _) = _
  rw [hload]
  rfl

theorem Own.settle_running (h : Own id op journal) (at_ : String) (hstate : op.state = .running)
    (hdone : ∀ row ∈ journal.itemRows id, row.outcome.isSome = true) :
    ∃ operation, journal.settleStorageOperation id (.ok at_) =
        .ok (operation, journal.updateOperation id .settled at_) ∧
      (journal.updateOperation id .settled at_).loadOperation id = .ok operation ∧
      Reads (journal.updateOperation id .settled at_) id (settledRow op at_) operation := by
  obtain ⟨operation, hload, hreads⟩ := (h.settle hstate hdone at_).loadOperation
  refine ⟨operation, ?_, hload, hreads⟩
  have hopen : ((journal.itemRows id).filter fun row => row.outcome.isNone).length = 0 := by
    rw [List.length_eq_zero_iff, List.filter_eq_nil_iff]
    intro row hrow hnone
    have := hdone row hrow
    rw [Option.isNone_iff_eq_none.mp hnone] at this
    cases this
  unfold Journal.settleStorageOperation
  rw [Result.bind_eq_ok]
  refine ⟨.running, Journal.operationState_eq_ok.mpr ⟨op, h.operation, hstate⟩, ?_⟩
  change (Result.require (decide (((journal.itemRows id).filter
    fun row => row.outcome.isNone).length = 0)) _ >>= _) = _
  rw [hopen]
  change (journal.setOperationState id .settled (.ok at_) >>= _) = _
  rw [h.setOperationState]
  change ((journal.updateOperation id .settled at_).loadOperation id >>= _) = _
  rw [hload]
  rfl

theorem Own.advance (h : Own id op journal) (hstate : op.state = .running) {row : ItemRow}
    (hrow : row ∈ journal.itemRows id) (hopen : row.outcome = none) {change : ItemChange}
    (hforward : Forward op.kind row change) :
    journal.advanceStorageItem id row.seq row.revision change (.ok at_) =
      .ok (item (row.change change at_), journal.updateItem id row.seq change at_) := by
  have hown := h.items row hrow
  have hrevision : row.revision < maxColumn := by
    have := hown.revision
    have hrank : ItemPhase.rank row.phase ≤ 5 := by cases row.phase <;> decide
    unfold maxColumn
    omega
  have hsettled : decide (change.phase = .settled) = change.outcome.isSome := by
    have := (validateChange_ok hforward.valid).settled
    cases hsome : change.outcome.isSome with
    | false =>
      rw [hsome] at this
      exact decide_eq_false fun hphase => absurd (this.mp hphase) (by decide)
    | true => exact decide_eq_true (this.mpr hsome)
  have hload : journal.loadItem id row.seq = .ok (item row) := by
    unfold Journal.loadItem
    rw [find?_item hrow]
    exact itemFromRow_eq hown.seq
  have hloadNext : (journal.updateItem id row.seq change at_).loadItem id row.seq =
      .ok (item (row.change change at_)) := by
    unfold Journal.loadItem
    rw [Journal.find?_updateItem (find?_item hrow)]
    exact itemFromRow_eq (hown.change hforward at_).seq
  unfold Journal.advanceStorageItem
  rw [Result.bind_eq_ok]
  refine ⟨op, Journal.operationRow_eq_ok.mpr h.operation, ?_⟩
  rw [hforward.valid]
  change (journal.operationState id >>= _) = _
  rw [Journal.operationState_eq_ok.mpr ⟨op, h.operation, hstate⟩]
  change (journal.loadItem id row.seq >>= _) = _
  rw [hload]
  change (Result.require row.outcome.isNone _ >>= fun _ => Result.require
    (decide (row.revision = row.revision)) _ >>= fun _ => Result.require
      (decide (row.revision < maxColumn)) _ >>= fun _ => Result.require
        (decide (decide (change.phase = .settled) = change.outcome.isSome)) _ >>= fun _ =>
          (journal.updateItem id row.seq change at_).loadItem id row.seq >>= _) = _
  rw [hopen, decide_eq_true rfl, decide_eq_true hrevision, decide_eq_true hsettled, hloadNext]
  rfl

end Calls

/-! ## The executor's surroundings -/

/-- The journal, the errors its effects have failed with, and the reasons the file system has refused
a change for. -/
structure World where
  journal : Journal
  failures : List LibraryError
  refusals : List ItemReason

/-- `write_txn!`: a body that fails leaves the tables as they were. -/
def txn {α : Type} (journal : Journal) (body : Result (α × Journal)) : Result α × Journal :=
  match body with
  | .ok (a, after) => (.ok a, after)
  | .error error => (.error error, journal)

/-- What an effect answers where nothing around it fails; the file system may answer anything. -/
def Answers (journal : Journal) (act : Act) (r : Except LibraryError act.Answer)
    (after : Journal) : Prop :=
  match act, r with
  | .storageOperation id, r => r = journal.loadOperation id ∧ after = journal
  | .startStorageOperation id, r =>
    ∃ at_, (r, after) = txn journal (journal.startStorageOperation id (.ok at_))
  | .advanceStorageItem id seq expected change, r =>
    ∃ at_, (r, after) = txn journal (journal.advanceStorageItem id seq expected change (.ok at_))
  | .settleStorageOperation id, r =>
    ∃ at_, (r, after) = txn journal (journal.settleStorageOperation id (.ok at_))
  | .inPlace _, r => (∃ a, r = .ok a) ∧ after = journal
  | .begin .., r => (∃ a, r = .ok a) ∧ after = journal
  | .write .., r => (∃ a, r = .ok a) ∧ after = journal
  | .verify .., r => (∃ a, r = .ok a) ∧ after = journal
  | .retire .., r => (∃ a, r = .ok a) ∧ after = journal

def refusal (act : Act) (answer : act.Answer) : Option ItemReason :=
  match act, answer with
  | .begin .., .error reason => some reason
  | .write .., .error reason => some reason
  | .verify .., .error reason => some reason
  | .retire .., .blocked reason => some reason
  | .retire .., .uncertain reason => some reason
  | _, _ => none

/-- One effect for the operation `id`, after any calls of other operations. It fails, with or without
having happened, or answers. -/
inductive Performs (id : Uuid) (w : World) (act : Act) :
    Except LibraryError act.Answer → World → Prop
  | failed {calls : List JournalCall} {error : LibraryError} {after : Journal} :
      (∀ call ∈ calls, call.target ≠ id) →
      (after = w.journal.after calls ∨ ∃ r, Answers (w.journal.after calls) act r after) →
      Performs id w act (.error error) ⟨after, w.failures ++ [error], w.refusals⟩
  | answered {calls : List JournalCall} {answer : act.Answer} {after : Journal} :
      (∀ call ∈ calls, call.target ≠ id) →
      Answers (w.journal.after calls) act (.ok answer) after →
      Performs id w act (.ok answer)
        ⟨after, w.failures, w.refusals ++ (refusal act answer).toList⟩
  | refused {calls : List JournalCall} {error : LibraryError} {after : Journal} :
      (∀ call ∈ calls, call.target ≠ id) →
      Answers (w.journal.after calls) act (.error error) after →
      Performs id w act (.error error) ⟨after, w.failures, w.refusals⟩

/-- The journal holds the operation, of `kind`, as its own steps record it. -/
def Stands (id : Uuid) (kind : StorageOperationKind) (w : World) : Prop :=
  ∃ op, op.kind = kind ∧ Own id op w.journal

/-- Every stop leaves the operation standing, and an error is one an effect failed with. -/
abbrev Going {α : Type} (id : Uuid) (kind : StorageOperationKind) (Q : α → World → Prop)
    (p : Exec α) (w : World) : Prop :=
  Prog.Tries (Performs id) (Stands id kind) Q (fun error w' => error ∈ w'.failures) p w

section Effects

variable {α : Type} {id : Uuid} {op : OperationRow} {w : World} {Q : α → World → Prop}

/-- What an effect leaves that changes no row of the operation. -/
structure Quiet (id : Uuid) (w : World) (reasons : List ItemReason) (w' : World) : Prop where
  same : w.journal.Same id w'.journal
  failures : w'.failures = w.failures
  refusals : w'.refusals = w.refusals ++ reasons

theorem going_ask {act : Act} {f : act.Answer → Exec α} (h : Own id op w.journal)
    (hown : ∀ journal r after, Own id op journal → w.journal.Same id journal →
      Answers journal act r after → (∃ op', op'.kind = op.kind ∧ Own id op' after) ∧
        ∃ answer, r = .ok answer)
    (hnext : ∀ journal answer after, Own id op journal → w.journal.Same id journal →
      Answers journal act (.ok answer) after →
      Going id op.kind Q (f answer)
        ⟨after, w.failures, w.refusals ++ (refusal act answer).toList⟩) :
    Going id op.kind Q (ask act >>= f) w := by
  have hsame : ∀ {calls : List JournalCall}, (∀ call ∈ calls, call.target ≠ id) →
      w.journal.Same id (w.journal.after calls) := Journal.same_after
  apply Prog.tries_ask_bind ⟨op, rfl, h⟩
  · rintro answer w' (_ | ⟨hcalls, hanswer⟩)
    exact hnext _ answer _ (h.same (hsame hcalls)) (hsame hcalls) hanswer
  · rintro error w' (⟨hcalls, hafter⟩ | _ | ⟨hcalls, hanswer⟩)
    · refine ⟨?_, List.mem_append_right _ (List.mem_singleton_self error)⟩
      rcases hafter with rfl | ⟨r, hanswer⟩
      · exact ⟨op, rfl, h.same (hsame hcalls)⟩
      · exact (hown _ r _ (h.same (hsame hcalls)) (hsame hcalls) hanswer).1
    · obtain ⟨answer, hok⟩ := (hown _ _ _ (h.same (hsame hcalls)) (hsame hcalls) hanswer).2
      cases hok

theorem going_fs {act : Act} {f : act.Answer → Exec α} (h : Own id op w.journal)
    (hfs : ∀ journal r after, Answers journal act r after → (∃ a, r = .ok a) ∧ after = journal)
    (hnext : ∀ answer w', Quiet id w (refusal act answer).toList w' →
      Going id op.kind Q (f answer) w') :
    Going id op.kind Q (ask act >>= f) w := by
  apply going_ask h
  · intro journal r after hown _ hanswer
    obtain ⟨hok, rfl⟩ := hfs journal r after hanswer
    exact ⟨⟨op, rfl, hown⟩, hok⟩
  · intro journal answer after _ hsame hanswer
    obtain ⟨-, rfl⟩ := hfs journal _ after hanswer
    exact hnext answer _ ⟨hsame, rfl, rfl⟩

theorem going_load {f : StorageOperation → Exec α} (h : Own id op w.journal)
    (hnext : ∀ operation w', Quiet id w [] w' → Reads w'.journal id op operation →
      w'.journal.loadOperation id = .ok operation → Going id op.kind Q (f operation) w') :
    Going id op.kind Q (ask (.storageOperation id) >>= f) w := by
  apply going_ask h
  · rintro journal r after hown - ⟨hload, rfl⟩
    obtain ⟨operation, hoperation, -⟩ := hown.loadOperation
    exact ⟨⟨op, rfl, hown⟩, operation, hload.trans hoperation⟩
  · rintro journal operation after hown hsame ⟨hload, rfl⟩
    obtain ⟨found, hfound, hreads⟩ := hown.loadOperation
    cases hload.trans hfound
    exact hnext operation _ ⟨hsame, rfl, rfl⟩ hreads hfound

theorem txn_ok {journal after : Journal} {a : α} {body : Result (α × Journal)}
    (h : body = .ok (a, after)) : txn journal body = (.ok a, after) := by
  rw [h]
  rfl

theorem going_start {f : StorageOperation → Exec α} (h : Own id op w.journal)
    (hstate : op.state = .reviewed)
    (hnext : ∀ operation op' w', Own id op' w'.journal → op'.kind = op.kind → op'.state = .running →
      w'.journal.itemRows id = w.journal.itemRows id → w'.failures = w.failures →
      w'.refusals = w.refusals → w'.journal.loadOperation id = .ok operation →
      Reads w'.journal id op' operation → Going id op.kind Q (f operation) w') :
    Going id op.kind Q (ask (.startStorageOperation id) >>= f) w := by
  have hstart : ∀ journal r after, Own id op journal →
      Answers journal (.startStorageOperation id) r after → ∃ operation at_, r = .ok operation ∧
        after = journal.updateOperation id .running at_ ∧ after.loadOperation id = .ok operation ∧
        Reads after id (startedRow op at_) operation := by
    rintro journal r after hown ⟨at_, hanswer⟩
    obtain ⟨operation, hok, hload, hreads⟩ := hown.start_reviewed at_ hstate
    rw [txn_ok hok] at hanswer
    obtain ⟨rfl, rfl⟩ := Prod.mk.inj hanswer
    exact ⟨operation, at_, rfl, rfl, hload, hreads⟩
  apply going_ask h
  · intro journal r after hown _ hanswer
    obtain ⟨operation, at_, rfl, rfl, -, -⟩ := hstart journal r after hown hanswer
    exact ⟨⟨startedRow op at_, rfl, hown.started hstate at_⟩, operation, rfl⟩
  · intro journal operation after hown hsame hanswer
    obtain ⟨_, at_, hok, rfl, hload, hreads⟩ := hstart journal _ after hown hanswer
    cases hok
    exact hnext operation (startedRow op at_) _ (hown.started hstate at_) rfl rfl hsame.2 rfl
      (List.append_nil _) hload hreads

theorem going_settle {f : StorageOperation → Exec α} (h : Own id op w.journal)
    (hstate : op.state = .running) (hdone : ∀ row ∈ w.journal.itemRows id, row.outcome.isSome = true)
    (hnext : ∀ operation op' w', Own id op' w'.journal → op'.kind = op.kind → op'.state = .settled →
      w'.journal.itemRows id = w.journal.itemRows id → w'.failures = w.failures →
      w'.refusals = w.refusals → w'.journal.loadOperation id = .ok operation →
      Reads w'.journal id op' operation → Going id op.kind Q (f operation) w') :
    Going id op.kind Q (ask (.settleStorageOperation id) >>= f) w := by
  have hsettle : ∀ journal r after, Own id op journal → w.journal.Same id journal →
      Answers journal (.settleStorageOperation id) r after → ∃ operation at_, r = .ok operation ∧
        after = journal.updateOperation id .settled at_ ∧ Own id (settledRow op at_) after ∧
        after.loadOperation id = .ok operation ∧ Reads after id (settledRow op at_) operation := by
    rintro journal r after hown hsame ⟨at_, hanswer⟩
    have hdone' : ∀ row ∈ journal.itemRows id, row.outcome.isSome = true := by
      rw [hsame.2]
      exact hdone
    obtain ⟨operation, hok, hload, hreads⟩ := hown.settle_running at_ hstate hdone'
    rw [txn_ok hok] at hanswer
    obtain ⟨rfl, rfl⟩ := Prod.mk.inj hanswer
    exact ⟨operation, at_, rfl, rfl, hown.settle hstate hdone' at_, hload, hreads⟩
  apply going_ask h
  · intro journal r after hown hsame hanswer
    obtain ⟨operation, at_, rfl, -, hafter, -, -⟩ := hsettle journal r after hown hsame hanswer
    exact ⟨⟨settledRow op at_, rfl, hafter⟩, operation, rfl⟩
  · intro journal operation after hown hsame hanswer
    obtain ⟨_, at_, hok, rfl, hafter, hload, hreads⟩ := hsettle journal _ after hown hsame hanswer
    cases hok
    exact hnext operation (settledRow op at_) _ hafter rfl rfl hsame.2 rfl (List.append_nil _) hload
      hreads

theorem going_record {f : StorageItem → Exec α} {row : ItemRow} {change : ItemChange}
    (h : Own id op w.journal) (hstate : op.state = .running)
    (hrow : row ∈ w.journal.itemRows id) (hopen : row.outcome = none)
    (hforward : Forward op.kind row change)
    (hnext : ∀ at_ w', Own id op w'.journal →
      Replaced id w.journal row (row.change change at_) w'.journal → w'.failures = w.failures →
      w'.refusals = w.refusals → Going id op.kind Q (f (item (row.change change at_))) w') :
    Going id op.kind Q (record id (item row) change >>= f) w := by
  have hadvance : ∀ journal r after, Own id op journal → w.journal.Same id journal →
      Answers journal (.advanceStorageItem id row.seq row.revision change) r after →
      ∃ at_, r = .ok (item (row.change change at_)) ∧
        after = journal.updateItem id row.seq change at_ := by
    rintro journal r after hown hsame ⟨at_, hanswer⟩
    rw [txn_ok (hown.advance hstate (hsame.2 ▸ hrow) hopen hforward)] at hanswer
    obtain ⟨rfl, rfl⟩ := Prod.mk.inj hanswer
    exact ⟨at_, rfl, rfl⟩
  apply going_ask h
  · intro journal r after hown hsame hanswer
    obtain ⟨at_, rfl, rfl⟩ := hadvance journal r after hown hsame hanswer
    exact ⟨⟨op, rfl, hown.updateItem hstate (hsame.2 ▸ hrow) hforward at_⟩, _, rfl⟩
  · intro journal answer after hown hsame hanswer
    obtain ⟨at_, hok, rfl⟩ := hadvance journal _ after hown hsame hanswer
    cases hok
    refine hnext at_ _ (hown.updateItem hstate (hsame.2 ▸ hrow) hforward at_) ?_ rfl
      (List.append_nil _)
    unfold Replaced
    rw [← hsame.2]
    exact Replaced.update (hsame.2 ▸ hrow) change at_

end Effects

/-! ## One step -/

theorem validateChange_of {kind : StorageOperationKind} {change : ItemChange}
    (hphase : phaseFits kind change.phase = true) (houtcome : validateOutcome kind change = .ok ())
    (hreason : explains change.outcome = change.reason.isSome)
    (hwritten : wrote kind change.phase = true → change.written.isSome = true)
    (htrash : kind = .trash → change.written = none) : validateChange kind change = .ok () := by
  have hwrote : (!(wrote kind change.phase && change.written.isNone)) = true := by
    cases hw : wrote kind change.phase with
    | false => rfl
    | true =>
      have := hwritten hw
      cases hsome : change.written with
      | none =>
        rw [hsome] at this
        cases this
      | some _ => rfl
  have hnone : (!(decide (kind = .trash) && change.written.isSome)) = true := by
    by_cases hk : kind = .trash
    · rw [htrash hk]
      simp
    · simp [hk]
  unfold validateChange
  rw [hphase, houtcome, decide_eq_true hreason, hwrote, hnone]
  rfl

section Changes

variable {kind : StorageOperationKind} {row : ItemRow}

theorem OwnRow.rank_lt (h : OwnRow kind row) (hopen : row.outcome = none) :
    ItemPhase.rank row.phase < ItemPhase.rank .settled := by
  have hphase : row.phase ≠ .settled := by
    intro hsettled
    have := h.settled.mp hsettled
    change row.outcome.isSome = true at this
    rw [hopen] at this
    cases this
  cases hrow : row.phase with
  | settled => exact absurd hrow hphase
  | _ => decide

theorem OwnRow.forward_settled (h : OwnRow kind row) (hopen : row.outcome = none)
    {outcome : ItemOutcome} {reason : Option ItemReason} (hfits : outcomeFits kind outcome = true)
    (hreason : explains (some outcome) = reason.isSome) :
    Forward kind row (settled (item row) outcome reason) where
  valid := by
    apply validateChange_of _ _ hreason
    · intro hwrote
      cases kind <;> cases hwrote
    · exact h.trash
    · cases kind <;> rfl
    · change Result.require (outcomeFits kind outcome) _ = _
      rw [hfits]
      rfl
  reaches := ⟨by cases kind <;> rfl, fun _ hphase => by cases hphase⟩
  later := h.rank_lt hopen

theorem OwnRow.forward_phase (h : OwnRow kind row) {phase : ItemPhase}
    {written : Option WrittenCopy} (hreaches : Reaches kind phase)
    (hlater : ItemPhase.rank row.phase < ItemPhase.rank phase) (hopen : phase ≠ .settled)
    (hwritten : kind ≠ .trash → written.isSome = true) (htrash : kind = .trash → written = none) :
    Forward kind row { phase, outcome := none, reason := none, written } where
  valid := by
    apply validateChange_of hreaches.1 _ rfl _ htrash
    · cases phase with
      | settled => exact absurd rfl hopen
      | _ => rfl
    · intro hwrote
      apply hwritten
      rintro rfl
      have hfits := hreaches.1
      cases phase with
      | pending => cases hwrote
      | writing => cases hfits
      | installed => cases hfits
      | destinationVerified => cases hfits
      | retiring => cases hwrote
      | settled => exact hopen rfl
  reaches := hreaches
  later := hlater

theorem forward_retirement (h : OwnRow kind row) (hopen : row.outcome = none)
    (hkind : kind ≠ .copy) (retirement : Retirement) :
    Forward kind row (retirementChange kind (item row) retirement) := by
  cases retirement with
  | moved => exact h.forward_settled hopen (by cases kind <;> first | rfl | exact absurd rfl hkind) (by
      cases kind <;> rfl)
  | unsupported reason => exact h.forward_settled hopen (by cases kind <;> rfl) (by
      cases kind <;> rfl)
  | blocked reason => exact h.forward_settled hopen rfl rfl
  | uncertain reason => exact h.forward_settled hopen rfl rfl

end Changes

/-- The change an item takes next, and the row it is recorded on. -/
structure NextOf (id : Uuid) (op : OperationRow) (w : World) (row : ItemRow)
    (found : ItemChange × StorageItem) (w' : World) (row' : ItemRow) : Prop where
  own : Own id op w'.journal
  replaced : Replaced id w.journal row row' w'.journal
  current : found.2 = item row'
  seq : row'.seq = row.seq
  still_open : row'.outcome = none
  later : ItemPhase.rank row.phase ≤ ItemPhase.rank row'.phase
  forward : Forward op.kind row' found.1
  failures : w'.failures = w.failures
  refusals : ∀ reason ∈ w'.refusals, reason ∈ w.refusals ∨ found.1.reason = some reason ∧
    (found.1.outcome = some .blocked ∨ found.1.outcome = some .uncertain)

section Step

variable {id : Uuid} {op : OperationRow} {w : World} {row : ItemRow}

theorem NextOf.quiet {w' : World} {reasons : List ItemReason} {next : ItemChange}
    (h : Own id op w.journal) (hrow : row ∈ w.journal.itemRows id) (hopen : row.outcome = none)
    (hquiet : Quiet id w reasons w') (hforward : Forward op.kind row next)
    (hreasons : ∀ reason ∈ reasons, next.reason = some reason ∧
      (next.outcome = some .blocked ∨ next.outcome = some .uncertain)) :
    NextOf id op w row (next, item row) w' row where
  own := h.same hquiet.same
  replaced := .of_same hrow hquiet.same.2
  current := rfl
  seq := rfl
  still_open := hopen
  later := Nat.le_refl _
  forward := hforward
  failures := hquiet.failures
  refusals reason hreason := by
    rw [hquiet.refusals] at hreason
    rcases List.mem_append.mp hreason with hreason | hreason
    · exact .inl hreason
    · exact .inr (hreasons reason hreason)

theorem destination_eq {kind : StorageOperationKind} (h : OwnRow kind row) (hkind : kind ≠ .trash) :
    ∃ target, destination (item row) = .ok target := by
  obtain ⟨target, htarget⟩ := Option.isSome_iff_exists.mp (h.destination hkind)
  refine ⟨target, ?_⟩
  unfold destination
  rw [show (item row).destination = some target from htarget]
  rfl

theorem written_eq {kind : StorageOperationKind} (h : OwnRow kind row)
    (hwrote : wrote kind row.phase = true) : ∃ copy, written (item row) = .ok copy := by
  obtain ⟨copy, hcopy⟩ := Option.isSome_iff_exists.mp (h.written hwrote)
  refine ⟨copy, ?_⟩
  unfold written
  rw [show (item row).written = some copy from hcopy]
  rfl

theorem going_retire (h : Own id op w.journal) (hrow : row ∈ w.journal.itemRows id)
    (hopen : row.outcome = none) (hkind : op.kind ≠ .copy)
    (hwrote : op.kind = .move → wrote op.kind row.phase = true) :
    Going id op.kind (fun found w' => NextOf id op w row found w' row)
      (retire op.kind (item row)) w := by
  have hown := h.items row hrow
  have hask : ∀ target, Going id op.kind (fun found w' => NextOf id op w row found w' row)
      (ask (.retire (item row).source (item row).reliedOn target) >>= fun retirement =>
        pure (retirementChange op.kind (item row) retirement, item row)) w := by
    intro target
    refine going_fs h (fun _ _ _ hanswer => ?_) fun retirement w' hquiet => ?_
    · exact hanswer
    · refine Prog.tries_pure ⟨op, rfl, h.same hquiet.same⟩ ?_
      apply NextOf.quiet h hrow hopen hquiet (forward_retirement hown hopen hkind retirement)
      intro reason hreason
      cases retirement with
      | moved => cases hreason
      | unsupported _ => cases hreason
      | blocked found =>
        rw [List.mem_singleton.mp hreason]
        exact ⟨rfl, .inl rfl⟩
      | uncertain found =>
        rw [List.mem_singleton.mp hreason]
        exact ⟨rfl, .inr rfl⟩
  cases hk : op.kind with
  | trash =>
    rw [hk] at hask
    exact hask none
  | copy => exact absurd hk hkind
  | move =>
    obtain ⟨target, htarget⟩ := destination_eq hown (by rw [hk]; decide)
    obtain ⟨copy, hcopy⟩ := written_eq hown (hwrote hk)
    have := hask (some (target, copy))
    rw [hk] at this
    unfold retire
    rw [htarget, hcopy]
    exact this

theorem NextOf.after {found : ItemChange × StorageItem} {w₁ w' : World} {next : ItemChange}
    {at_ : String} (hreplaced : Replaced id w.journal row (row.change next at_) w₁.journal)
    (hlater : ItemPhase.rank row.phase < ItemPhase.rank next.phase)
    (hfailures : w₁.failures = w.failures) (hrefusals : w₁.refusals = w.refusals)
    (h : NextOf id op w₁ (row.change next at_) found w' (row.change next at_)) :
    NextOf id op w row found w' (row.change next at_) where
  own := h.own
  replaced := hreplaced.trans rfl h.replaced
  current := h.current
  seq := rfl
  still_open := h.still_open
  later := Nat.le_of_lt hlater
  forward := h.forward
  failures := h.failures.trans hfailures
  refusals reason hreason := hrefusals ▸ h.refusals reason hreason

theorem going_startRetiring (h : Own id op w.journal) (hstate : op.state = .running)
    (hrow : row ∈ w.journal.itemRows id) (hopen : row.outcome = none) (hkind : op.kind ≠ .copy)
    (hlater : ItemPhase.rank row.phase < ItemPhase.rank .retiring)
    (hwritten : op.kind ≠ .trash → row.written.isSome = true) :
    Going id op.kind (fun found w' => ∃ row', NextOf id op w row found w' row')
      (startRetiring id op.kind (item row)) w := by
  have hown := h.items row hrow
  have hreaches : Reaches op.kind .retiring := by
    refine ⟨?_, fun hcopy => absurd hcopy hkind⟩
    cases hk : op.kind with
    | copy => exact absurd hk hkind
    | trash => rfl
    | move => rfl
  have hforward : Forward op.kind row (change (item row) .retiring) :=
    hown.forward_phase hreaches hlater (by decide) hwritten hown.trash
  apply going_record h hstate hrow hopen hforward
  intro at_ w₁ hown₁ hreplaced hfailures hrefusals
  refine Prog.Tries.mono ?_ (fun _ _ _ hF => hF)
    (going_retire hown₁ (hreplaced.mem hrow) rfl hkind fun hmove => ?_)
  · intro found w' _ hnext
    exact ⟨_, .after hreplaced hlater hfailures hrefusals hnext⟩
  · rw [hmove]
    rfl

theorem going_resumeRetiring (h : Own id op w.journal) (hrow : row ∈ w.journal.itemRows id)
    (hopen : row.outcome = none) (hkind : op.kind ≠ .copy) (hphase : row.phase = .retiring) :
    Going id op.kind (fun found w' => ∃ row', NextOf id op w row found w' row')
      (resumeRetiring op.kind (item row)) w := by
  have hown := h.items row hrow
  refine going_fs h (fun _ _ _ hanswer => ?_) fun inPlace w₁ hquiet' => ?_
  · exact hanswer
  have hquiet : Quiet id w [] w₁ := hquiet'
  have hrow₁ : row ∈ w₁.journal.itemRows id := hquiet.same.2 ▸ hrow
  cases inPlace with
  | true =>
    have hretire := going_retire (h.same hquiet.same) hrow₁ hopen hkind fun hmove => by
      rw [hmove, hphase]
      rfl
    refine Prog.Tries.mono (fun found w' _ hnext => ⟨row, ?_⟩) (fun _ _ _ hF => hF) hretire
    exact {
      own := hnext.own
      replaced := (Replaced.of_same hrow hquiet.same.2).trans rfl hnext.replaced
      current := hnext.current
      seq := rfl
      still_open := hopen
      later := Nat.le_refl _
      forward := hnext.forward
      failures := hnext.failures.trans hquiet.failures
      refusals := fun reason hreason => by
        have := hnext.refusals reason hreason
        rwa [hquiet.refusals, List.append_nil] at this }
  | false =>
    refine Prog.tries_pure ⟨op, rfl, h.same hquiet.same⟩ ⟨row, ?_⟩
    apply NextOf.quiet h hrow hopen hquiet (hown.forward_settled hopen rfl rfl)
    exact fun reason hreason => absurd hreason List.not_mem_nil

theorem going_transfer {act : Act} {f : act.Answer → Exec (ItemChange × StorageItem)}
    (h : Own id op w.journal) (hrow : row ∈ w.journal.itemRows id) (hopen : row.outcome = none)
    (hfs : ∀ journal r after, Answers journal act r after → (∃ a, r = .ok a) ∧ after = journal)
    (hanswers : ∀ answer, (refusal act answer = none ∧
        ∃ next, f answer = pure (next, item row) ∧ Forward op.kind row next) ∨
      ∃ reason, refusal act answer = some reason ∧
        f answer = pure (settled (item row) .blocked (some reason), item row)) :
    Going id op.kind (fun found w' => ∃ row', NextOf id op w row found w' row') (ask act >>= f) w := by
  have hown := h.items row hrow
  refine going_fs h hfs fun answer w' hquiet => ?_
  rcases hanswers answer with ⟨hnone, next, hnext, hforward⟩ | ⟨reason, hreason, hnext⟩
  · rw [hnone] at hquiet
    rw [hnext]
    refine Prog.tries_pure ⟨op, rfl, h.same hquiet.same⟩ ⟨row, ?_⟩
    exact .quiet h hrow hopen hquiet hforward fun _ hmem => absurd hmem List.not_mem_nil
  · rw [hreason] at hquiet
    rw [hnext]
    refine Prog.tries_pure ⟨op, rfl, h.same hquiet.same⟩ ⟨row, ?_⟩
    apply NextOf.quiet h hrow hopen hquiet (hown.forward_settled hopen rfl rfl)
    intro found hfound
    rw [List.mem_singleton.mp hfound]
    exact ⟨rfl, .inl rfl⟩

theorem reaches_transfer {kind : StorageOperationKind} (hkind : kind ≠ .trash) {phase : ItemPhase}
    (hphase : phase = .writing ∨ phase = .installed) : Reaches kind phase := by
  rcases hphase with rfl | rfl
  · refine ⟨?_, fun _ hwaits => by cases hwaits⟩
    cases kind with
    | trash => exact absurd rfl hkind
    | _ => rfl
  · refine ⟨?_, fun _ hwaits => by cases hwaits⟩
    cases kind with
    | trash => exact absurd rfl hkind
    | _ => rfl

theorem going_beginCopy (h : Own id op w.journal) (hrow : row ∈ w.journal.itemRows id)
    (hopen : row.outcome = none) (hkind : op.kind ≠ .trash) (hphase : row.phase = .pending) :
    Going id op.kind (fun found w' => ∃ row', NextOf id op w row found w' row')
      (beginCopy id (item row)) w := by
  have hown := h.items row hrow
  obtain ⟨target, htarget⟩ := destination_eq hown hkind
  apply Prog.tries_lift_bind htarget
  refine going_transfer h hrow hopen (fun _ _ _ hanswer => hanswer) fun answer => ?_
  cases answer with
  | error reason => exact .inr ⟨reason, rfl, rfl⟩
  | ok written =>
    refine .inl ⟨rfl, _, rfl, ?_⟩
    apply hown.forward_phase (reaches_transfer hkind (.inl rfl))
    · rw [hphase]
      exact Nat.lt_succ_self 0
    · exact ItemPhase.noConfusion
    · exact fun _ => rfl
    · exact fun htrash => absurd htrash hkind

theorem going_writeCopy (h : Own id op w.journal) (hrow : row ∈ w.journal.itemRows id)
    (hopen : row.outcome = none) (hkind : op.kind ≠ .trash) (hphase : row.phase = .writing) :
    Going id op.kind (fun found w' => ∃ row', NextOf id op w row found w' row')
      (writeCopy (item row)) w := by
  have hown := h.items row hrow
  obtain ⟨target, htarget⟩ := destination_eq hown hkind
  obtain ⟨copy, hcopy⟩ := written_eq hown (by rw [hphase]; cases op.kind <;> rfl)
  apply Prog.tries_lift_bind htarget
  apply Prog.tries_lift_bind hcopy
  refine going_transfer h hrow hopen (fun _ _ _ hanswer => hanswer) fun answer => ?_
  cases answer with
  | error reason => exact .inr ⟨reason, rfl, rfl⟩
  | ok installed =>
    refine .inl ⟨rfl, _, rfl, ?_⟩
    apply hown.forward_phase (reaches_transfer hkind (.inr rfl))
    · rw [hphase]
      exact Nat.lt_succ_self 1
    · exact ItemPhase.noConfusion
    · exact fun _ => rfl
    · exact fun htrash => absurd htrash hkind

theorem going_verifyCopy (h : Own id op w.journal) (hrow : row ∈ w.journal.itemRows id)
    (hopen : row.outcome = none) (hkind : op.kind ≠ .trash) (hphase : row.phase = .installed) :
    Going id op.kind (fun found w' => ∃ row', NextOf id op w row found w' row')
      (verifyCopy op.kind (item row)) w := by
  have hown := h.items row hrow
  have hwrote : wrote op.kind row.phase = true := by
    rw [hphase]
    cases op.kind <;> rfl
  obtain ⟨target, htarget⟩ := destination_eq hown hkind
  obtain ⟨copy, hcopy⟩ := written_eq hown hwrote
  apply Prog.tries_lift_bind htarget
  apply Prog.tries_lift_bind hcopy
  refine going_transfer h hrow hopen (fun _ _ _ hanswer => hanswer) fun answer => ?_
  cases answer with
  | error reason => exact .inr ⟨reason, rfl, rfl⟩
  | ok _ =>
    refine .inl ⟨rfl, _, rfl, ?_⟩
    by_cases hcopyKind : op.kind = .copy
    · rw [if_pos hcopyKind]
      exact hown.forward_settled hopen (by rw [hcopyKind]; rfl) rfl
    · rw [if_neg hcopyKind]
      refine hown.forward_phase ⟨?_, fun hcopy => absurd hcopy hcopyKind⟩ (by rw [hphase]; decide)
        (by decide) (fun _ => hown.written hwrote) fun htrash => absurd htrash hkind
      cases hk : op.kind with
      | trash => exact absurd hk hkind
      | copy => exact absurd hk hcopyKind
      | move => rfl

theorem going_nextChange (h : Own id op w.journal) (hstate : op.state = .running)
    (hrow : row ∈ w.journal.itemRows id) (hopen : row.outcome = none) :
    Going id op.kind (fun found w' => ∃ row', NextOf id op w row found w' row')
      (nextChange id op.kind (item row)) w := by
  have hown := h.items row hrow
  have hreaches := hown.reaches
  have hprogram := nextChange.eq_def id op.kind (item row)
  rw [show (item row).phase = row.phase from rfl] at hprogram
  cases hphase : row.phase with
  | pending =>
    cases hkind : op.kind with
    | trash =>
      rw [hkind, hphase] at hprogram
      have := going_startRetiring h hstate hrow hopen (by rw [hkind]; decide) (by rw [hphase]; decide)
        fun hne => absurd hkind hne
      rw [hkind] at this
      rwa [hprogram]
    | _ =>
      rw [hkind, hphase] at hprogram
      have := going_beginCopy h hrow hopen (by rw [hkind]; decide) hphase
      rw [hkind] at this
      rwa [hprogram]
  | writing =>
    cases hkind : op.kind with
    | trash =>
      rw [hkind, hphase] at hreaches
      exact absurd hreaches.1 (by decide)
    | _ =>
      rw [hkind, hphase] at hprogram
      have := going_writeCopy h hrow hopen (by rw [hkind]; decide) hphase
      rw [hkind] at this
      rwa [hprogram]
  | installed =>
    cases hkind : op.kind with
    | trash =>
      rw [hkind, hphase] at hreaches
      exact absurd hreaches.1 (by decide)
    | _ =>
      rw [hkind, hphase] at hprogram
      have := going_verifyCopy h hrow hopen (by rw [hkind]; decide) hphase
      rw [hkind] at this
      rwa [hprogram]
  | destinationVerified =>
    cases hkind : op.kind with
    | trash =>
      rw [hkind, hphase] at hreaches
      exact absurd hreaches.1 (by decide)
    | copy => exact absurd hphase (hreaches.2 hkind)
    | move =>
      rw [hkind, hphase] at hprogram
      have := going_startRetiring h hstate hrow hopen (by rw [hkind]; decide) (by rw [hphase]; decide)
        fun _ => hown.written (by rw [hkind]; change wrote _ row.phase = true; rw [hphase]; rfl)
      rw [hkind] at this
      rwa [hprogram]
  | retiring =>
    cases hkind : op.kind with
    | copy =>
      rw [hkind, hphase] at hreaches
      exact absurd hreaches.1 (by decide)
    | _ =>
      rw [hkind, hphase] at hprogram
      have := going_resumeRetiring h hrow hopen (by rw [hkind]; decide) hphase
      rw [hkind] at this
      rwa [hprogram]
  | settled =>
    have := hown.rank_lt hopen
    rw [hphase] at this
    exact absurd this (Nat.lt_irrefl _)

/-- The item's next change is recorded, and what was refused with it. -/
structure Advanced (id : Uuid) (op : OperationRow) (w : World) (row : ItemRow) (w' : World)
    (row' : ItemRow) : Prop where
  own : Own id op w'.journal
  replaced : Replaced id w.journal row row' w'.journal
  later : ItemPhase.rank row.phase < ItemPhase.rank row'.phase
  failures : w'.failures = w.failures
  refusals : ∀ reason ∈ w'.refusals, reason ∈ w.refusals ∨ row'.reason = some reason ∧
    (row'.outcome = some .blocked ∨ row'.outcome = some .uncertain)

theorem going_advance (h : Own id op w.journal) (hstate : op.state = .running)
    (hrow : row ∈ w.journal.itemRows id) (hopen : row.outcome = none) :
    Going id op.kind (fun _ w' => ∃ row', Advanced id op w row w' row')
      (advance id op.kind (item row)) w := by
  apply Prog.tries_bind
  refine Prog.Tries.mono ?_ (fun _ _ _ hF => hF) (going_nextChange h hstate hrow hopen)
  rintro ⟨next, current⟩ w₁ - ⟨row₁, hnext⟩
  have hcurrent : current = item row₁ := hnext.current
  subst hcurrent
  apply going_record hnext.own hstate (hnext.replaced.mem hrow) hnext.still_open hnext.forward
  intro at_ w₂ hown₂ hreplaced hfailures hrefusals
  refine Prog.tries_pure ⟨op, rfl, hown₂⟩ ⟨row₁.change next at_, ?_⟩
  exact {
    own := hown₂
    replaced := hnext.replaced.trans hnext.seq hreplaced
    later := Nat.lt_of_le_of_lt hnext.later hnext.forward.later
    failures := hfailures.trans hnext.failures
    refusals := fun reason hreason => hnext.refusals reason (hrefusals ▸ hreason) }

/-- The operation as a step returns it: settled exactly when every item has an outcome. -/
structure Returned (id : Uuid) (kind : StorageOperationKind) (w : World)
    (operation : StorageOperation) (w' : World) : Prop where
  stands : Stands id kind w'
  rows : w'.journal.itemRows id = w.journal.itemRows id
  failures : w'.failures = w.failures
  refusals : w'.refusals = w.refusals
  loads : w'.journal.loadOperation id = .ok operation
  done : operation.state = .settled ↔ ∀ row ∈ w'.journal.itemRows id, row.outcome.isSome = true
  outcomes : operation.state = .settled → ∀ item ∈ operation.items, item.outcome.isSome = true

theorem Reads.all_iff {journal : Journal} {operation : StorageOperation}
    (h : Reads journal id op operation) :
    (operation.items.all fun item => item.outcome.isSome) = true ↔
      ∀ row ∈ journal.itemRows id, row.outcome.isSome = true := by
  rw [List.all_eq_true]
  constructor
  · intro hall row hrow
    exact hall (item row) ((h.items _).mpr ⟨row, hrow, rfl⟩)
  · intro hall i hi
    obtain ⟨row, hrow, rfl⟩ := (h.items i).mp hi
    exact hall row hrow

theorem Returned.of_settled (h : Own id op w.journal) (hstate : op.state = .settled)
    {operation : StorageOperation} (hreads : Reads w.journal id op operation)
    (hload : w.journal.loadOperation id = .ok operation) :
    Returned id op.kind w operation w where
  stands := ⟨op, rfl, h⟩
  rows := rfl
  failures := rfl
  refusals := rfl
  loads := hload
  done := ⟨fun _ => h.settled hstate, fun _ => hreads.state.trans hstate⟩
  outcomes _ := List.all_eq_true.mp (hreads.all_iff.mpr (h.settled hstate))

theorem going_settleDone (h : Own id op w.journal) (hstate : op.state = .running)
    {operation : StorageOperation} (hreads : Reads w.journal id op operation)
    (hload : w.journal.loadOperation id = .ok operation) :
    Going id op.kind (Returned id op.kind w) (settleDone id operation) w := by
  unfold settleDone
  by_cases hall : (operation.items.all fun item => item.outcome.isSome) = true
  · rw [if_pos hall]
    apply Prog.tries_ask
    apply going_settle h hstate (hreads.all_iff.mp hall)
    intro found op' w' hown hkind hsettled hrows hfailures hrefusals hload' hreads'
    refine Prog.tries_pure ⟨op', hkind, hown⟩ ?_
    have hreturned := Returned.of_settled hown hsettled hreads' hload'
    exact {
      stands := ⟨op', hkind, hown⟩
      rows := hrows
      failures := hfailures
      refusals := hrefusals
      loads := hload'
      done := hreturned.done
      outcomes := hreturned.outcomes }
  · rw [if_neg hall]
    refine Prog.tries_pure ⟨op, rfl, h⟩ ?_
    have hopen : operation.state ≠ .settled := by
      rw [hreads.state, hstate]
      decide
    exact {
      stands := ⟨op, rfl, h⟩
      rows := rfl
      failures := rfl
      refusals := rfl
      loads := hload
      done := ⟨fun hsettled => absurd hsettled hopen,
        fun hdone => absurd (hreads.all_iff.mpr hdone) hall⟩
      outcomes := fun hsettled => absurd hsettled hopen }

/-- One step: an open item, if there is one, takes a later phase, and no other item changes. -/
structure Stepped (id : Uuid) (kind : StorageOperationKind) (w : World)
    (operation : StorageOperation) (w' : World) : Prop where
  stands : Stands id kind w'
  progress : (∀ row ∈ w.journal.itemRows id, row.outcome.isSome = true) ∧
      w'.journal.itemRows id = w.journal.itemRows id ∨
    ∃ row ∈ w.journal.itemRows id, ∃ row', row.outcome = none ∧
      ItemPhase.rank row.phase < ItemPhase.rank row'.phase ∧
      Replaced id w.journal row row' w'.journal
  failures : w'.failures = w.failures
  refusals : ∀ reason ∈ w'.refusals, reason ∈ w.refusals ∨
    ∃ row ∈ w'.journal.itemRows id, row.reason = some reason ∧
      (row.outcome = some .blocked ∨ row.outcome = some .uncertain)
  loads : w'.journal.loadOperation id = .ok operation
  done : operation.state = .settled ↔ ∀ row ∈ w'.journal.itemRows id, row.outcome.isSome = true
  outcomes : operation.state = .settled → ∀ item ∈ operation.items, item.outcome.isSome = true

theorem going_stepRunning (h : Own id op w.journal) (hstate : op.state = .running)
    {operation : StorageOperation} (hreads : Reads w.journal id op operation)
    (hload : w.journal.loadOperation id = .ok operation) :
    Going id op.kind (Stepped id op.kind w) (stepRunning id operation) w := by
  unfold stepRunning
  cases hfirst : operation.items.find? fun item => item.outcome.isNone with
  | none =>
    refine Prog.Tries.mono ?_ (fun _ _ _ hF => hF) (going_settleDone h hstate hreads hload)
    intro found w' _ hreturned
    have hall : ∀ row ∈ w.journal.itemRows id, row.outcome.isSome = true := by
      apply hreads.all_iff.mp
      rw [List.all_eq_true]
      intro i hi
      have := List.find?_eq_none.mp hfirst i hi
      simpa [Option.isSome_iff_ne_none, Option.isNone_iff_eq_none] using this
    exact {
      stands := hreturned.stands
      progress := .inl ⟨hall, hreturned.rows⟩
      failures := hreturned.failures
      refusals := fun reason hreason => .inl (hreturned.refusals ▸ hreason)
      loads := hreturned.loads
      done := hreturned.done
      outcomes := hreturned.outcomes }
  | some first =>
    obtain ⟨row, hrow, rfl⟩ := (hreads.items first).mp (List.mem_of_find?_eq_some hfirst)
    have hopen : row.outcome = none := by
      have := List.find?_some hfirst
      exact Option.isNone_iff_eq_none.mp this
    apply Prog.tries_bind
    rw [hreads.kind]
    refine Prog.Tries.mono ?_ (fun _ _ _ hF => hF) (going_advance h hstate hrow hopen)
    rintro - w₁ - ⟨row', hadvanced⟩
    apply going_load hadvanced.own
    intro operation₂ w₂ hquiet hreads₂ hload₂
    refine Prog.Tries.mono ?_ (fun _ _ _ hF => hF)
      (going_settleDone (hadvanced.own.same hquiet.same) hstate hreads₂ hload₂)
    intro found w' _ hreturned
    have hrows : w'.journal.itemRows id = w₁.journal.itemRows id :=
      hreturned.rows.trans hquiet.same.2
    have hreplaced : Replaced id w.journal row row' w'.journal := hrows.trans hadvanced.replaced
    exact {
      stands := hreturned.stands
      progress := .inr ⟨row, hrow, row', hopen, hadvanced.later, hreplaced⟩
      failures := hreturned.failures.trans (hquiet.failures.trans hadvanced.failures)
      refusals := fun reason hreason => by
        rw [hreturned.refusals, hquiet.refusals, List.append_nil] at hreason
        rcases hadvanced.refusals reason hreason with hold | hnew
        · exact .inl hold
        · exact .inr ⟨row', hreplaced.mem hrow, hnew⟩
      loads := hreturned.loads
      done := hreturned.done
      outcomes := hreturned.outcomes }

theorem Stepped.of_quiet {kind : StorageOperationKind} {operation : StorageOperation} {w₁ w' : World}
    (hrows : w₁.journal.itemRows id = w.journal.itemRows id) (hfailures : w₁.failures = w.failures)
    (hrefusals : w₁.refusals = w.refusals) (h : Stepped id kind w₁ operation w') :
    Stepped id kind w operation w' where
  stands := h.stands
  progress := by
    rcases h.progress with ⟨hdone, hsame⟩ | ⟨row, hrow, row', hopen, hlater, hreplaced⟩
    · exact .inl ⟨hrows ▸ hdone, hsame.trans hrows⟩
    · exact .inr ⟨row, hrows ▸ hrow, row', hopen, hlater, by unfold Replaced; rw [← hrows]; exact hreplaced⟩
  failures := h.failures.trans hfailures
  refusals reason hreason := hrefusals ▸ h.refusals reason hreason
  loads := h.loads
  done := h.done
  outcomes := h.outcomes

theorem going_step (h : Own id op w.journal) :
    Going id op.kind (Stepped id op.kind w) (step id) w := by
  apply going_load h
  intro operation w₁ hquiet hreads hload
  have hown := h.same hquiet.same
  rw [hreads.state]
  have hrefusals : w₁.refusals = w.refusals := hquiet.refusals.trans (List.append_nil _)
  cases hstate : op.state with
  | settled =>
    have hreturned := Returned.of_settled hown hstate hreads hload
    refine Prog.tries_pure ⟨op, rfl, hown⟩ (.of_quiet hquiet.same.2 hquiet.failures hrefusals ?_)
    exact {
      stands := hreturned.stands
      progress := .inl ⟨hown.settled hstate, rfl⟩
      failures := rfl
      refusals := fun _ hreason => .inl hreason
      loads := hload
      done := hreturned.done
      outcomes := hreturned.outcomes }
  | running =>
    refine Prog.Tries.mono ?_ (fun _ _ _ hF => hF) (going_stepRunning hown hstate hreads hload)
    exact fun _ _ _ hstepped => .of_quiet hquiet.same.2 hquiet.failures hrefusals hstepped
  | reviewed =>
    apply going_start hown hstate
    intro operation₂ op₂ w₂ hown₂ hkind hrunning hrows hfailures hrefusals₂ hload₂ hreads₂
    rw [← hkind]
    refine Prog.Tries.mono ?_ (fun _ _ _ hF => hF) (going_stepRunning hown₂ hrunning hreads₂ hload₂)
    intro _ _ _ hstepped
    exact .of_quiet (hrows.trans hquiet.same.2) (hfailures.trans hquiet.failures)
      (hrefusals₂.trans hrefusals) hstepped

end Step

/-! ## Runs -/

def remaining (id : Uuid) (journal : Journal) : Nat :=
  ((journal.itemRows id).map fun row => 5 - ItemPhase.rank row.phase).sum

theorem rank_le (phase : ItemPhase) : ItemPhase.rank phase ≤ 5 := by
  cases phase <;> decide

theorem remaining_le (id : Uuid) (journal : Journal) :
    remaining id journal ≤ 5 * (journal.itemRows id).length := by
  unfold remaining
  induction journal.itemRows id with
  | nil => exact Nat.le_refl _
  | cons row rows ih =>
    rw [List.map_cons, List.sum_cons, List.length_cons]
    omega

theorem Replaced.remaining_lt {id : Uuid} {journal later : Journal} {row next : ItemRow}
    (h : Replaced id journal row next later) (hrow : row ∈ journal.itemRows id)
    (hlater : ItemPhase.rank row.phase < ItemPhase.rank next.phase) :
    remaining id later < remaining id journal := by
  have hbound := rank_le next.phase
  unfold remaining
  rw [h, List.map_map]
  apply List.sum_lt_sum
  · intro other hother
    simp only [Function.comp_apply]
    by_cases hseq : other.seq = row.seq
    · rw [if_pos hseq, eq_of_seq hrow hother hseq]
      omega
    · rw [if_neg hseq]
  · refine ⟨row, hrow, ?_⟩
    simp only [Function.comp_apply]
    rw [if_pos trivial]
    omega

structure Ran (id : Uuid) (w : World) (operation : StorageOperation) (w' : World) : Prop where
  failures : w'.failures = w.failures
  loads : w'.journal.loadOperation id = .ok operation
  settled : operation.state = .settled
  outcomes : ∀ item ∈ operation.items, item.outcome.isSome = true
  kept : ∀ row ∈ w.journal.itemRows id, row.outcome.isSome = true → row ∈ w'.journal.itemRows id
  refusals : ∀ reason ∈ w'.refusals, reason ∈ w.refusals ∨
    ∃ row ∈ w'.journal.itemRows id, row.reason = some reason ∧
      (row.outcome = some .blocked ∨ row.outcome = some .uncertain)

section Run

variable {id : Uuid} {kind : StorageOperationKind} {w w₁ w' : World} {operation : StorageOperation}

theorem Stepped.kept (h : Stepped id kind w operation w') {row : ItemRow}
    (hrow : row ∈ w.journal.itemRows id) (hdone : row.outcome.isSome = true) :
    row ∈ w'.journal.itemRows id := by
  rcases h.progress with ⟨-, hsame⟩ | ⟨first, hfirst, next, hopen, -, hreplaced⟩
  · exact hsame ▸ hrow
  · apply hreplaced.keeps hfirst hrow
    rintro rfl
    rw [hopen] at hdone
    cases hdone

theorem Stepped.ran (h : Stepped id kind w operation w') (hsettled : operation.state = .settled) :
    Ran id w operation w' where
  failures := h.failures
  loads := h.loads
  settled := hsettled
  outcomes := h.outcomes hsettled
  kept _ hrow hdone := h.kept hrow hdone
  refusals := h.refusals

theorem Stepped.remaining_lt (h : Stepped id kind w operation w')
    (hopen : operation.state ≠ .settled) : remaining id w'.journal < remaining id w.journal := by
  rcases h.progress with ⟨hdone, hsame⟩ | ⟨row, hrow, next, -, hlater, hreplaced⟩
  · exact absurd (h.done.mpr (hsame ▸ hdone)) hopen
  · exact hreplaced.remaining_lt hrow hlater

theorem Ran.after (h : Stepped id kind w operation w₁) {last : StorageOperation}
    (hran : Ran id w₁ last w') : Ran id w last w' where
  failures := hran.failures.trans h.failures
  loads := hran.loads
  settled := hran.settled
  outcomes := hran.outcomes
  kept row hrow hdone := hran.kept row (h.kept hrow hdone) hdone
  refusals reason hreason := by
    rcases hran.refusals reason hreason with hold | hnew
    · rcases h.refusals reason hold with hold | ⟨row, hrow, hwhy, houtcome⟩
      · exact .inl hold
      · refine .inr ⟨row, hran.kept row hrow ?_, hwhy, houtcome⟩
        rcases houtcome with houtcome | houtcome
        · rw [houtcome]
          rfl
        · rw [houtcome]
          rfl
    · exact .inr hnew

/-- Runs end within the phases left, and what they return is settled. -/
theorem going_run (steps : Nat) (h : Stands id kind w) :
    Going id kind (fun found w' => (remaining id w.journal < steps → found ≠ none) ∧
      ∀ operation ∈ found, Ran id w operation w') (runStorageOperation id steps) w := by
  induction steps generalizing w with
  | zero => exact Prog.tries_pure h ⟨fun hlt => absurd hlt (Nat.not_lt_zero _), fun _ hnone => by cases hnone⟩
  | succ steps ih =>
    obtain ⟨op, rfl, hown⟩ := h
    apply Prog.tries_bind
    refine Prog.Tries.mono ?_ (fun _ _ _ hF => hF) (going_step hown)
    intro operation w₁ hstands hstepped
    by_cases hsettled : operation.state = .settled
    · rw [if_pos hsettled]
      refine Prog.tries_pure hstands ⟨fun _ => Option.some_ne_none _, fun found hfound => ?_⟩
      cases hfound
      exact hstepped.ran hsettled
    · rw [if_neg hsettled]
      refine Prog.Tries.mono ?_ (fun _ _ _ hF => hF) (ih hstands)
      rintro found w' _ ⟨hends, hran⟩
      have hless := hstepped.remaining_lt hsettled
      exact ⟨fun hlt => hends (by omega), fun last hlast => .after hstepped (hran last hlast)⟩

end Run

/-! ## The states a run starts from -/

/-- The journals an operation of `kind` may be found in: as it was recorded, changed by calls of other
operations, or left by a step or a run stopped anywhere. -/
inductive Reached (id : Uuid) (kind : StorageOperationKind) : Journal → Prop
  | recorded {calls : List JournalCall} {drafts : List StorageItemDraft} {now : Result String}
      {journal : Journal} {operation : StorageOperation} :
      (Journal.empty.after calls).insertOperation kind drafts id now = .ok journal →
      journal.loadOperation id = .ok operation → Reached id kind journal
  | other {journal : Journal} {call : JournalCall} :
      Reached id kind journal → call.target ≠ id → Reached id kind (journal.call call).2
  | stepped {w w' : World} :
      Reached id kind w.journal → Prog.Stops (Performs id) (step id).run w w' →
      Reached id kind w'.journal
  | ran {w w' : World} {steps : Nat} :
      Reached id kind w.journal → Prog.Stops (Performs id) (runStorageOperation id steps).run w w' →
      Reached id kind w'.journal

theorem validateDraft_destination {kind : StorageOperationKind} {draft : StorageItemDraft}
    (h : validateDraft kind draft = .ok ()) (hkind : kind ≠ .trash) :
    draft.destination.isSome = true := by
  simp only [validateDraft, Result.bind_eq_ok] at h
  obtain ⟨⟨⟩, -, ⟨⟩, -, htransfer⟩ := h
  unfold validateTransfer at htransfer
  cases hdestination : draft.destination with
  | some _ => rfl
  | none =>
    rw [hdestination] at htransfer
    cases kind with
    | trash => exact absurd rfl hkind
    | copy => cases htransfer
    | move => cases htransfer

theorem seq_lt_of_readAll {rows : List ItemRow} {items : List StorageItem}
    (h : readAll itemFromRow rows = .ok items) : ∀ row ∈ rows, row.seq < 2 ^ 32 := by
  induction rows generalizing items with
  | nil => exact fun row hrow => absurd hrow List.not_mem_nil
  | cons first rows ih =>
    simp only [readAll, Result.bind_eq_ok] at h
    obtain ⟨_, hfirst, _, hrest, -⟩ := h
    intro row hrow
    rcases List.mem_cons.mp hrow with rfl | hrow
    · simp only [itemFromRow, Result.bind_eq_ok, Result.require_eq_ok] at hfirst
      obtain ⟨⟨⟩, hseq, -⟩ := hfirst
      exact of_decide_eq_true hseq
    · exact ih hrest row hrow

theorem own_recorded {calls : List JournalCall} {kind : StorageOperationKind}
    {drafts : List StorageItemDraft} {id : Uuid} {now : Result String} {journal : Journal}
    {operation : StorageOperation}
    (h : (Journal.empty.after calls).insertOperation kind drafts id now = .ok journal)
    (hload : journal.loadOperation id = .ok operation) : Stands id kind ⟨journal, [], []⟩ := by
  have hlaw := Journal.lawful_after calls
  generalize Journal.empty.after calls = before at h hlaw
  simp only [Journal.insertOperation, Result.bind_eq_ok, Result.orElse_eq_ok] at h
  obtain ⟨⟨⟩, -, ⟨⟩, hdrafts, at_, -, operations, hinsert, hitems⟩ := h
  obtain ⟨hoperations, new, hrows, hnew⟩ := Journal.insertItems_ok hitems
  have hfresh : before.operations.find? id = none := (Table.insert?_eq_some hinsert).1
  have hseq : ∀ row ∈ journal.itemRows id, row.seq < 2 ^ 32 := by
    simp only [Journal.loadOperation, Result.bind_eq_ok] at hload
    obtain ⟨_, -, items, hread, -⟩ := hload
    intro row hrow
    exact seq_lt_of_readAll hread row (((journal.itemRows id).perm_insertionSort _).mem_iff.mpr hrow)
  refine ⟨⟨id, kind, .reviewed, 1, at_, at_⟩, rfl, ?_, Nat.le_refl _, fun row hrow => ?_, fun h => ?_⟩
  · rw [hoperations]
    change operations.find? id = _
    rw [Table.find?_insert? hinsert, if_pos rfl]
  · have hlt := hseq row hrow
    obtain ⟨hmem, hid⟩ := mem_itemRows.mp hrow
    rw [hrows] at hmem
    rcases List.mem_append.mp hmem with hold | hmem
    · obtain ⟨op, hop, hopId, -⟩ := hlaw.item row hold
      exact absurd (hopId.trans hid) (Table.find?_eq_none.mp hfresh op hop)
    · obtain ⟨seq, draft, hdraft, rfl⟩ := hnew row hmem
      have hvalid := checkAll_ok hdrafts draft hdraft
      have hfits := ItemFits.ofDraft (validateDraft_ok hvalid) id seq at_
      exact {
        toChangeFits := hfits.toChangeFits
        seq := hlt
        reaches := ⟨by cases kind <;> rfl, fun _ hwaits => by cases hwaits⟩
        destination := validateDraft_destination hvalid
        revision := Nat.le_refl _ }
  · cases h

theorem Reached.stands {id : Uuid} {kind : StorageOperationKind} {journal : Journal}
    (h : Reached id kind journal) {failures : List LibraryError} {refusals : List ItemReason} :
    Stands id kind ⟨journal, failures, refusals⟩ := by
  induction h generalizing failures refusals with
  | recorded hinsert hload => exact own_recorded hinsert hload
  | @other journal call _ hother ih =>
    obtain ⟨op, hkind, hown⟩ := @ih failures refusals
    have hsame : journal.Same id (journal.after [call]) :=
      Journal.same_after fun c hc => List.mem_singleton.mp hc ▸ hother
    exact ⟨op, hkind, hown.same hsame⟩
  | @stepped w w' _ hstops ih =>
    obtain ⟨op, rfl, hown⟩ := @ih w.failures w.refusals
    obtain ⟨op', hkind, hown'⟩ := (going_step hown).stops hstops
    exact ⟨op', hkind, hown'⟩
  | @ran w w' steps _ hstops ih =>
    obtain ⟨op', hkind, hown'⟩ := (going_run steps (@ih w.failures w.refusals)).stops hstops
    exact ⟨op', hkind, hown'⟩

/-- From every state its own steps can record, a step fails only where one of its effects does and
else takes an open item to a later phase; and a run of more than five steps for each item ends with
the operation settled, every item with an outcome and every refusal recorded as blocked or
uncertain. -/
theorem every_operation_settles {id : Uuid} {kind : StorageOperationKind} {journal : Journal}
    (h : Reached id kind journal) :
    (∀ r w, Prog.Returns (Performs id) (step id).run ⟨journal, [], []⟩ r w →
      match r with
      | .ok operation => Stepped id kind ⟨journal, [], []⟩ operation w
      | .error error => error ∈ w.failures) ∧
    ∀ steps, 5 * (journal.itemRows id).length < steps → ∀ r w,
      Prog.Returns (Performs id) (runStorageOperation id steps).run ⟨journal, [], []⟩ r w →
      match r with
      | .ok (some operation) => Ran id ⟨journal, [], []⟩ operation w
      | .ok none => False
      | .error error => error ∈ w.failures := by
  constructor
  · intro r w hreturns
    obtain ⟨op, rfl, hown⟩ := @Reached.stands id kind journal h [] []
    have := ((going_step hown).returns hreturns).2
    cases r with
    | ok operation => exact this
    | error error => exact this
  · intro steps hsteps r w hreturns
    have hends := ((going_run steps (@Reached.stands id kind journal h [] [])).returns hreturns).2
    have hbound := remaining_le id journal
    match r with
    | .ok (some operation) => exact hends.2 operation rfl
    | .ok none => exact hends.1 (Nat.lt_of_le_of_lt hbound hsteps) rfl
    | .error error => exact hends

/-! ## One frame to the Trash -/

def trashVolume : VolumeIdentity where
  filesystem := "ext4"
  stableId := some "vol"
  fileIdsStable := true
  case := .sensitive
  normalization := .sensitive

def trashedFrame : StorageItemDraft where
  source := {
    path := .host { absolute := true, parts := [.normal "frame.fits".toList] }
    root := none
    kind := .file
    fingerprint := {
      identity := { volume := trashVolume, fileId := some "7" }
      sizeBytes := 2880
      modifiedNs := 1
      contentSha256 := none }
    sha256 := some (List.replicate 64 'a') }
  reliedOn := []
  destination := none

theorem every_operation_settles_one_frame : ∃ journal : Journal, Reached 1 .trash journal ∧
    ∀ r w, Prog.Returns (Performs 1) (runStorageOperation 1 6).run ⟨journal, [], []⟩ r w →
      match r with
      | .ok (some operation) => Ran 1 ⟨journal, [], []⟩ operation w
      | .ok none => False
      | .error error => error ∈ w.failures := by
  have hrecorded : (((Journal.empty.after []).insertOperation .trash [trashedFrame] 1 (.ok "")).toOption.map
      fun journal => (decide ((journal.itemRows 1).length = 1), (journal.loadOperation 1).isOk)) =
        some (true, true) := by
    decide
  cases hinsert : (Journal.empty.after []).insertOperation .trash [trashedFrame] 1 (.ok "") with
  | error error =>
    rw [hinsert] at hrecorded
    cases hrecorded
  | ok journal =>
    rw [hinsert] at hrecorded
    obtain ⟨hlength, hok⟩ := Prod.mk.inj (Option.some.inj hrecorded)
    cases hload : journal.loadOperation 1 with
    | error error =>
      rw [hload] at hok
      cases hok
    | ok operation =>
      have hreached := Reached.recorded hinsert hload
      refine ⟨journal, hreached, (every_operation_settles hreached).2 6 ?_⟩
      rw [of_decide_eq_true hlength]
      decide

end Custody

end PlateVault
