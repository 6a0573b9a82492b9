import PlateVault.Custody.Executor

/-!
# What the executor records around a change on disk

`Noted` keeps the operation and the item as the journal last answered them, and the last effect that did
not fail.
`Noted.Allows` says what they let the executor do: it asks for a change on disk only where the phase that
leads into it is recorded, and records only what it was answered.
-/

namespace PlateVault.Custody

structure Noted where
  operation : Option StorageOperation
  recorded : Option StorageItem
  last : Option (Sigma Act.Answer)

namespace Noted

def initial : Noted := ⟨none, none, none⟩

def next (m : Noted) : (act : Act) → Except LibraryError act.Answer → Noted
  | _, .error _ => m
  | .storageOperation id, .ok operation =>
    ⟨some operation, none, some ⟨.storageOperation id, operation⟩⟩
  | .startStorageOperation id, .ok operation =>
    ⟨some operation, none, some ⟨.startStorageOperation id, operation⟩⟩
  | .advanceStorageItem id seq expected change, .ok item =>
    { m with recorded := some item, last := some ⟨.advanceStorageItem id seq expected change, item⟩ }
  | act, .ok answer => { m with last := some ⟨act, answer⟩ }

def After (m : Noted) (act : Act) (r : Except LibraryError act.Answer) (m' : Noted) : Prop :=
  m' = m.next act r

/-- An item the journal holds in `phase`, without an outcome. -/
def Holds (m : Noted) (kind : StorageOperationKind) (phase : ItemPhase) (item : StorageItem) : Prop :=
  ∃ operation, m.operation = some operation ∧ operation.kind = kind ∧ item ∈ operation.items ∧
    item.outcome = none ∧ item.phase = phase

/-- An item whose retirement was just recorded as intended, from its pending phase in a Trash and with
its destination verified in a Move; or one recorded so before, with its source just found in place. -/
def Retires (m : Noted) (id : Uuid) (kind : StorageOperationKind) (item : StorageItem) : Prop :=
  (∃ before change,
    m.Holds kind (if kind = .move then .destinationVerified else .pending) before ∧
      m.last = some ⟨.advanceStorageItem id before.seq before.revision change, item⟩ ∧
      change.phase = .retiring ∧ change.outcome = none) ∨
    m.Holds kind .retiring item ∧ m.last = some ⟨.inPlace item.source, true⟩

/-- The change an item takes reports the last answer: an intent after a read of the journal, else what
the file system answered. -/
def Reports (kind : StorageOperationKind) (change : ItemChange) : (act : Act) → act.Answer → Prop
  | .storageOperation _, _ | .startStorageOperation _, _ =>
    kind ≠ .copy ∧ change.phase = .retiring ∧ change.outcome = none
  | .begin .., .ok written =>
    change.phase = .writing ∧ change.outcome = none ∧ change.written = some written
  | .write .., .ok installed =>
    change.phase = .installed ∧ change.outcome = none ∧ change.written = some installed
  | .verify .., .ok () => if kind = .copy then change.outcome = some .copied else
    change.phase = .destinationVerified ∧ change.outcome = none
  | .begin .., .error reason | .write .., .error reason | .verify .., .error reason
  | .retire .., .blocked reason =>
    change.outcome = some .blocked ∧ change.reason = some reason
  | .retire .., .moved => change.outcome = some (if kind = .move then .moved else .trashed)
  | .retire .., .unsupported reason =>
    change.outcome = some (if kind = .move then .sourceKept else .blocked) ∧
      change.reason = some reason
  | .retire .., .uncertain reason =>
    change.outcome = some .uncertain ∧ change.reason = some reason
  | .inPlace _, found => found = false ∧ change.outcome = some .uncertain
  | _, _ => False

/-- What the executor of operation `id` may do, knowing what it does. -/
def Allows (id : Uuid) (m : Noted) : Act → Prop
  | .storageOperation id' | .startStorageOperation id' => id' = id
  | .settleStorageOperation id' => id' = id ∧ ∃ operation, m.operation = some operation ∧
    ∀ item ∈ operation.items, item.outcome ≠ none
  | .begin id' seq destination => id' = id ∧ ∃ kind item, kind ≠ .trash ∧
    m.Holds kind .pending item ∧ item.seq = seq ∧ item.destination = some destination
  | .write source destination written => ∃ kind item, kind ≠ .trash ∧ m.Holds kind .writing item ∧
    item.source = source ∧ item.destination = some destination ∧ item.written = some written
  | .verify source destination written => ∃ kind item, kind ≠ .trash ∧
    m.Holds kind .installed item ∧ item.source = source ∧ item.destination = some destination ∧
      item.written = some written
  | .inPlace source => ∃ kind item, kind ≠ .copy ∧ m.Holds kind .retiring item ∧
    item.source = source
  | .retire source reliedOn target => ∃ kind item, kind ≠ .copy ∧ m.Retires id kind item ∧
    item.source = source ∧ item.reliedOn = reliedOn ∧
      if kind = .move then ∃ destination written, target = some (destination, written) ∧
        item.destination = some destination ∧ item.written = some written
      else target = none
  | .advanceStorageItem id' seq expected change => id' = id ∧ ∃ kind item act answer,
    ((∃ phase, m.Holds kind phase item) ∨ m.recorded = some item) ∧ item.seq = seq ∧
      item.revision = expected ∧ m.last = some ⟨act, answer⟩ ∧ Reports kind change act answer

end Noted

open Noted

/-- Every effect of a program is allowed, and `Q` holds of what it returns. -/
abbrev Does {α : Type} (id : Uuid) (Q : α → Noted → Prop) (p : Exec α) (m : Noted) : Prop :=
  Prog.Follows (Allows id) After Q p m

section

variable {id : Uuid} {operation : StorageOperation} {item : StorageItem} {m : Noted}

/-- The open item of the operation as it was last answered. -/
structure Advancing (m : Noted) (operation : StorageOperation) (item : StorageItem) : Prop where
  read : m.operation = some operation
  mem : item ∈ operation.items
  isOpen : item.outcome = none

theorem Advancing.holds (h : Advancing m operation item) : m.Holds operation.kind item.phase item :=
  ⟨operation, h.read, rfl, h.mem, h.isOpen, rfl⟩

def Recordable (kind : StorageOperationKind) (found : ItemChange × StorageItem) (m : Noted) : Prop :=
  ((∃ phase, m.Holds kind phase found.2) ∨ m.recorded = some found.2) ∧
    ∃ act answer, m.last = some ⟨act, answer⟩ ∧ Reports kind found.1 act answer

theorem destination_eq_ok {found : TransferDestination} (h : destination item = .ok found) :
    item.destination = some found :=
  Result.orElse_eq_ok.mp h

theorem written_eq_ok {found : WrittenCopy} (h : written item = .ok found) :
    item.written = some found :=
  Result.orElse_eq_ok.mp h

theorem does_retire {kind : StorageOperationKind} (hkind : kind ≠ .copy)
    (hitem : (∃ phase, m.Holds kind phase item) ∨ m.recorded = some item)
    (h : m.Retires id kind item) : Does id (Recordable kind) (retire kind item) m := by
  have hask : ∀ target, (if kind = .move then ∃ destination written,
      target = some (destination, written) ∧ item.destination = some destination ∧
        item.written = some written else target = none) →
      Does id (Recordable kind) (do
        let retirement ← ask (.retire item.source item.reliedOn target)
        return (retirementChange kind item retirement, item)) m := by
    intro target htarget
    refine Prog.follows_ask_bind ⟨kind, item, hkind, h, rfl, rfl, htarget⟩ ?_
    rintro retirement _ rfl
    refine Prog.follows_pure ⟨hitem, _, retirement, rfl, ?_⟩
    cases retirement with
    | moved => rfl
    | unsupported reason | blocked reason | uncertain reason => exact ⟨rfl, rfl⟩
  unfold retire
  cases kind with
  | move =>
    refine Prog.follows_lift_bind fun destination hdestination => ?_
    refine Prog.follows_lift_bind fun written hwritten => Prog.follows_bind (Prog.follows_pure ?_)
    exact hask _ ⟨destination, written, rfl, destination_eq_ok hdestination, written_eq_ok hwritten⟩
  | trash => exact hask none rfl
  | copy => exact absurd rfl hkind

theorem does_record {change : ItemChange} {Q : StorageItem → Noted → Prop}
    {kind : StorageOperationKind} (h : Recordable kind (change, item) m)
    (hnext : ∀ recorded, Q recorded (m.next (.advanceStorageItem id item.seq item.revision change)
      (.ok recorded))) : Does id Q (record id item change) m := by
  obtain ⟨hitem, act, answer, hlast, hreports⟩ := h
  refine Prog.follows_ask ⟨rfl, kind, item, act, answer, hitem, rfl, rfl, hlast, hreports⟩ ?_
  rintro recorded _ rfl
  exact hnext recorded

theorem does_nextChange (h : Advancing m operation item)
    (hread : ∀ change : ItemChange, operation.kind ≠ .copy → change.phase = .retiring →
      change.outcome = none → ∃ act answer, m.last = some ⟨act, answer⟩ ∧
        Reports operation.kind change act answer) :
    Does id (Recordable operation.kind) (nextChange id operation.kind item) m := by
  have hholds := h.holds
  have hstart : operation.kind ≠ .copy → (item.phase =
      if operation.kind = .move then .destinationVerified else .pending) →
      Does id (Recordable operation.kind) (startRetiring id operation.kind item) m := by
    intro hkind hphase
    refine Prog.follows_bind (does_record ⟨.inl ⟨_, hholds⟩, hread _ hkind rfl rfl⟩ ?_)
    intro retiring
    exact does_retire hkind (.inr rfl)
      (.inl ⟨item, _, hphase ▸ hholds, rfl, rfl, rfl⟩)
  have hresume : operation.kind ≠ .copy → item.phase = .retiring →
      Does id (Recordable operation.kind) (resumeRetiring operation.kind item) m := by
    intro hkind hphase
    refine Prog.follows_ask_bind ⟨_, item, hkind, hphase ▸ hholds, rfl⟩ ?_
    rintro found _ rfl
    cases found with
    | true => exact does_retire hkind (.inl ⟨_, hholds⟩) (.inr ⟨hphase ▸ hholds, rfl⟩)
    | false => exact Prog.follows_pure ⟨.inl ⟨_, hholds⟩, .inPlace item.source, false, rfl, rfl, rfl⟩
  have hbegin : operation.kind ≠ .trash → item.phase = .pending →
      Does id (Recordable operation.kind) (beginCopy id item) m := by
    intro hkind hphase
    refine Prog.follows_lift_bind fun destination hdestination => ?_
    refine Prog.follows_ask_bind
      ⟨rfl, _, item, hkind, hphase ▸ hholds, rfl, destination_eq_ok hdestination⟩ ?_
    rintro (reason | written) _ rfl
    · exact Prog.follows_pure ⟨.inl ⟨_, hholds⟩, .begin id item.seq destination, .error reason, rfl, rfl, rfl⟩
    · exact Prog.follows_pure ⟨.inl ⟨_, hholds⟩, .begin id item.seq destination, .ok written, rfl, rfl, rfl, rfl⟩
  have hwrite : operation.kind ≠ .trash → item.phase = .writing →
      Does id (Recordable operation.kind) (writeCopy item) m := by
    intro hkind hphase
    refine Prog.follows_lift_bind fun destination hdestination => ?_
    refine Prog.follows_lift_bind fun written hwritten => ?_
    refine Prog.follows_ask_bind ⟨_, item, hkind, hphase ▸ hholds, rfl,
      destination_eq_ok hdestination, written_eq_ok hwritten⟩ ?_
    rintro (reason | installed) _ rfl
    · exact Prog.follows_pure ⟨.inl ⟨_, hholds⟩, .write item.source destination written, .error reason, rfl, rfl, rfl⟩
    · exact Prog.follows_pure ⟨.inl ⟨_, hholds⟩, .write item.source destination written, .ok installed, rfl, rfl, rfl, rfl⟩
  have hverify : operation.kind ≠ .trash → item.phase = .installed →
      Does id (Recordable operation.kind) (verifyCopy operation.kind item) m := by
    intro hkind hphase
    refine Prog.follows_lift_bind fun destination hdestination => ?_
    refine Prog.follows_lift_bind fun written hwritten => ?_
    refine Prog.follows_ask_bind ⟨_, item, hkind, hphase ▸ hholds, rfl,
      destination_eq_ok hdestination, written_eq_ok hwritten⟩ ?_
    rintro (reason | ⟨⟩) _ rfl
    · exact Prog.follows_pure ⟨.inl ⟨_, hholds⟩, .verify item.source destination written, .error reason, rfl, rfl, rfl⟩
    · refine Prog.follows_pure ⟨.inl ⟨_, hholds⟩, .verify item.source destination written, .ok (), rfl, ?_⟩
      simp only [Reports]
      split
      · rfl
      · exact ⟨rfl, rfl⟩
  unfold nextChange
  split
  · next hk hp => exact hstart (by rw [hk]; rintro ⟨⟩) (by rw [hk]; exact hp)
  · next hk hp => exact hstart (by rw [hk]; rintro ⟨⟩) (by rw [hk]; exact hp)
  · next hk hp => exact hresume (by rw [hk]; rintro ⟨⟩) hp
  · next hk hp => exact hresume (by rw [hk]; rintro ⟨⟩) hp
  · next hk hp => exact hbegin (by rw [hk]; rintro ⟨⟩) hp
  · next hk hp => exact hbegin (by rw [hk]; rintro ⟨⟩) hp
  · next hk hp => exact hwrite (by rw [hk]; rintro ⟨⟩) hp
  · next hk hp => exact hwrite (by rw [hk]; rintro ⟨⟩) hp
  · next hk hp => exact hverify (by rw [hk]; rintro ⟨⟩) hp
  · next hk hp => exact hverify (by rw [hk]; rintro ⟨⟩) hp
  · exact Prog.follows_throw

theorem does_settleDone (h : m.operation = some operation) :
    Does id (fun _ _ => True) (settleDone id operation) m := by
  unfold settleDone
  split
  · next hall =>
    refine Prog.follows_ask ⟨rfl, operation, h, fun item hitem hnone => ?_⟩ fun _ _ _ => trivial
    have hsome := List.all_eq_true.mp hall item hitem
    rw [hnone] at hsome
    cases hsome
  · exact Prog.follows_pure trivial

theorem does_stepRunning (h : m.operation = some operation)
    (hread : ∀ change : ItemChange, operation.kind ≠ .copy → change.phase = .retiring →
      change.outcome = none → ∃ act answer, m.last = some ⟨act, answer⟩ ∧
        Reports operation.kind change act answer) :
    Does id (fun _ _ => True) (stepRunning id operation) m := by
  unfold stepRunning
  split
  · next item hfind =>
    have hopen : item.outcome = none := by simpa using List.find?_some hfind
    refine Prog.follows_bind (Prog.follows_bind (Prog.Follows.mono ?_
      (does_nextChange ⟨h, List.mem_of_find?_eq_some hfind, hopen⟩ hread)))
    rintro ⟨next, current⟩ m' hrecordable
    refine Prog.follows_bind (does_record hrecordable fun recorded => Prog.follows_pure ?_)
    refine Prog.follows_ask_bind rfl ?_
    rintro read _ rfl
    exact does_settleDone rfl
  · exact does_settleDone h

theorem does_step : Does id (fun _ _ => True) (step id) m := by
  unfold step
  refine Prog.follows_ask_bind rfl ?_
  rintro operation _ rfl
  split
  · exact Prog.follows_pure trivial
  · refine Prog.follows_ask_bind rfl ?_
    rintro started _ rfl
    exact does_stepRunning rfl fun change hkind hphase hnone => ⟨_, started, rfl, hkind, hphase, hnone⟩
  · exact does_stepRunning rfl fun change hkind hphase hnone => ⟨_, operation, rfl, hkind, hphase, hnone⟩

/-- Whatever its effects answer, the executor asks for a change on disk only of an item the journal holds
open in the phase before it, retires a source only after its intent was recorded in this run or the
source was found in place again, and records of an item only what the last effect answered. -/
theorem recorded_before_changed (id : Uuid) (steps : Nat) :
    Does id (fun _ _ => True) (runStorageOperation id steps) Noted.initial := by
  have hrun : ∀ m, Does id (fun _ _ => True) (runStorageOperation id steps) m := by
    induction steps with
    | zero => exact fun m => Prog.follows_pure trivial
    | succ steps ih =>
      intro m
      refine Prog.follows_bind (does_step.mono ?_)
      intro operation m' _
      split
      · exact Prog.follows_pure trivial
      · exact ih m'
  exact hrun _

end

end PlateVault.Custody
