import PlateVault.Measurements.Once

/-!
# Frames in memory

Over every run: each frame that joined the queue of the run in memory is still pending, in the hands
of one worker, settled, or dropped. While the run goes on a worker drops a frame only where its settle
failed, and that worker then stops the run.
-/

namespace PlateVault.Measurements

def Worker.hand (worker : Worker) : Option Uuid :=
  match worker.place with
  | .measuring asset _ => some asset
  | .settling asset _ _ => some asset
  | _ => none

def hands (workers : List Worker) : List Uuid := workers.filterMap Worker.hand

/-- Whether the worker's settle failed and the run is not marked yet. -/
def Worker.refusing (worker : Worker) : Bool :=
  match worker.place with
  | .refused | .failing => true
  | _ => false

def settledOf (run : Uuid) (events : List Event) : List Uuid :=
  (events.filterMap Event.settlement).filterMap fun key =>
    if key.1 = run then some key.2 else none

def Placed (s : State) (events : List Event) (active : ActiveRun) (dropped : List Uuid) : Prop :=
  ∀ asset, active.held.count asset = active.pending.count asset + (hands s.workers).count asset +
    (settledOf active.id events).count asset + dropped.count asset

structure Conserved (events : List Event) (s : State) : Prop where
  accounted : Accounted events s
  once : ∀ active, s.run = some active → active.held.Nodup
  stopping : ∀ active, s.run = some active → ∀ worker ∈ s.workers, worker.place = .stopping →
    active.ends ≠ none
  aborted : s.abort = true → s.shutdown = true ∨ ∀ active, s.run = some active → active.ends ≠ none
  placed : ∀ active, s.run = some active → ∃ dropped, Placed s events active dropped ∧
    (active.ends = none → s.shutdown = false → dropped.length ≤ s.workers.countP Worker.refusing)

section

variable {s s' : State} {events : List Event} {e : Event} {pool : Nat} {method : MeasurementMethod}

theorem settledOf_quiet {run : Uuid} (h : e.settlement = none) :
    settledOf run (events ++ [e]) = settledOf run events := by
  simp [settledOf, h]

theorem settledOf_settled (run run' asset : Uuid) :
    settledOf run (events ++ [.settled run' asset]) =
      settledOf run events ++ if run' = run then [asset] else [] := by
  by_cases h : run' = run <;> simp [settledOf, Event.settlement, h]

@[simp] theorem hands_singleton (worker : Worker) : hands [worker] = worker.hand.toList := by
  cases h : worker.hand <;> simp [hands, h]

theorem hands_spawnWorkers {active : ActiveRun} {minimum : Nat} :
    hands (s.spawnWorkers pool active minimum).workers = hands s.workers := by
  simp [State.spawnWorkers, hands, Worker.hand, List.filterMap_replicate]

theorem refusing_spawnWorkers {active : ActiveRun} {minimum : Nat} :
    (s.spawnWorkers pool active minimum).workers.countP Worker.refusing =
      s.workers.countP Worker.refusing := by
  simp [State.spawnWorkers, Worker.refusing, List.countP_replicate]

theorem Conserved.moved {active new : ActiveRun} (h : Conserved events s)
    (before old moved after : List Worker) (lost : List Uuid)
    (haccounted : Accounted (events ++ [e]) s')
    (hactive : s.run = some active) (hnew : s'.run = some new) (hid : new.id = active.id)
    (hheld : new.held = active.held) (hends : active.ends ≠ none → new.ends ≠ none)
    (hworkers : s.workers = before ++ old ++ after) (hmoved : s'.workers = before ++ moved ++ after)
    (hshutdown : s'.shutdown = s.shutdown) (habort : s'.abort = s.abort ∨ new.ends ≠ none)
    (hstopping : ∀ worker ∈ moved, worker.place = .stopping → new.ends ≠ none)
    (hplaced : ∀ asset, active.pending.count asset + (hands old).count asset +
      (settledOf active.id events).count asset = new.pending.count asset +
        (hands moved).count asset + (settledOf active.id (events ++ [e])).count asset +
        lost.count asset)
    (hfew : new.ends = none → s.shutdown = false → s.abort = false →
      lost.length + old.countP Worker.refusing ≤ moved.countP Worker.refusing) :
    Conserved (events ++ [e]) s' := by
  have hsame : ∀ other, s'.run = some other → other = new := fun other hother =>
    Option.some.inj (hother.symm.trans hnew)
  have haborted : s.abort = true → s.shutdown = true ∨ new.ends ≠ none := fun habort =>
    (h.aborted habort).imp_right fun hall => hends (hall active hactive)
  refine ⟨haccounted, fun other hother => ?_, fun other hother worker hworker hplace => ?_,
    fun hstopped => ?_, fun other hother => ?_⟩
  · rw [hsame other hother, hheld]
    exact h.once active hactive
  · rw [hsame other hother]
    rw [hmoved, List.mem_append, List.mem_append] at hworker
    have hstill : worker ∈ s.workers → new.ends ≠ none := fun hmem =>
      hends (h.stopping active hactive worker hmem hplace)
    rcases hworker with (hworker | hworker) | hworker
    · exact hstill (by simp [hworkers, hworker])
    · exact hstopping worker hworker hplace
    · exact hstill (by simp [hworkers, hworker])
  · rw [hshutdown]
    have hnow : s.shutdown = true ∨ new.ends ≠ none := by
      rcases habort with hkept | hnow
      · exact haborted (hkept ▸ hstopped)
      · exact .inr hnow
    exact hnow.imp_right fun hnow other hother => hsame other hother ▸ hnow
  · obtain ⟨dropped, hcount, hbound⟩ := h.placed active hactive
    rw [hsame other hother]
    refine ⟨dropped ++ lost, fun asset => ?_, fun hnone hopen => ?_⟩
    · have heach := hcount asset
      have hmove := hplaced asset
      rw [hworkers] at heach
      rw [hheld, hid, hmoved]
      simp only [hands, List.filterMap_append, List.count_append] at heach hmove ⊢
      omega
    · rw [hshutdown] at hopen
      have hcalm : s.abort = false := by
        rw [Bool.eq_false_iff]
        intro hstopped
        rcases haborted hstopped with hclosed | hsome
        · cases hopen.symm.trans hclosed
        · exact hsome hnone
      have hgoing : active.ends = none := by
        by_contra hsome
        exact hends hsome hnone
      have hbefore := hbound hgoing hopen
      have hnow := hfew hnone hopen hcalm
      rw [hworkers] at hbefore
      rw [hmoved]
      simp only [List.countP_append, List.length_append] at hbefore hnow ⊢
      omega

theorem conserved_start {read : Catalog} {assets priority : List Uuid} {id : Uuid} {writes : Bool}
    (h : Conserved events s) (haccounted : Accounted (events ++ [.started (joinedBy s s')]) s')
    (hstart : s.startMeasurement pool method read assets priority id writes = .ok s') :
    Conserved (events ++ [.started (joinedBy s s')]) s' := by
  have hjoins := joins_start h.accounted.sound hstart
  have hfresh : (joinedBy s s').Nodup ∧
      ∀ key ∈ joinedBy s s', key ∉ s.catalog.queue.map QueueRow.key := by
    obtain ⟨rows, hqueue, hrows⟩ := hjoins.queue
    have hkeys := hjoins.sound.catalog.keys
    rw [hqueue, List.map_append, hrows, List.nodup_append] at hkeys
    exact ⟨hkeys.2.1, fun key hkey hold => hkeys.2.2 key hold key hkey rfl⟩
  simp only [State.startMeasurement, Result.bind_eq_ok] at hstart
  obtain ⟨order, -, hstart⟩ := hstart
  cases hrun : s.run with
  | none =>
    rw [hrun] at hstart
    simp only [State.begin, Result.bind_eq_ok, Result.pure_eq_ok, written_eq_ok] at hstart
    obtain ⟨catalog, ⟨-, hcatalog⟩, rfl⟩ := hstart
    have hempty : s.workers = [] := by
      refine List.eq_nil_iff_forall_not_mem.mpr fun worker hworker => ?_
      obtain ⟨active, hactive, -⟩ := h.accounted.sound.crew worker hworker
      cases hrun.symm.trans hactive
    have hbegun := Catalog.begun hcatalog
    -- no frame of a new run was settled
    have hnothing : settledOf id events = [] := by
      refine List.filterMap_eq_nil_iff.mpr fun key hkey => if_neg ?_
      rintro rfl
      obtain ⟨row, hrow, hrowkey, -⟩ := h.accounted.settled key hkey
      have hrunId : row.runId = key.1 := congrArg Prod.fst hrowkey
      exact hbegun.fresh (hrunId ▸ h.accounted.sound.catalog.queued row hrow)
    have hnodup : (State.queuedOf order).Nodup := by
      refine List.Nodup.of_map (id, ·) ?_
      simpa [joinedBy, State.spawnWorkers, hrun] using hfresh.1
    refine ⟨haccounted, ?_, ?_, ?_, ?_⟩
    · rintro active hactive
      obtain rfl := (Option.some.inj hactive).symm
      exact hnodup
    · rintro active - worker hworker hplace
      rcases mem_workers_spawnWorkers hworker with hold | hnext
      · have hold : worker ∈ s.workers := hold
        rw [hempty] at hold
        cases hold
      · cases hplace.symm.trans hnext
    · rintro ⟨⟩
    · rintro active hactive
      obtain rfl := (Option.some.inj hactive).symm
      refine ⟨[], fun asset => ?_, fun _ _ => Nat.zero_le _⟩
      rw [settledOf_quiet rfl, hands_spawnWorkers]
      show _ = (State.queuedOf order).count asset + (hands s.workers).count asset +
        (settledOf id events).count asset + _
      simp [hempty, hnothing, hands]
  | some active =>
    rw [hrun] at hstart
    simp only [State.join] at hstart
    split at hstart
    · simp [Result.bind_eq_ok] at hstart
    · simp only [Result.bind_eq_ok, Result.pure_eq_ok, written_eq_ok] at hstart
      obtain ⟨catalog, ⟨-, hcatalog⟩, rfl⟩ := hstart
      have hsame : ∀ other, (State.spawnWorkers { s with catalog } pool { active with
          held := active.held ++ ((State.queuedOf order).filter fun asset =>
            !active.held.contains asset)
          pending := moveToHead (active.pending ++ ((State.queuedOf order).filter fun asset =>
            !active.held.contains asset)) priority } 0).run = some other →
          other.ends = active.ends ∧ other.id = active.id := by
        rintro other hother
        obtain rfl := (Option.some.inj hother).symm
        exact ⟨rfl, rfl⟩
      refine ⟨haccounted, ?_, ?_, ?_, ?_⟩
      · rintro other hother
        obtain rfl := (Option.some.inj hother).symm
        refine List.nodup_append.mpr ⟨h.once active hrun, ?_, ?_⟩
        · refine List.Nodup.of_map (active.id, ·) ?_
          simpa [joinedBy, State.spawnWorkers, hrun] using hfresh.1
        · rintro asset hasset _ hother rfl
          simpa [hasset] using (List.mem_filter.mp hother).2
      · rintro other hother worker hworker hplace
        rw [(hsame other hother).1]
        rcases mem_workers_spawnWorkers hworker with hold | hnext
        · exact h.stopping active hrun worker hold hplace
        · cases hplace.symm.trans hnext
      · intro haborted
        refine (h.aborted haborted).imp_right fun hall other hother => ?_
        rw [(hsame other hother).1]
        exact hall active hrun
      · rintro other hother
        obtain ⟨dropped, hcount, hfew⟩ := h.placed active hrun
        obtain rfl := (Option.some.inj hother).symm
        refine ⟨dropped, fun asset => ?_, fun hends hopen => ?_⟩
        · have heach := hcount asset
          rw [settledOf_quiet rfl, hands_spawnWorkers]
          show (active.held ++ _).count asset = (moveToHead _ priority).count asset +
            (hands s.workers).count asset + (settledOf active.id events).count asset + _
          rw [moveToHead_perm.count_eq, List.count_append, List.count_append]
          omega
        · rw [refusing_spawnWorkers]
          exact hfew hends hopen

theorem Conserved.same (h : Conserved events s) (haccounted : Accounted (events ++ [e]) s')
    (hrun : s'.run = s.run) (hworkers : s'.workers = s.workers)
    (hshutdown : s'.shutdown = s.shutdown) (habort : s'.abort = s.abort)
    (hquiet : e.settlement = none) : Conserved (events ++ [e]) s' := by
  cases hactive : s.run with
  | none =>
    rw [hactive] at hrun
    have hnone : ∀ active, s'.run ≠ some active := by simp [hrun]
    exact ⟨haccounted, fun active hnew => absurd hnew (hnone active),
      fun active hnew => absurd hnew (hnone active),
      fun _ => .inr fun active hnew => absurd hnew (hnone active),
      fun active hnew => absurd hnew (hnone active)⟩
  | some active =>
    refine h.moved s.workers [] [] [] [] haccounted hactive (hrun.trans hactive) rfl rfl id
      (by simp) (by simp [hworkers]) hshutdown (.inl habort) (by simp) (fun asset => ?_) (by simp)
    rw [settledOf_quiet hquiet]
    simp

theorem nextFrame_takes {run asset : Uuid} {sequence : Nat} {writes again : Bool}
    (h : s.nextFrame run writes again = (s', some (asset, sequence))) :
    ∃ active pending, s.run = some active ∧ active.id = run ∧ active.pending = asset :: pending ∧
      s' = { s with run := some { active with pending, dequeued := sequence } } := by
  unfold State.nextFrame at h
  split at h
  · simp at h
  next active hactive =>
    obtain ⟨hrun, hid⟩ := Option.filter_eq_some_iff.mp hactive
    split at h
    · simp at h
    · split at h
      next pending _ hpending =>
        simp only [Prod.mk.injEq, Option.some.injEq] at h
        obtain ⟨rfl, rfl, rfl⟩ := h
        exact ⟨active, _, hrun, of_decide_eq_true hid, hpending, rfl⟩
      · dsimp only at h
        split at h <;> simp at h

theorem conserved_step (h : Conserved events s) (hstep : Step pool method s e s') :
    Conserved (events ++ [e]) s' := by
  have haccounted := h.accounted.step hstep
  have hrun : ∀ {before after : List Worker} {worker : Worker},
      s.workers = before ++ worker :: after →
        ∃ active, s.run = some active ∧ active.id = worker.run := fun hworkers =>
    h.accounted.sound.crew _ (hworkers ▸ List.mem_append_right _ List.mem_cons_self)
  have hsplit : ∀ {before after : List Worker} {worker : Worker},
      before ++ worker :: after = before ++ [worker] ++ after := by simp
  cases hstep with
  | start hopen hstart => exact conserved_start h haccounted hstart
  | prioritize run assets hopen =>
    unfold State.prioritize at haccounted ⊢
    split at haccounted
    next active hfound =>
      obtain ⟨hactive, -⟩ := Option.filter_eq_some_iff.mp hfound
      refine h.moved s.workers [] [] [] [] haccounted hactive rfl rfl rfl id (by simp) (by simp)
        rfl (.inl rfl) (by simp) (fun asset => ?_) (by simp)
      rw [settledOf_quiet rfl, moveToHead_perm.count_eq]
      simp
    next => exact h.same haccounted rfl rfl rfl rfl rfl
  | @cancel run hopen hrunning =>
    unfold State.cancelMeasurement at haccounted ⊢
    split at haccounted
    next active hfound =>
      obtain ⟨hactive, -⟩ := Option.filter_eq_some_iff.mp hfound
      have hends : active.ends.or (some .canceled) ≠ none := by cases active.ends <;> simp
      refine h.moved s.workers [] [] [] [] haccounted hactive rfl rfl rfl (fun _ => hends)
        (by simp) (by simp) rfl (.inr hends) (by simp) (fun asset => ?_) (by simp)
      rw [settledOf_quiet rfl]
      simp
    next => exact h.same haccounted rfl rfl rfl rfl rfl
  | @take s₁ before after run asset sequence writes again hworkers hnext =>
    obtain ⟨active, pending, hactive, rfl, hpending, rfl⟩ := nextFrame_takes hnext
    refine h.moved before [_] [_] after [] haccounted hactive rfl rfl rfl id
      (hworkers.trans hsplit) hsplit rfl (.inl rfl) (by simp) (fun other => ?_)
      (by simp [Worker.refusing])
    rw [settledOf_quiet rfl, hpending]
    simp only [hands_singleton, Worker.hand, Option.toList, List.count_cons, List.count_nil]
    omega
  | @leave s₁ before after run writes again hworkers hnext =>
    obtain ⟨active, hactive, hid⟩ := hrun hworkers
    have hgone : ∀ new : ActiveRun, s₁.run = some new → new.id = active.id →
        new.held = active.held → new.pending = active.pending → new.ends = active.ends →
        s₁.shutdown = s.shutdown → s₁.abort = s.abort →
        Conserved (events ++ [.quiet]) { s₁ with workers := before ++ after } := by
      intro new hnew hid hheld hpending hends hshutdown habort
      refine h.moved before [_] [] after [] haccounted hactive hnew hid hheld
        (by rw [hends]; exact id) (hworkers.trans hsplit) (by rw [List.append_nil]) hshutdown
        (.inl habort) (by simp) (fun other => ?_) (by simp [Worker.refusing])
      rw [settledOf_quiet rfl, hpending, hands_singleton]
      simp [Worker.hand, hands]
    rcases nextFrame_none hnext with ⟨rfl, -⟩ | ⟨found, hfound, -, ⟨-, rfl⟩ | ⟨-, rfl⟩⟩
    · exact hgone active hactive rfl rfl rfl rfl rfl rfl
    · obtain ⟨hsame, -⟩ := Option.filter_eq_some_iff.mp hfound
      obtain rfl := Option.some.inj (hactive.symm.trans hsame)
      exact hgone _ rfl rfl rfl rfl rfl rfl rfl
    · exact ⟨haccounted, by simp, by simp, by simp, by simp⟩
  | @measure before after run asset sequence measured hworkers =>
    obtain ⟨active, hactive, hid⟩ := hrun hworkers
    refine h.moved before [_] [_] after (if s.abort then [asset] else []) haccounted hactive
      hactive rfl rfl id (hworkers.trans hsplit) hsplit rfl (.inl rfl) ?_ (fun other => ?_) ?_
    · split <;> simp
    · rw [settledOf_quiet rfl]
      cases s.abort with
      | false => simp [Worker.hand]
      | true =>
        simp only [hands_singleton, Worker.hand, if_true, Option.toList, List.count_nil]
        omega
    · intro _ _ hcalm
      simp [hcalm, Worker.refusing]
  | @settle s₁ before after run asset id sequence measured writes hworkers hsettle =>
    obtain ⟨active, hactive, hid⟩ := hrun hworkers
    simp only [State.settle, Result.bind_eq_ok, Result.pure_eq_ok] at hsettle
    obtain ⟨catalog, -, rfl⟩ := hsettle
    refine h.moved before [_] [_] after [] haccounted hactive hactive rfl rfl (fun h => h)
      (hworkers.trans hsplit) hsplit rfl (.inl rfl) (by simp) (fun other => ?_)
      (by simp [Worker.refusing])
    rw [settledOf_settled, if_pos hid.symm]
    simp only [hands_singleton, Worker.hand, Option.toList, List.count_append, List.count_nil]
    omega
  | @refuse before after run asset sequence measured hworkers =>
    obtain ⟨active, hactive, hid⟩ := hrun hworkers
    refine h.moved before [_] [_] after [asset] haccounted hactive hactive rfl rfl id
      (hworkers.trans hsplit) hsplit rfl (.inl rfl) (by simp) (fun other => ?_)
      (by simp [Worker.refusing])
    rw [settledOf_quiet rfl]
    simp only [hands_singleton, Worker.hand, Option.toList, List.count_nil]
    omega
  | @check before after run hworkers =>
    obtain ⟨active, hactive, hid⟩ := hrun hworkers
    refine h.moved before [_] [_] after [] haccounted hactive hactive rfl rfl id
      (hworkers.trans hsplit) hsplit rfl (.inl rfl) ?_ (fun other => ?_) ?_
    · split <;> simp
    · rw [settledOf_quiet rfl]
      cases s.abort <;> simp [Worker.hand]
    · intro _ _ hcalm
      simp [hcalm, Worker.refusing]
  | @fail before after run hworkers =>
    obtain ⟨active, hactive, hid⟩ := hrun hworkers
    have hmark : s.markFailed run = { s with run := some { active with ends := some .failed } } := by
      have hfound : (s.run.filter fun active => active.id = run) = some active := by
        rw [hactive]
        exact if_pos (decide_eq_true hid)
      rw [State.markFailed, hfound]
    rw [hmark] at haccounted ⊢
    refine h.moved before [_] [_] after [] haccounted hactive rfl rfl rfl (by simp)
      (hworkers.trans hsplit) hsplit rfl (.inl rfl) (by simp) (fun other => ?_) (by simp)
    rw [settledOf_quiet rfl]
    simp only [hands_singleton, Worker.hand, Option.toList, List.count_nil]
    omega
  | @stop before after run hworkers =>
    obtain ⟨active, hactive, hid⟩ := hrun hworkers
    have hends : active.ends ≠ none :=
      h.stopping active hactive ⟨run, .stopping⟩ (hworkers ▸ by simp) rfl
    refine h.moved before [_] [_] after [] haccounted hactive hactive rfl rfl id
      (hworkers.trans hsplit) hsplit rfl (.inr hends) (by simp) (fun other => ?_)
      (fun hnone => absurd hnone hends)
    rw [settledOf_quiet rfl]
    simp only [hands_singleton, Worker.hand, Option.toList, List.count_nil]
    omega
  | observe assets => exact h.same haccounted rfl rfl rfl rfl rfl
  | close =>
    refine ⟨haccounted, h.once, h.stopping, fun _ => .inl rfl, fun active hactive => ?_⟩
    obtain ⟨dropped, hcount, -⟩ := h.placed active hactive
    refine ⟨dropped, fun asset => ?_, by simp⟩
    rw [settledOf_quiet rfl]
    exact hcount asset
  | reopen => exact ⟨haccounted, by simp, by simp, by simp, by simp⟩

theorem conserved_initial (h : Initial s) : Conserved [] s :=
  ⟨accounted_initial h, by simp [h.run], by simp [h.run], by simp [h.run], by simp [h.run]⟩

/-- Whatever calls and workers do: a frame that joined the queue of the run in memory is at exactly
one place, pending, in the hands of a worker, settled, or dropped; until the run ends or the library
closes no more are dropped than workers are about to mark the run failed; and only then may workers
stop measuring. -/
theorem frames_conserved {s₀ : State} {active : ActiveRun} (h₀ : Initial s₀)
    (hrun : Run (Step pool method) s₀ events s) (hactive : s.run = some active) :
    active.held.Nodup ∧
      (∃ dropped, (active.pending ++ hands s.workers ++ settledOf active.id events ++ dropped).Perm
        active.held ∧ (active.ends = none → s.shutdown = false →
          dropped.length ≤ s.workers.countP Worker.refusing)) ∧
      (s.abort = true → s.shutdown = true ∨ active.ends ≠ none) := by
  have h : Conserved events s :=
    hrun.traced (fun _ _ _ _ h hstep => conserved_step h hstep) (conserved_initial h₀)
  refine ⟨h.once active hactive, ?_, fun habort => (h.aborted habort).imp_right fun hall =>
    hall active hactive⟩
  obtain ⟨dropped, hcount, hfew⟩ := h.placed active hactive
  refine ⟨dropped, List.perm_iff_count.mpr fun asset => ?_, hfew⟩
  rw [hcount asset]
  simp only [List.count_append]

end

theorem frames_conserved_opened : ∃ s active,
    opened.startMeasurement 1 starMethod opened.catalog [1] [] 7 true = .ok s ∧
      s.run = some active ∧ active.pending = [1] ∧ active.held.Nodup ∧ ∃ dropped,
        (active.pending ++ hands s.workers ++ settledOf active.id [.started (joinedBy opened s)] ++
          dropped).Perm active.held := by
  have hstarted : ((opened.startMeasurement 1 starMethod opened.catalog [1] [] 7 true).toOption.bind
      fun s => s.run.map ActiveRun.pending) = some [1] := by decide
  obtain ⟨s, hs, hpending⟩ := Option.bind_eq_some_iff.mp hstarted
  obtain ⟨active, hactive, hpending⟩ := Option.map_eq_some_iff.mp hpending
  have hstart := Result.toOption_eq_some.mp hs
  have hnew : Initial opened := ⟨rfl, rfl, rfl, rfl, rfl⟩
  obtain ⟨hnodup, ⟨dropped, hperm, -⟩, -⟩ := frames_conserved hnew
    (.cons (.start rfl hstart) (.nil s)) hactive
  exact ⟨s, active, hstart, hactive, hpending, hnodup, dropped, hperm⟩

end PlateVault.Measurements
