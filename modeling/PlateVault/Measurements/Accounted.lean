import PlateVault.Lib.Runs
import PlateVault.Measurements.Review

/-!
# A run accounts for each frame once

The invariant of the run in memory, its row in the catalog and its workers, and what it comes to after
any steps in any order.
-/

namespace PlateVault.Measurements

open Library

/-- The run in memory is the catalog's Running run, with the frames of its queue and workers of its
own. -/
structure Active (s : State) (active : ActiveRun) : Prop where
  row : ∃ row ∈ s.catalog.runs, row.id = active.id ∧ row.state = .running
  held : ∀ asset, asset ∈ active.held ↔ (active.id, asset) ∈ s.catalog.queue.map QueueRow.key
  ends : active.ends ≠ some .completed
  counted : s.shutdown = false → s.workers.length = active.workers ∧ 0 < active.workers

structure State.Sound (s : State) : Prop where
  catalog : s.catalog.Sound
  crew : ∀ worker ∈ s.workers, ∃ active, s.run = some active ∧ active.id = worker.run
  active : ∀ active, s.run = some active → Active s active

/-- A run that was canceled or failed: it never reads Completed. -/
structure Stopped (s : State) (run : Uuid) : Prop where
  known : run ∈ s.catalog.runs.map RunRow.id
  never : ∀ row ∈ s.catalog.runs, row.id = run → row.state ≠ .completed
  ends : ∀ active, s.run = some active → active.id = run → active.ends.isSome = true

/-! ## The queue in memory -/

theorem taken_perm {pending assets : List Uuid} :
    ((taken pending assets).1 ++ (taken pending assets).2).Perm pending := by
  induction assets generalizing pending with
  | nil => exact .refl _
  | cons asset assets ih =>
    unfold taken
    by_cases hmem : pending.contains asset = true
    · rw [if_pos hmem, List.cons_append]
      exact (ih.cons asset).trans (List.perm_cons_erase (List.contains_iff_mem.mp hmem)).symm
    · rw [if_neg hmem]
      exact ih

theorem moveToHead_perm {pending assets : List Uuid} :
    (moveToHead pending assets).Perm pending := taken_perm

theorem written_eq_ok {α : Type} {writes : Bool} {r : Result α} {a : α} :
    written writes r = .ok a ↔ writes = true ∧ r = .ok a := by
  cases writes <;> simp [written]

/-! ## Joining -/

structure Joins (s s' : State) : Prop where
  sound : s'.Sound
  queue : ∃ rows, s'.catalog.queue = s.catalog.queue ++ rows ∧ rows.map QueueRow.key = joinedBy s s'
  records : s'.catalog.records = s.catalog.records
  workers : ∀ worker ∈ s'.workers, worker ∈ s.workers ∨ worker.place = .next
  stopped : ∀ run, Stopped s run → Stopped s' run

section

variable {s s' : State} {pool : Nat} {method : MeasurementMethod} {order : List FrameRecordBasis}
  {priority : List Uuid} {id : Uuid} {writes : Bool}

theorem crew_spawnWorkers {active : ActiveRun} {minimum : Nat}
    (hruns : ∀ worker ∈ s.workers, worker.run = active.id) :
    ∀ worker ∈ (s.spawnWorkers pool active minimum).workers, worker.run = active.id := by
  intro worker hworker
  rcases List.mem_append.mp hworker with hworker | hworker
  · exact hruns worker hworker
  · rw [List.eq_of_mem_replicate hworker]

theorem counted_spawnWorkers {active : ActiveRun} {minimum : Nat}
    (hlength : s.workers.length = active.workers) (hsome : 0 < active.workers ∨ 0 < minimum) :
    (s.spawnWorkers pool active minimum).workers.length =
        max active.workers (max (min pool active.pending.length) minimum) ∧
      0 < max active.workers (max (min pool active.pending.length) minimum) := by
  refine ⟨?_, by omega⟩
  simp only [State.spawnWorkers, List.length_append, List.length_replicate, hlength]
  omega

theorem mem_workers_spawnWorkers {active : ActiveRun} {minimum : Nat} {worker : Worker}
    (h : worker ∈ (s.spawnWorkers pool active minimum).workers) :
    worker ∈ s.workers ∨ worker.place = .next := by
  rcases List.mem_append.mp h with h | h
  · exact .inl h
  · exact .inr (congrArg Worker.place (List.eq_of_mem_replicate h))

theorem mem_keys_enqueue {c : Catalog} {run : Uuid} {assets : List Uuid} {key : Uuid × Uuid} :
    key ∈ (c.enqueue run assets).queue.map QueueRow.key ↔
      key ∈ c.queue.map QueueRow.key ∨ ∃ asset ∈ assets, (run, asset) = key := by
  simp [Catalog.enqueue, QueueRow.key]

theorem joins_begin (h : s.Sound) (hnone : s.run = none)
    (hbegin : s.begin pool method id order writes = .ok s') : Joins s s' := by
  simp only [State.begin, Result.bind_eq_ok, Result.pure_eq_ok, written_eq_ok] at hbegin
  obtain ⟨catalog, ⟨-, hcatalog⟩, rfl⟩ := hbegin
  have hbegun := Catalog.begun hcatalog
  obtain ⟨row, hid, hstate, -, -, -, -, hruns⟩ := hbegun.runs
  have hempty : s.workers = [] := by
    refine List.eq_nil_iff_forall_not_mem.mpr fun worker hworker => ?_
    obtain ⟨active, hactive, -⟩ := h.crew worker hworker
    rw [hnone] at hactive
    cases hactive
  have hnokey : ∀ asset, (id, asset) ∉ s.catalog.queue.map QueueRow.key := by
    intro asset hmem
    obtain ⟨old, hold, hkey⟩ := List.mem_map.mp hmem
    have hrun : old.runId = id := congrArg Prod.fst hkey
    exact hbegun.fresh (hrun ▸ h.catalog.queued old hold)
  refine ⟨⟨hbegun.sound h.catalog, fun worker hworker => ⟨_, rfl, ?_⟩, ?_⟩, ⟨_, hbegun.queue, ?_⟩,
    hbegun.records, fun worker hworker => mem_workers_spawnWorkers hworker, fun run hstopped => ?_⟩
  · exact (crew_spawnWorkers (by simp [hempty]) worker hworker).symm
  · rintro active hactive
    obtain rfl := (Option.some.inj hactive).symm
    refine ⟨⟨row, ?_, hid, hstate⟩, fun asset => ?_, by simp, fun _ => ?_⟩
    · show row ∈ catalog.runs
      rw [hruns]
      exact List.mem_append_right _ (List.mem_singleton_self _)
    · show asset ∈ State.queuedOf order ↔ (id, asset) ∈ catalog.queue.map QueueRow.key
      rw [hbegun.queue, mem_keys_enqueue]
      constructor
      · exact fun hasset => .inr ⟨asset, hasset, rfl⟩
      · rintro (hmem | ⟨other, hother, heq⟩)
        · exact absurd hmem (hnokey asset)
        · have hasset : other = asset := congrArg Prod.snd heq
          exact hasset ▸ hother
    · exact counted_spawnWorkers (by simp [hempty]) (.inr Nat.one_pos)
  · simp [joinedBy, State.spawnWorkers, hnone, QueueRow.key, Function.comp_def]
  · have hne : run ≠ id := fun heq => hbegun.fresh (heq ▸ hstopped.known)
    refine ⟨?_, ?_, ?_⟩
    · show run ∈ catalog.runs.map RunRow.id
      rw [hruns, List.map_append]
      exact List.mem_append_left _ hstopped.known
    · intro other hother hrun
      have hother : other ∈ catalog.runs := hother
      rw [hruns, List.mem_append, List.mem_singleton] at hother
      rcases hother with hother | rfl
      · exact hstopped.never other hother hrun
      · exact absurd (hrun.symm.trans hid) hne
    · intro active hactive hrun
      obtain rfl := (Option.some.inj hactive).symm
      exact absurd hrun.symm hne

theorem mem_runAssets {c : Catalog} {run asset : Uuid} :
    asset ∈ c.runAssets run ↔ (run, asset) ∈ c.queue.map QueueRow.key := by
  simp only [Catalog.runAssets, List.mem_map, List.mem_filter, decide_eq_true_eq, QueueRow.key,
    Prod.mk.injEq]
  constructor
  · rintro ⟨row, ⟨hrow, hrun⟩, hasset⟩
    exact ⟨row, hrow, hrun, hasset⟩
  · rintro ⟨row, hrow, hrun, hasset⟩
    exact ⟨row, ⟨hrow, hrun⟩, hasset⟩

theorem Stopped.of_sameStates {run : Uuid} (h : Stopped s run)
    (hstates : Catalog.SameStates s.catalog s'.catalog)
    (hends : ∀ active, s'.run = some active → active.id = run → active.ends.isSome = true) :
    Stopped s' run := by
  refine ⟨?_, fun row hrow hid => ?_, hends⟩
  · obtain ⟨row, hrow, hid⟩ := List.mem_map.mp h.known
    obtain ⟨row', hrow', hid', -⟩ := hstates.forth row hrow
    exact List.mem_map.mpr ⟨row', hrow', hid'.trans hid⟩
  · obtain ⟨old, hold, hsame, hstate⟩ := hstates.back row hrow
    exact hstate ▸ h.never old hold (hsame.trans hid)

theorem joins_join (h : s.Sound) {active : ActiveRun}
    (hactive : s.run = some active) (hjoin : s.join pool active order priority writes = .ok s') :
    Joins s s' := by
  have ha := h.active active hactive
  unfold State.join at hjoin
  split at hjoin
  · simp [Result.bind_eq_ok] at hjoin
  next hends =>
    simp only [Result.bind_eq_ok, Result.pure_eq_ok, written_eq_ok] at hjoin
    obtain ⟨catalog, ⟨-, hcatalog⟩, rfl⟩ := hjoin
    have hfresh : ((State.queuedOf order).filter fun asset => !active.held.contains asset).filter
        (fun id => !(s.catalog.runAssets active.id).contains id) =
          (State.queuedOf order).filter fun asset => !active.held.contains asset := by
      refine List.filter_eq_self.mpr fun asset hasset => ?_
      have hheld : asset ∉ active.held := by simpa using (List.mem_filter.mp hasset).2
      have hqueued : asset ∉ s.catalog.runAssets active.id := fun hmem =>
        hheld ((ha.held asset).mpr (mem_runAssets.mp hmem))
      simpa using hqueued
    have hextended := Catalog.extended hcatalog
    rw [hfresh] at hextended
    have hstates := hextended.sameStates
    refine ⟨⟨hextended.sound h.catalog, fun worker hworker => ⟨_, rfl, ?_⟩, ?_⟩,
      ⟨_, hextended.queue, ?_⟩,
      hextended.records, fun worker hworker => mem_workers_spawnWorkers hworker,
      fun run hstopped => hstopped.of_sameStates hstates ?_⟩
    · refine (crew_spawnWorkers (fun other hother => ?_) worker hworker).symm
      obtain ⟨found, hfound, hid⟩ := h.crew other hother
      obtain rfl := Option.some.inj (hactive.symm.trans hfound)
      exact hid.symm
    · intro joined hjoined
      obtain rfl := (Option.some.inj hjoined).symm
      obtain ⟨row, hrow, hid, hstate⟩ := ha.row
      obtain ⟨row', hrow', hid', hstate'⟩ := hstates.forth row hrow
      refine ⟨⟨row', hrow', hid'.trans hid, hstate'.trans hstate⟩, fun asset => ?_, ha.ends,
        fun hopen => ?_⟩
      · show asset ∈ active.held ++ _ ↔ (active.id, asset) ∈ catalog.queue.map QueueRow.key
        rw [hextended.queue, mem_keys_enqueue, List.mem_append, ha.held]
        refine or_congr Iff.rfl ⟨fun hasset => ⟨asset, hasset, rfl⟩, ?_⟩
        rintro ⟨other, hother, heq⟩
        have hasset : other = asset := congrArg Prod.snd heq
        exact hasset ▸ hother
      · obtain ⟨hlength, hsome⟩ := ha.counted hopen
        exact counted_spawnWorkers hlength (.inl hsome)
    · simp [joinedBy, State.spawnWorkers, hactive, QueueRow.key, Function.comp_def]
    · intro joined hjoined hid
      obtain rfl := (Option.some.inj hjoined).symm
      exact hstopped.ends active hactive hid

theorem joins_start {read : Catalog} {assets : List Uuid} (h : s.Sound)
    (hstart : s.startMeasurement pool method read assets priority id writes = .ok s') :
    Joins s s' := by
  simp only [State.startMeasurement, Result.bind_eq_ok] at hstart
  obtain ⟨order, -, hstart⟩ := hstart
  cases hrun : s.run with
  | none =>
    rw [hrun] at hstart
    exact joins_begin h hrun hstart
  | some active =>
    rw [hrun] at hstart
    exact joins_join h hrun hstart

end

/-! ## Other steps -/

/-- A step that keeps the run in memory and the catalog's runs with their queues. -/
structure Keeps (s s' : State) : Prop where
  catalog : s.catalog.Sound → s'.catalog.Sound
  states : Catalog.SameStates s.catalog s'.catalog
  keys : s'.catalog.queue.map QueueRow.key = s.catalog.queue.map QueueRow.key
  absent : s'.run = none → s.run = none
  present : ∀ active', s'.run = some active' → ∃ active, s.run = some active ∧
    active'.id = active.id ∧ active'.held = active.held ∧ active'.workers = active.workers ∧
    (active.ends ≠ some .completed → active'.ends ≠ some .completed) ∧
    (active.ends.isSome = true → active'.ends.isSome = true)
  crew : s'.workers.map Worker.run = s.workers.map Worker.run
  shutdown : s'.shutdown = false → s.shutdown = false

section

variable {s s' : State}

theorem Keeps.sound (h : Keeps s s') (hs : s.Sound) : s'.Sound := by
  refine ⟨h.catalog hs.catalog, fun worker hworker => ?_, fun active' hactive' => ?_⟩
  · obtain ⟨other, hother, hsame⟩ := List.mem_map.mp (h.crew ▸ List.mem_map_of_mem hworker)
    obtain ⟨active, hactive, hid⟩ := hs.crew other hother
    cases hnew : s'.run with
    | none =>
      rw [h.absent hnew] at hactive
      cases hactive
    | some active' =>
      obtain ⟨found, hfound, hid', -⟩ := h.present active' hnew
      obtain rfl := Option.some.inj (hactive.symm.trans hfound)
      exact ⟨active', rfl, hid'.trans (hid.trans hsame)⟩
  · obtain ⟨active, hactive, hid, hheld, hcount, hends, -⟩ := h.present active' hactive'
    have ha := hs.active active hactive
    obtain ⟨row, hrow, hrowId, hstate⟩ := ha.row
    obtain ⟨row', hrow', hrowId', hstate'⟩ := h.states.forth row hrow
    refine ⟨⟨row', hrow', hrowId'.trans (hrowId.trans hid.symm), hstate'.trans hstate⟩,
      fun asset => ?_, hends ha.ends, fun hopen => ?_⟩
    · rw [hheld, hid, h.keys]
      exact ha.held asset
    · obtain ⟨hlength, hsome⟩ := ha.counted (h.shutdown hopen)
      have hlengths := congrArg List.length h.crew
      simp only [List.length_map] at hlengths
      exact ⟨hlengths.trans (hlength.trans hcount.symm), hcount ▸ hsome⟩

theorem Keeps.stopped {run : Uuid} (h : Keeps s s') (hs : Stopped s run) : Stopped s' run := by
  refine hs.of_sameStates h.states fun active' hactive' hid => ?_
  obtain ⟨active, hactive, hsame, -, -, -, hends⟩ := h.present active' hactive'
  exact hends (hs.ends active hactive (hsame ▸ hid))

theorem keeps_of_eq (hruns : s'.catalog.runs = s.catalog.runs)
    (hqueue : s'.catalog.queue = s.catalog.queue) (hrun : s'.run = s.run)
    (hcrew : s'.workers.map Worker.run = s.workers.map Worker.run)
    (hshutdown : s'.shutdown = false → s.shutdown = false) : Keeps s s' where
  catalog h := h.congr hruns hqueue
  states := .of_eq hruns
  keys := by rw [hqueue]
  absent h := hrun ▸ h
  present active' h := ⟨active', hrun ▸ h, rfl, rfl, rfl, id, id⟩
  crew := hcrew
  shutdown := hshutdown

theorem map_run_moved {workers before after : List Worker} {run : Uuid} {old new : WorkerAt}
    (h : workers = before ++ { run, place := old } :: after) :
    (before ++ { run, place := new } :: after).map Worker.run = workers.map Worker.run := by
  simp [h]

theorem keeps_run {active new : ActiveRun} (hactive : s.run = some active) (hnew : s'.run = some new)
    (hcatalog : s'.catalog = s.catalog)
    (hsame : new.id = active.id ∧ new.held = active.held ∧ new.workers = active.workers ∧
      (active.ends ≠ some .completed → new.ends ≠ some .completed) ∧
      (active.ends.isSome = true → new.ends.isSome = true))
    (hcrew : s'.workers.map Worker.run = s.workers.map Worker.run)
    (hshutdown : s'.shutdown = false → s.shutdown = false) : Keeps s s' := by
  refine ⟨fun h => hcatalog ▸ h, .of_eq (by rw [hcatalog]), by rw [hcatalog], fun hnone => ?_,
    fun active' hactive' => ?_, hcrew, hshutdown⟩
  · rw [hnew] at hnone
    cases hnone
  · obtain rfl := Option.some.inj (hnew.symm.trans hactive')
    exact ⟨active, hactive, hsame⟩

theorem State.Sound.active_of_worker (h : s.Sound) {worker : Worker} (hworker : worker ∈ s.workers) :
    ∃ active, s.run = some active ∧ active.id = worker.run ∧
      (s.run.filter fun active => active.id = worker.run) = some active := by
  obtain ⟨active, hactive, hid⟩ := h.crew worker hworker
  exact ⟨active, hactive, hid, by simp [hactive, hid]⟩

end

/-! ## Leaving -/

section

variable {s s' : State} {run : Uuid} {writes again : Bool}

theorem nextFrame_some {asset : Uuid} {sequence : Nat}
    (h : s.nextFrame run writes again = (s', some (asset, sequence))) :
    ∃ active pending, (s.run.filter fun active => active.id = run) = some active ∧
      s' = { s with run := some { active with pending, dequeued := sequence } } := by
  unfold State.nextFrame at h
  split at h
  · simp at h
  next active hactive =>
    split at h
    · simp at h
    · split at h
      next pending _ _ =>
        simp only [Prod.mk.injEq, Option.some.injEq] at h
        obtain ⟨rfl, -, rfl⟩ := h
        exact ⟨active, _, hactive, rfl⟩
      · dsimp only at h
        split at h <;> simp at h

theorem nextFrame_none (h : s.nextFrame run writes again = (s', none)) :
    (s' = s ∧ (s.shutdown = true ∨ (s.run.filter fun active => active.id = run) = none)) ∨
      ∃ active, (s.run.filter fun active => active.id = run) = some active ∧ s.shutdown = false ∧
        ((0 < active.workers - 1 ∧
            s' = { s with run := some { active with workers := active.workers - 1 } }) ∨
          (active.workers - 1 = 0 ∧ s' = { s with
            catalog := State.finish s.catalog run (active.ends.getD .completed) writes again
            run := none })) := by
  unfold State.nextFrame at h
  split at h
  next hnone =>
    simp only [Prod.mk.injEq, and_true] at h
    exact .inl ⟨h.symm, .inr hnone⟩
  next active hactive =>
    split at h
    next hshutdown =>
      simp only [Prod.mk.injEq, and_true] at h
      exact .inl ⟨h.symm, .inl hshutdown⟩
    next hopen =>
      refine .inr ⟨active, hactive, by simpa using hopen, ?_⟩
      split at h
      · simp at h
      · dsimp only at h
        split at h
        next hmore =>
          simp only [Prod.mk.injEq, and_true] at h
          exact .inl ⟨hmore, h.symm⟩
        next hlast =>
          simp only [Prod.mk.injEq, and_true] at h
          exact .inr ⟨Nat.eq_zero_of_not_pos hlast, h.symm⟩

theorem finish_cases {c : Catalog} {state : RunState} (hc : c.Sound) :
    State.finish c run state writes again = c ∨ ∃ ended, (ended = state ∨ ended = .failed) ∧
      c.Ended (State.finish c run state writes again) (fun row => row.id = run) ended := by
  unfold State.finish
  split
  next finished hfinished =>
    exact .inr ⟨state, .inl rfl, Catalog.ended (written_eq_ok.mp hfinished).2 hc⟩
  · split
    · split
      next finished hfinished =>
        exact .inr ⟨.failed, .inr rfl, Catalog.ended (written_eq_ok.mp hfinished).2 hc⟩
      · exact .inl rfl
    · exact .inl rfl

structure Leaves (s s' : State) : Prop where
  sound : s'.Sound
  queue : s'.catalog.queue = s.catalog.queue
  records : s'.catalog.records = s.catalog.records
  workers : ∀ worker ∈ s'.workers, worker ∈ s.workers
  stopped : ∀ run, Stopped s run → Stopped s' run

theorem Stopped.of_ended {c : Catalog} {p : RunRow → Bool} {state : RunState} {stopped : Uuid}
    (h : Stopped s stopped) (hended : s.catalog.Ended c p state) (hcatalog : s'.catalog = c)
    (hrun : s'.run = none) (hstate : ∀ row, p row = true → row.id = stopped → state ≠ .completed) :
    Stopped s' stopped := by
  subst hcatalog
  refine ⟨hended.ids ▸ h.known, fun row hrow hid => ?_, fun active hactive => ?_⟩
  · obtain ⟨old, hold, rfl | ⟨hp, rfl⟩⟩ := hended.mem_runs hrow
    · exact h.never row hold hid
    · exact hstate old hp hid
  · rw [hrun] at hactive
    cases hactive

theorem leaves_next {before after : List Worker} (h : s.Sound)
    (hworkers : s.workers = before ++ { run, place := .next } :: after)
    (hnext : s.nextFrame run writes again = (s', none)) :
    Leaves s { s' with workers := before ++ after } := by
  have hsub : ∀ worker ∈ before ++ after, worker ∈ s.workers := by
    intro worker hworker
    rw [hworkers]
    exact (List.sublist_cons_self _ after).append_left before |>.mem hworker
  have hworker : ({ run, place := .next } : Worker) ∈ s.workers := by simp [hworkers]
  obtain ⟨active, hactive, hid, hfilter⟩ := h.active_of_worker hworker
  have ha := h.active active hactive
  have hlength : s.workers.length = (before ++ after).length + 1 := by
    rw [hworkers, List.length_append, List.length_cons, List.length_append]
    omega
  rcases nextFrame_none hnext with ⟨rfl, hreason⟩ | ⟨found, hfound, hopen, hcase⟩
  · have hshutdown : s'.shutdown = true := by
      refine hreason.resolve_right fun hnone => ?_
      rw [hnone] at hfilter
      cases hfilter
    refine ⟨⟨h.catalog, fun worker hworker => h.crew worker (hsub worker hworker), ?_⟩, rfl, rfl, hsub,
      fun run hstopped => ⟨hstopped.known, hstopped.never, hstopped.ends⟩⟩
    intro other hother
    have hb := h.active other hother
    refine ⟨hb.row, hb.held, hb.ends, fun hopen => ?_⟩
    exact absurd (hshutdown.symm.trans hopen) (by simp)
  · obtain rfl := Option.some.inj (hfilter.symm.trans hfound)
    obtain ⟨hcount, hsome⟩ := ha.counted hopen
    rcases hcase with ⟨hmore, rfl⟩ | ⟨hlast, rfl⟩
    · refine ⟨⟨h.catalog, fun worker hworker => ⟨_, rfl, ?_⟩, ?_⟩, rfl, rfl, hsub,
        fun run hstopped => ⟨hstopped.known, hstopped.never, ?_⟩⟩
      · obtain ⟨other, hother, hsame⟩ := h.crew worker (hsub worker hworker)
        obtain rfl := Option.some.inj (hactive.symm.trans hother)
        exact hsame
      · intro other hother
        obtain rfl := (Option.some.inj hother).symm
        refine ⟨ha.row, ha.held, ha.ends, fun _ => ⟨?_, hmore⟩⟩
        show (before ++ after).length = active.workers - 1
        omega
      · intro other hother hsame
        obtain rfl := (Option.some.inj hother).symm
        exact hstopped.ends active hactive hsame
    · have hempty : before ++ after = [] := List.length_eq_zero_iff.mp (by omega)
      have hcrew : ∀ worker ∈ before ++ after, ∃ active, (none : Option ActiveRun) = some active ∧
          active.id = worker.run := by
        rw [hempty]
        exact fun worker hworker => absurd hworker List.not_mem_nil
      rcases finish_cases h.catalog with hsame | ⟨ended, hended, hwritten⟩
      · refine ⟨⟨?_, hcrew, fun other hother => by cases hother⟩,
          congrArg Catalog.queue hsame, congrArg Catalog.records hsame, hsub,
          fun run hstopped => ⟨?_, ?_, fun other hother => by cases hother⟩⟩
        · simpa only [hsame] using h.catalog
        · simpa only [hsame] using hstopped.known
        · simpa only [hsame] using hstopped.never
      · refine ⟨⟨hwritten.sound h.catalog, hcrew, fun other hother => by cases hother⟩,
          hwritten.queue, hwritten.records, hsub,
          fun stopped hstopped => hstopped.of_ended hwritten rfl rfl fun row hp hrow => ?_⟩
        have hends := hstopped.ends active hactive (hid.trans ((of_decide_eq_true hp).symm.trans hrow))
        obtain ⟨state, hstate⟩ := Option.isSome_iff_exists.mp hends
        have hne := ha.ends
        rw [hstate] at hended hne
        rcases hended with rfl | rfl
        · exact fun heq => hne (congrArg some heq)
        · simp

theorem leaves_reopen (h : s.Sound) : Leaves s {
    catalog := s.catalog.recoverInterrupted, run := none, abort := false, shutdown := false
    workers := [] } :=
  ⟨⟨Catalog.ended_recovered.sound h.catalog, (fun worker hworker => absurd hworker List.not_mem_nil),
      fun active hactive => by cases hactive⟩, rfl, rfl,
    (fun worker hworker => absurd hworker List.not_mem_nil),
    fun run hstopped => hstopped.of_ended Catalog.ended_recovered rfl rfl fun row _ _ => by simp⟩

end

end PlateVault.Measurements
