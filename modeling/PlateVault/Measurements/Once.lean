import PlateVault.Measurements.Accounted

/-!
# What any order of steps comes to

Each frame joins a run's queue once and is settled once, the counters of each run add up, a run that
was canceled or failed never reads Completed, and a record is stored only for the bytes the catalog
has on record.
-/

namespace PlateVault.Measurements

open Library

def Event.joined : Event → List (Uuid × Uuid)
  | .started joined => joined
  | _ => []

def Event.settlement : Event → Option (Uuid × Uuid)
  | .settled run asset => some (run, asset)
  | _ => none

/-- The record's bytes are those of an asset that is not Retired, as the catalog observed it. -/
def Current (c : Catalog) (record : MeasurementRecord) : Prop :=
  ∃ asset ∈ c.assets, asset.id = record.assetId ∧ asset.availability ≠ .retired ∧
    fingerprintMatches asset.fingerprint record.basis = true

structure Follows (s : State) (e : Event) (s' : State) : Prop where
  sound : s'.Sound
  queue : s'.catalog.queue.map QueueRow.key = s.catalog.queue.map QueueRow.key ++ e.joined
  settled : ∀ row ∈ s.catalog.queue, row.settled = true →
    ∃ row' ∈ s'.catalog.queue, row'.key = row.key ∧ row'.settled = true
  settlement : ∀ key, e.settlement = some key →
    (∃ row ∈ s.catalog.queue, row.key = key ∧ row.settled = false) ∧
      ∃ row' ∈ s'.catalog.queue, row'.key = key ∧ row'.settled = true
  stopped : ∀ run, Stopped s run ∨ e = .canceled run ∨ e = .failed run → Stopped s' run
  records : ∀ record ∈ s'.catalog.records, record ∈ s.catalog.records ∨
    Current s.catalog record ∧ ∃ worker ∈ s.workers, worker.run = record.runId ∧
      ∃ sequence, worker.place = .settling record.assetId sequence (.read record.basis record.outcome)
  settling : ∀ worker ∈ s'.workers, ∀ asset sequence measured,
    worker.place = .settling asset sequence measured →
      worker ∈ s.workers ∨ e = .measured worker.run asset measured

section

variable {s s' : State} {e : Event} {pool : Nat} {method : MeasurementMethod}

theorem stopped_active (h : s.Sound) {active : ActiveRun} (hactive : s.run = some active)
    (hends : active.ends.isSome = true) : Stopped s active.id := by
  obtain ⟨row, hrow, hid, hstate⟩ := (h.active active hactive).row
  refine ⟨hid ▸ List.mem_map_of_mem hrow, fun other hother hsame => ?_, fun other hother _ => ?_⟩
  · rw [h.catalog.eq_of_id hother hrow (hsame.trans hid.symm), hstate]
    simp
  · obtain rfl := Option.some.inj (hactive.symm.trans hother)
    exact hends

theorem Keeps.follows (hk : Keeps s s') (h : s.Sound) (hqueue : s'.catalog.queue = s.catalog.queue)
    (hrecords : s'.catalog.records = s.catalog.records) (hjoined : e.joined = [])
    (hsettlement : e.settlement = none)
    (hstopped : ∀ run, e = .canceled run ∨ e = .failed run → Stopped s' run)
    (hsettling : ∀ worker ∈ s'.workers, ∀ asset sequence measured,
      worker.place = .settling asset sequence measured →
        worker ∈ s.workers ∨ e = .measured worker.run asset measured) : Follows s e s' where
  sound := hk.sound h
  queue := by rw [hqueue, hjoined, List.append_nil]
  settled row hrow hsettled := ⟨row, hqueue ▸ hrow, rfl, hsettled⟩
  settlement key hkey := by
    rw [hsettlement] at hkey
    cases hkey
  stopped run hrun := hrun.elim (fun hbefore => hk.stopped hbefore) (hstopped run)
  records record hrecord := .inl (hrecords ▸ hrecord)
  settling := hsettling

theorem Leaves.follows (hl : Leaves s s') : Follows s .quiet s' where
  sound := hl.sound
  queue := by
    rw [hl.queue]
    exact (List.append_nil _).symm
  settled row hrow hsettled := ⟨row, hl.queue ▸ hrow, rfl, hsettled⟩
  settlement key hkey := by cases hkey
  stopped run hrun := by
    rcases hrun with hrun | hrun | hrun
    · exact hl.stopped run hrun
    · cases hrun
    · cases hrun
  records record hrecord := .inl (hl.records ▸ hrecord)
  settling worker hworker _ _ _ _ := .inl (hl.workers worker hworker)

theorem Joins.follows (hj : Joins s s') : Follows s (.started (joinedBy s s')) s' where
  sound := hj.sound
  queue := by
    obtain ⟨rows, hrows, hkeys⟩ := hj.queue
    rw [hrows, List.map_append, hkeys]
    rfl
  settled row hrow hsettled := by
    obtain ⟨rows, hrows, -⟩ := hj.queue
    exact ⟨row, hrows ▸ List.mem_append_left _ hrow, rfl, hsettled⟩
  settlement key hkey := by cases hkey
  stopped run hrun := by
    rcases hrun with hrun | hrun | hrun
    · exact hj.stopped run hrun
    · cases hrun
    · cases hrun
  records record hrecord := .inl (hj.records ▸ hrecord)
  settling worker hworker asset sequence measured hplace := by
    rcases hj.workers worker hworker with hbefore | hnext
    · exact .inl hbefore
    · rw [hnext] at hplace
      cases hplace

theorem settling_moved {before after : List Worker} {run : Uuid} {old new : WorkerAt}
    (hworkers : s.workers = before ++ { run, place := old } :: after)
    (hnew : ∀ asset sequence measured, new = .settling asset sequence measured →
      e = .measured run asset measured) :
    ∀ worker ∈ before ++ { run, place := new } :: after, ∀ asset sequence measured,
      worker.place = .settling asset sequence measured →
        worker ∈ s.workers ∨ e = .measured worker.run asset measured := by
  intro worker hworker asset sequence measured hplace
  rcases List.mem_append.mp hworker with hmem | hmem
  · exact .inl (hworkers ▸ List.mem_append_left _ hmem)
  · rcases List.mem_cons.mp hmem with rfl | hmem
    · exact .inr (hnew asset sequence measured hplace)
    · exact .inl (hworkers ▸ List.mem_append_right _ (List.mem_cons_of_mem _ hmem))

theorem follows_moved {before after : List Worker} {run : Uuid} {old new : WorkerAt} {abort : Bool}
    (h : s.Sound) (hworkers : s.workers = before ++ { run, place := old } :: after)
    (hjoined : e.joined = []) (hsettlement : e.settlement = none)
    (hstopped : ∀ run, ¬ (e = .canceled run ∨ e = .failed run))
    (hnew : ∀ asset sequence measured, new = .settling asset sequence measured →
      e = .measured run asset measured) :
    Follows s e { s with abort, workers := before ++ { run, place := new } :: after } := by
  have hkeeps : Keeps s { s with abort, workers := before ++ { run, place := new } :: after } :=
    keeps_of_eq rfl rfl rfl (map_run_moved hworkers) id
  exact hkeeps.follows h rfl rfl hjoined hsettlement
    (fun run hrun => absurd hrun (hstopped run)) (settling_moved hworkers hnew)

theorem settle_eq_ok {run asset recordId : Uuid} {sequence : Nat} {measured : Measured} {writes : Bool}
    (h : s.settle method run asset sequence measured recordId writes = .ok s') :
    ∃ catalog, s' = { s with catalog } ∧ Catalog.Settled s.catalog catalog run asset ∧
      ∀ record ∈ catalog.records, record ∈ s.catalog.records ∨ Current s.catalog record ∧
        record.runId = run ∧ record.assetId = asset ∧
          measured = .read record.basis record.outcome := by
  simp only [State.settle, Result.bind_eq_ok, Result.pure_eq_ok, written_eq_ok] at h
  obtain ⟨catalog, ⟨-, h⟩, rfl⟩ := h
  cases measured with
  | read basis outcome =>
    obtain ⟨hsettled, hrecords⟩ := Catalog.recorded h
    refine ⟨catalog, rfl, hsettled, fun record hrecord => ?_⟩
    rcases hrecords with hsame | ⟨hnew, -, hcurrent⟩
    · exact .inl (hsame ▸ hrecord)
    · rw [hnew] at hrecord
      rcases List.mem_append.mp hrecord with hold | hlast
      · exact .inl (List.mem_of_mem_filter hold)
      · obtain rfl := List.mem_singleton.mp hlast
        exact .inr ⟨hcurrent, rfl, rfl, rfl⟩
  | unread kind =>
    obtain ⟨hsettled, hrecords⟩ := Catalog.recorded_issue h
    exact ⟨catalog, rfl, hsettled, fun record hrecord => .inl (hrecords ▸ hrecord)⟩

theorem follows_settle {before after : List Worker} {run asset recordId : Uuid} {sequence : Nat}
    {measured : Measured} {writes : Bool} (h : s.Sound)
    (hworkers : s.workers = before ++ { run, place := .settling asset sequence measured } :: after)
    (hsettle : s.settle method run asset sequence measured recordId writes = .ok s') :
    Follows s (.settled run asset)
      { s' with workers := before ++ { run, place := .next } :: after } := by
  obtain ⟨catalog, rfl, hsettled, hrecords⟩ := settle_eq_ok hsettle
  have hkeeps : Keeps s { s with
      catalog, workers := before ++ { run, place := .next } :: after } := {
    catalog := hsettled.sound, states := hsettled.sameStates, keys := hsettled.keys, absent := id
    present := fun active hactive => ⟨active, hactive, rfl, rfl, rfl, id, id⟩
    crew := map_run_moved hworkers, shutdown := id }
  have hrow : ∀ row ∈ s.catalog.queue, row.settle run asset ∈ catalog.queue := fun row hrow =>
    hsettled.queue ▸ List.mem_map_of_mem hrow
  refine ⟨hkeeps.sound h, ?_, fun row hmem hdone => ?_, fun key hkey => ?_, fun stopped hstopped => ?_,
    fun record hrecord => ?_, settling_moved hworkers (by simp)⟩
  · exact hsettled.keys.trans (List.append_nil _).symm
  · refine ⟨_, hrow row hmem, QueueRow.settle_key, ?_⟩
    unfold QueueRow.settle
    split
    · rfl
    · exact hdone
  · obtain rfl : (run, asset) = key := Option.some.inj hkey
    obtain ⟨row, hmem, hsame, hopen⟩ := hsettled.row
    refine ⟨⟨row, hmem, hsame, hopen⟩, _, hrow row hmem, QueueRow.settle_key.trans hsame, ?_⟩
    unfold QueueRow.settle
    rw [if_pos ⟨congrArg Prod.fst hsame, congrArg Prod.snd hsame⟩]
  · rcases hstopped with hstopped | hstopped | hstopped
    · exact hkeeps.stopped hstopped
    · cases hstopped
    · cases hstopped
  · rcases hrecords record hrecord with hold | ⟨hcurrent, hrun, hasset, hmeasured⟩
    · exact .inl hold
    · refine .inr ⟨hcurrent, { run, place := .settling asset sequence measured }, by simp [hworkers],
        hrun.symm, sequence, ?_⟩
      rw [hasset, hmeasured]

theorem follows (h : s.Sound) (hstep : Step pool method s e s') : Follows s e s' := by
  cases hstep with
  | start _ hstart => exact (joins_start h hstart).follows
  | prioritize run assets _ =>
    cases hfilter : s.run.filter fun active => active.id = run with
    | none =>
      have hsame : s.prioritize run assets = s := by simp only [State.prioritize, hfilter]
      rw [hsame]
      exact (keeps_of_eq rfl rfl rfl rfl id).follows (e := .quiet) h rfl rfl rfl rfl (by simp)
        fun worker hworker _ _ _ _ => .inl hworker
    | some active =>
      have hmoved : s.prioritize run assets = { s with
          run := some { active with pending := moveToHead active.pending assets } } := by
        simp only [State.prioritize, hfilter]
      rw [hmoved]
      have hkeeps : Keeps s { s with
          run := some { active with pending := moveToHead active.pending assets } } :=
        keeps_run (Option.eq_some_of_filter_eq_some hfilter) rfl rfl ⟨rfl, rfl, rfl, id, id⟩ rfl id
      exact hkeeps.follows h rfl rfl rfl rfl (by simp) fun worker hworker _ _ _ _ => .inl hworker
  | @cancel run _ hheld =>
    obtain ⟨active, hfilter⟩ := Option.isSome_iff_exists.mp hheld
    obtain ⟨hactive, hid⟩ := Option.filter_eq_some_iff.mp hfilter
    have hcancel : s.cancelMeasurement run = { s with
        run := some { active with ends := active.ends.or (some .canceled) }, abort := true } := by
      simp only [State.cancelMeasurement, hfilter]
    rw [hcancel]
    have hkeeps : Keeps s { s with
        run := some { active with ends := active.ends.or (some .canceled) }, abort := true } :=
      keeps_run hactive rfl rfl
        ⟨rfl, rfl, rfl, by cases active.ends <;> simp, by cases active.ends <;> simp⟩ rfl id
    refine hkeeps.follows h rfl rfl rfl rfl (fun other hother => ?_)
      fun worker hworker _ _ _ _ => .inl hworker
    obtain rfl : run = other := by simpa using hother
    exact of_decide_eq_true hid ▸ @stopped_active _ (hkeeps.sound h)
      { active with ends := active.ends.or (some .canceled) } rfl (by cases active.ends <;> simp)
  | @take _ before after run asset sequence _ _ hworkers hnext =>
    obtain ⟨active, pending, hfilter, rfl⟩ := nextFrame_some hnext
    have hkeeps : Keeps s { s with
        run := some { active with pending, dequeued := sequence }
        workers := before ++ { run, place := .measuring asset sequence } :: after } :=
      keeps_run (Option.eq_some_of_filter_eq_some hfilter) rfl rfl ⟨rfl, rfl, rfl, id, id⟩
        (map_run_moved hworkers) id
    exact hkeeps.follows h rfl rfl rfl rfl (by simp) (settling_moved hworkers (by simp))
  | leave hworkers hnext => exact (leaves_next h hworkers hnext).follows
  | measure measured hworkers =>
    refine follows_moved h hworkers rfl rfl (by simp) fun asset sequence found hplace => ?_
    split at hplace
    · cases hplace
    · cases hplace
      rfl
  | settle hworkers hsettle => exact follows_settle h hworkers hsettle
  | refuse hworkers => exact follows_moved (e := .quiet) h hworkers rfl rfl (by simp) (by simp)
  | check hworkers =>
    refine follows_moved h hworkers rfl rfl (by simp) fun asset sequence found hplace => ?_
    split at hplace <;> cases hplace
  | @fail before after run hworkers =>
    have hworker : ({ run, place := .failing } : Worker) ∈ s.workers := by simp [hworkers]
    obtain ⟨active, hactive, hid, hfilter⟩ := h.active_of_worker hworker
    have hfailed : s.markFailed run = { s with run := some { active with ends := some .failed } } := by
      simp only [State.markFailed, hfilter]
    rw [hfailed]
    have hkeeps : Keeps s { s with
        run := some { active with ends := some .failed }
        workers := before ++ { run, place := .stopping } :: after } :=
      keeps_run hactive rfl rfl ⟨rfl, rfl, rfl, by simp, by simp⟩ (map_run_moved hworkers) id
    refine hkeeps.follows h rfl rfl rfl rfl (fun other hother => ?_)
      (settling_moved hworkers (by simp))
    obtain rfl : run = other := by simpa using hother
    exact hid ▸ stopped_active (hkeeps.sound h) rfl rfl
  | stop hworkers => exact follows_moved (e := .quiet) h hworkers rfl rfl (by simp) (by simp)
  | observe assets =>
    have hkeeps : Keeps s { s with catalog := { s.catalog with assets } } :=
      keeps_of_eq rfl rfl rfl rfl id
    exact hkeeps.follows h rfl rfl rfl rfl (by simp) fun worker hworker _ _ _ _ => .inl hworker
  | close =>
    have hkeeps : Keeps s { s with shutdown := true, abort := true } :=
      keeps_of_eq rfl rfl rfl rfl (by simp)
    exact hkeeps.follows h rfl rfl rfl rfl (by simp) fun worker hworker _ _ _ _ => .inl hworker
  | reopen => exact (leaves_reopen h).follows

/-! ## Any order of steps -/

structure Accounted (events : List Event) (s : State) : Prop where
  sound : s.Sound
  joined : s.catalog.queue.map QueueRow.key = events.flatMap Event.joined
  once : (events.filterMap Event.settlement).Nodup
  settled : ∀ key ∈ events.filterMap Event.settlement,
    ∃ row ∈ s.catalog.queue, row.key = key ∧ row.settled = true
  stopped : ∀ run, .canceled run ∈ events ∨ .failed run ∈ events → Stopped s run
  measured : ∀ record ∈ s.catalog.records,
    .measured record.runId record.assetId (.read record.basis record.outcome) ∈ events
  settling : ∀ worker ∈ s.workers, ∀ asset sequence measured,
    worker.place = .settling asset sequence measured → .measured worker.run asset measured ∈ events

theorem accounted_initial (h : Initial s) : Accounted [] s where
  sound := by
    refine ⟨⟨?_, ?_, ?_, ?_, ?_, ?_⟩, ?_, ?_⟩
    all_goals simp [h.runs, h.queue, h.run, h.workers]
  joined := by simp [h.queue]
  once := List.nodup_nil
  settled key hkey := absurd hkey List.not_mem_nil
  stopped run hrun := by simp at hrun
  measured record hrecord := by simp [h.records] at hrecord
  settling worker hworker := by simp [h.workers] at hworker

theorem Accounted.step {events : List Event} (h : Accounted events s)
    (hstep : Step pool method s e s') : Accounted (events ++ [e]) s' := by
  have hf := follows h.sound hstep
  have hsettled : ∀ key ∈ events.filterMap Event.settlement,
      ∃ row ∈ s'.catalog.queue, row.key = key ∧ row.settled = true := by
    intro key hkey
    obtain ⟨row, hrow, rfl, hdone⟩ := h.settled key hkey
    exact hf.settled row hrow hdone
  refine ⟨hf.sound, ?_, ?_, fun key hkey => ?_, fun run hrun => ?_, fun record hrecord => ?_,
    fun worker hworker asset sequence measured hplace => ?_⟩
  · rw [hf.queue, h.joined, List.flatMap_append, List.flatMap_singleton]
  · -- a frame settled before has a settled row, and one settled now an open one
    rw [List.filterMap_append]
    cases hsettlement : e.settlement with
    | none => simpa [hsettlement] using h.once
    | some key =>
      rw [List.filterMap_cons_some hsettlement, List.filterMap_nil]
      refine List.nodup_append.mpr ⟨h.once, List.nodup_singleton _, ?_⟩
      rintro old hold _ hlast rfl
      obtain rfl := List.mem_singleton.mp hlast
      obtain ⟨row, hrow, hkey, hdone⟩ := h.settled old hold
      obtain ⟨⟨other, hother, hsame, hopen⟩, -⟩ := hf.settlement old hsettlement
      obtain rfl := List.inj_on_of_nodup_map h.sound.catalog.keys hrow hother (hkey.trans hsame.symm)
      rw [hdone] at hopen
      cases hopen
  · rw [List.filterMap_append, List.mem_append] at hkey
    rcases hkey with hkey | hkey
    · exact hsettled key hkey
    · obtain ⟨event, hevent, hsettlement⟩ := List.mem_filterMap.mp hkey
      obtain rfl := List.mem_singleton.mp hevent
      exact (hf.settlement key hsettlement).2
  · refine hf.stopped run ?_
    simp only [List.mem_append, List.mem_singleton] at hrun
    rcases hrun with (hrun | hrun) | (hrun | hrun)
    · exact .inl (h.stopped run (.inl hrun))
    · exact .inr (.inl hrun.symm)
    · exact .inl (h.stopped run (.inr hrun))
    · exact .inr (.inr hrun.symm)
  · refine List.mem_append_left _ ?_
    rcases hf.records record hrecord with hold | ⟨-, worker, hworker, hrun, sequence, hplace⟩
    · exact h.measured record hold
    · exact hrun ▸ h.settling worker hworker _ _ _ hplace
  · rcases hf.settling worker hworker asset sequence measured hplace with hold | hnew
    · exact List.mem_append_left _ (h.settling worker hold asset sequence measured hplace)
    · exact List.mem_append_right _ (List.mem_singleton.mpr hnew.symm)

theorem accounted_run {s₀ : State} {events : List Event} (h₀ : Initial s₀)
    (hrun : Run (Step pool method) s₀ events s) : Accounted events s :=
  hrun.traced (fun _ _ _ _ h hstep => h.step hstep) (accounted_initial h₀)

end

/-! ## Starts that are not refused -/

/-- `r` is no conflict with `run`. -/
def Unrefused {α : Type} (run : Uuid) (r : Result α) : Prop :=
  ∀ revision successors, r ≠ .error (.conflict run revision successors)

namespace Unrefused

variable {α β : Type} {run : Uuid}

theorem ok (a : α) : Unrefused run (.ok a : Result α) := fun _ _ h => by cases h

theorem bind {r : Result α} {f : α → Result β} (hr : Unrefused run r)
    (hf : ∀ a, r = .ok a → Unrefused run (f a)) : Unrefused run (r >>= f) := by
  cases r with
  | error error =>
    intro revision successors h
    exact hr revision successors (congrArg Except.error (Except.error.inj h))
  | ok a => exact hf a rfl

theorem require {condition : Bool} {error : LibraryError}
    (h : ∀ revision successors, error ≠ .conflict run revision successors) :
    Unrefused run (Result.require condition error) := by
  unfold Result.require
  split
  · exact ok ()
  · exact fun revision successors heq => h revision successors (Except.error.inj heq)

theorem orElse {found : Option α} {error : LibraryError}
    (h : ∀ revision successors, error ≠ .conflict run revision successors) :
    Unrefused run (Result.orElse found error) := by
  cases found with
  | some a => exact ok a
  | none => exact fun revision successors heq => h revision successors (Except.error.inj heq)

theorem mapM {f : α → Result β} (hf : ∀ a, Unrefused run (f a)) (as : List α) :
    Unrefused run (as.mapM f) := by
  induction as with
  | nil => exact ok []
  | cons a as ih =>
    rw [List.mapM_cons]
    exact (hf a).bind fun b _ => ih.bind fun bs _ => ok _

theorem written {writes : Bool} {r : Result α} (h : Unrefused run r) :
    Unrefused run (Measurements.written writes r) := by
  unfold Measurements.written
  split
  · exact h
  · exact fun _ _ heq => by cases heq

end Unrefused

section

variable {s : State} {pool : Nat} {method : MeasurementMethod} {run : Uuid} {c : Catalog}

theorem unrefused_uniqueFrom {seen ids : List Uuid} : Unrefused run (uniqueFrom seen ids) := by
  induction ids generalizing seen with
  | nil => exact .ok ()
  | cons id ids ih => exact (Unrefused.require (by simp)).bind fun _ _ => ih

theorem unrefused_loadAssets {ids : List Uuid} : Unrefused run (c.loadAssets ids) :=
  .require (by simp)

theorem unrefused_dbCount {value : Nat} : Unrefused run (dbCount value) := .require (by simp)

theorem unrefused_ordered {assets priority : List Uuid} :
    Unrefused run (State.ordered c method assets priority) := by
  refine (Unrefused.require (by simp)).bind fun _ _ => ?_
  split
  · exact fun _ _ h => by cases h
  · refine Unrefused.bind ?_ fun records _ => ?_
    · refine unrefused_loadAssets.bind fun _ _ => unrefused_uniqueFrom.bind fun _ _ => .mapM ?_ _
      exact fun id => (Unrefused.orElse (by simp)).bind fun asset _ => .ok _
    · split
      · exact fun _ _ h => by cases h
      · exact .ok _

theorem unrefused_start (h : s.Sound) (hopen : s.shutdown = false)
    (hworkers : ∀ worker ∈ s.workers, worker.run ≠ run)
    (hfinished : ∀ row ∈ s.catalog.runs, row.id = run → row.state ≠ .running) {read : Catalog}
    {assets priority : List Uuid} {id : Uuid} {writes : Bool} :
    Unrefused run (s.startMeasurement pool method read assets priority id writes) := by
  refine unrefused_ordered.bind fun order _ => ?_
  split
  next active hactive =>
    -- the run in memory has a worker, so it is another one
    have hne : active.id ≠ run := by
      obtain ⟨hlength, hsome⟩ := (h.active active hactive).counted hopen
      obtain ⟨worker, hworker⟩ := List.exists_mem_of_length_pos (hlength ▸ hsome)
      obtain ⟨found, hfound, hid⟩ := h.crew worker hworker
      obtain rfl := Option.some.inj (hactive.symm.trans hfound)
      exact hid ▸ hworkers worker hworker
    have hconflict : ∀ current, s.catalog.loadRun active.id = .ok current →
        ∀ revision successors, conflict current ≠ .conflict run revision successors := by
      intro current hcurrent revision successors heq
      obtain ⟨row, -, hid, rfl⟩ := Catalog.loadRun_eq_ok hcurrent
      simp only [conflict, Catalog.view, LibraryError.conflict.injEq] at heq
      exact hne (hid.symm.trans heq.1)
    have hload : Unrefused run (s.catalog.loadRun active.id) := .orElse (by simp)
    unfold State.join
    split
    · refine Unrefused.bind (hload.bind fun current _ => .ok _) fun error herror => ?_
      obtain ⟨current, hcurrent, hsame⟩ := Result.bind_eq_ok.mp herror
      obtain rfl := Except.ok.inj hsame
      exact fun revision successors heq =>
        hconflict current hcurrent revision successors (Except.error.inj heq)
    · refine (Unrefused.written ?_).bind fun catalog _ => .ok _
      refine unrefused_uniqueFrom.bind fun _ _ => hload.bind fun current hcurrent => ?_
      refine (Unrefused.require (hconflict current hcurrent)).bind fun _ _ => ?_
      refine unrefused_loadAssets.bind fun _ _ => (Unrefused.require (by simp)).bind fun _ _ => ?_
      exact unrefused_dbCount.bind fun _ _ => unrefused_dbCount.bind fun _ _ => .ok _
  next =>
    refine (Unrefused.written ?_).bind fun catalog _ => .ok _
    refine (Unrefused.require (by simp)).bind fun _ _ => unrefused_uniqueFrom.bind fun _ _ => ?_
    refine (Unrefused.require (by simp)).bind fun _ _ => ?_
    split
    next running hrunning =>
      obtain ⟨row, hrow, hstate, rfl⟩ := Catalog.runningRun_eq_some hrunning
      intro revision successors heq
      simp only [conflict, Catalog.view, Except.error.injEq, LibraryError.conflict.injEq] at heq
      exact hfinished row hrow heq.1 hstate
    next =>
      refine unrefused_loadAssets.bind fun _ _ => unrefused_dbCount.bind fun _ _ => ?_
      refine unrefused_dbCount.bind fun _ _ => (Unrefused.require (by simp)).bind fun _ _ => ?_
      exact .ok _

/-! ## Valid records -/

theorem frameRecords_valid {assets : List Uuid} {records : List FrameRecordBasis}
    (h : c.frameRecords assets method = .ok records) {basis : FrameRecordBasis}
    (hbasis : basis ∈ records) (hvalid : basis.validity = .valid) :
    ∃ record ∈ c.records, basis.record = some record ∧ record.assetId = basis.asset.id ∧
      record.method = method ∧ Current c record := by
  simp only [Catalog.frameRecords, Result.bind_eq_ok] at h
  obtain ⟨_, -, _, -, h⟩ := h
  obtain ⟨id, -, hid⟩ := Result.mem_mapM h hbasis
  simp only [Result.bind_eq_ok, Result.pure_eq_ok] at hid
  obtain ⟨asset, hasset, rfl⟩ := hid
  obtain ⟨hmem, hassetId⟩ := Catalog.loadAsset_eq_ok hasset
  simp only [validity] at hvalid
  split at hvalid
  · cases hvalid
  next record hrecord =>
    split at hvalid
    next hall =>
      obtain ⟨hretired, hmethod, hmatches⟩ := hall
      have hfound := List.find?_some hrecord
      simp only [decide_eq_true_eq] at hfound
      exact ⟨record, List.mem_of_find?_eq_some hrecord, hrecord, hfound.1.trans hassetId.symm, hmethod,
        asset, hmem, hassetId.trans hfound.1.symm, hretired, hmatches⟩
    · cases hvalid

end

/-! ## A run accounts for each frame once -/

structure Accounts (pool : Nat) (method : MeasurementMethod) (events : List Event) (s : State) :
    Prop where
  oneRunning : (s.catalog.runs.filter fun row => row.state = .running).length ≤ 1
  joinedOnce : (events.flatMap Event.joined).Nodup
  settledOnce : (events.filterMap Event.settlement).Nodup
  settledJoined : ∀ key ∈ events.filterMap Event.settlement, key ∈ events.flatMap Event.joined
  counters : ∀ run current, s.catalog.loadRun run = .ok current →
    current.counters.requested = current.counters.alreadyCached + current.counters.measured +
      current.counters.failed + current.counters.unavailable + current.counters.remaining
  completed : ∀ run current, s.catalog.loadRun run = .ok current → current.state = .completed →
    current.counters.remaining = 0 ∧ .canceled run ∉ events ∧ .failed run ∉ events
  /-- No start is refused because of a run without a worker whose finish was written. -/
  unrefused : s.shutdown = false → ∀ run, (∀ worker ∈ s.workers, worker.run ≠ run) →
    (∀ row ∈ s.catalog.runs, row.id = run → row.state ≠ .running) →
    ∀ read assets priority id writes,
      Unrefused run (s.startMeasurement pool method read assets priority id writes)
  stored : ∀ e s', Step pool method s e s' → ∀ record ∈ s'.catalog.records,
    record ∉ s.catalog.records → Current s.catalog record
  valid : ∀ assets records, s.catalog.frameRecords assets method = .ok records →
    ∀ basis ∈ records, basis.validity = .valid → ∃ record, basis.record = some record ∧
      record.assetId = basis.asset.id ∧ record.method = method ∧ Current s.catalog record ∧
      .measured record.runId record.assetId (.read record.basis record.outcome) ∈ events

theorem length_le_one {α : Type} {as : List α} (hnodup : as.Nodup)
    (hsame : ∀ a ∈ as, ∀ b ∈ as, a = b) : as.length ≤ 1 := by
  cases as with
  | nil => exact Nat.zero_le 1
  | cons first rest =>
    cases rest with
    | nil => exact Nat.le_refl 1
    | cons second rest =>
      have heq := hsame first List.mem_cons_self second (List.mem_cons_of_mem _ List.mem_cons_self)
      exact absurd (heq ▸ List.mem_cons_self) (List.nodup_cons.mp hnodup).1

theorem accounts_run {pool : Nat} {method : MeasurementMethod} {s₀ s : State} {events : List Event}
    (h₀ : Initial s₀) (hrun : Run (Step pool method) s₀ events s) :
    Accounts pool method events s := by
  have h := accounted_run h₀ hrun
  have hsound := h.sound.catalog
  refine ⟨?_, h.joined ▸ hsound.keys, h.once, fun key hkey => ?_, fun run current hcurrent => ?_,
    fun run current hcurrent hcompleted => ?_, fun hopen run hworkers hfinished _ _ _ _ _ => ?_,
    fun e s' hstep record hrecord hnew => ?_, fun assets records hread basis hbasis hvalid => ?_⟩
  · refine length_le_one ((hsound.ids.of_map _).filter _) fun row hrow row' hrow' => ?_
    obtain ⟨hrow, hrunning⟩ := List.mem_filter.mp hrow
    obtain ⟨hrow', hrunning'⟩ := List.mem_filter.mp hrow'
    exact hsound.one row hrow row' hrow' (of_decide_eq_true hrunning) (of_decide_eq_true hrunning')
  · obtain ⟨row, hrow, rfl, -⟩ := h.settled key hkey
    exact h.joined ▸ List.mem_map_of_mem hrow
  · obtain ⟨row, hrow, -, rfl⟩ := Catalog.loadRun_eq_ok hcurrent
    exact hsound.counted row hrow
  · obtain ⟨row, hrow, hid, rfl⟩ := Catalog.loadRun_eq_ok hcurrent
    refine ⟨hsound.completed row hrow hcompleted, fun hcanceled => ?_, fun hfailed => ?_⟩
    · exact (h.stopped run (.inl hcanceled)).never row hrow hid hcompleted
    · exact (h.stopped run (.inr hfailed)).never row hrow hid hcompleted
  · exact unrefused_start h.sound hopen hworkers hfinished
  · exact ((follows h.sound hstep).records record hrecord).elim (fun hold => absurd hold hnew)
      fun hstored => hstored.1
  · obtain ⟨record, hrecord, hfound, hasset, hmethod, hcurrent⟩ :=
      frameRecords_valid hread hbasis hvalid
    exact ⟨record, hfound, hasset, hmethod, hcurrent, h.measured record hrecord⟩

/-! ## One frame -/

def starMethod : MeasurementMethod where
  name := "stars".toList
  version := 1

def oneFile : ObservationFingerprint where
  identity := {
    volume := {
      filesystem := "apfs", stableId := some "disk", fileIdsStable := true, case := .sensitive
      normalization := .sensitive }
    fileId := some "1" }
  sizeBytes := 2880
  modifiedNs := 5
  contentSha256 := none

def opened : State where
  catalog := {
    runs := [], queue := [], issues := [], records := []
    assets := [{ id := 1, fingerprint := oneFile, availability := .available }] }
  run := none
  abort := false
  shutdown := false
  workers := []

/-- The frame is queued. -/
theorem accounts_run_opened : ∃ s, opened.startMeasurement 1 starMethod opened.catalog [1] [] 7 true =
      .ok s ∧ Accounts 1 starMethod [.started (joinedBy opened s)] s ∧
      joinedBy opened s = [(7, 1)] := by
  have hstarted : ((opened.startMeasurement 1 starMethod opened.catalog [1] [] 7 true).toOption.map
      (joinedBy opened)) = some [(7, 1)] := by decide
  obtain ⟨s, hs, hjoined⟩ := Option.map_eq_some_iff.mp hstarted
  have hstart := Result.toOption_eq_some.mp hs
  exact ⟨s, hstart, accounts_run ⟨rfl, rfl, rfl, rfl, rfl⟩ (.cons (.start rfl hstart) (.nil s)),
    hjoined⟩

end PlateVault.Measurements
