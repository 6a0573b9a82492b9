import PlateVault.Measurements.Catalog

/-!
# Accounts of a run

What the counters of each run come to: the frames it was asked for are those already cached, those
settled in one of three ways and those that remain, after any writes in any order.
-/

namespace PlateVault.Measurements

open Library

def QueueRow.key (row : QueueRow) : Uuid × Uuid := (row.runId, row.assetId)

def QueueRow.settle (run asset : Uuid) (row : QueueRow) : QueueRow :=
  if row.runId = run ∧ row.assetId = asset then { row with settled := true } else row

@[simp] theorem QueueRow.settle_key {run asset : Uuid} {row : QueueRow} :
    (row.settle run asset).key = row.key := by
  unfold QueueRow.settle
  split <;> rfl

namespace Catalog

structure Sound (c : Catalog) : Prop where
  ids : (c.runs.map RunRow.id).Nodup
  one : ∀ row ∈ c.runs, ∀ row' ∈ c.runs, row.state = .running → row'.state = .running → row = row'
  keys : (c.queue.map QueueRow.key).Nodup
  queued : ∀ row ∈ c.queue, row.runId ∈ c.runs.map RunRow.id
  counted : ∀ row ∈ c.runs, row.requested =
    row.alreadyCached + row.measured + row.failed + row.unavailable + c.remaining row.id
  completed : ∀ row ∈ c.runs, row.state = .completed → c.remaining row.id = 0

theorem Sound.eq_of_id {c : Catalog} (h : c.Sound) {row row' : RunRow} (hrow : row ∈ c.runs)
    (hrow' : row' ∈ c.runs) (hid : row.id = row'.id) : row = row' :=
  List.inj_on_of_nodup_map h.ids hrow hrow' hid

/-! ## What a read finds -/

section

variable {c : Catalog} {id run asset : Uuid}

theorem loadRun_eq_ok {found : MeasurementRun} (h : c.loadRun id = .ok found) :
    ∃ row ∈ c.runs, row.id = id ∧ found = c.view row := by
  obtain ⟨row, hrow, rfl⟩ := Option.map_eq_some_iff.mp (Result.orElse_eq_ok.mp h)
  exact ⟨row, List.mem_of_find?_eq_some hrow, by simpa using List.find?_some hrow, rfl⟩

theorem runningRun_eq_none (h : c.runningRun = none) : ∀ row ∈ c.runs, row.state ≠ .running := by
  intro row hrow
  simpa using List.find?_eq_none.mp (Option.map_eq_none_iff.mp h) row hrow

theorem runningRun_eq_some {found : MeasurementRun} (h : c.runningRun = some found) :
    ∃ row ∈ c.runs, row.state = .running ∧ found = c.view row := by
  obtain ⟨row, hrow, rfl⟩ := Option.map_eq_some_iff.mp h
  exact ⟨row, List.mem_of_find?_eq_some hrow, by simpa using List.find?_some hrow, rfl⟩

theorem requireUnsettled_eq_ok {found : MeasurementRun}
    (h : c.requireUnsettled found asset = .ok ()) : ∃ row ∈ c.queue,
      row.key = (found.operationId, asset) ∧ row.settled = false := by
  unfold requireUnsettled at h
  split at h
  · cases h
  next row hrow =>
    have hkey := List.find?_some hrow
    simp only [Bool.and_eq_true, decide_eq_true_eq] at hkey
    refine ⟨row, List.mem_of_find?_eq_some hrow, Prod.ext hkey.1 hkey.2, ?_⟩
    simpa [Result.require_eq_ok] using h

theorem loadAsset_eq_ok {found : Asset} (h : c.loadAsset id = .ok found) :
    found ∈ c.assets ∧ found.id = id := by
  have hfound := Result.orElse_eq_ok.mp h
  exact ⟨List.mem_of_find?_eq_some hfound, by simpa using List.find?_some hfound⟩

end

theorem uniqueFrom_eq_ok {seen ids : List Uuid} (h : uniqueFrom seen ids = .ok ()) :
    ids.Nodup ∧ ∀ id ∈ ids, id ∉ seen := by
  induction ids generalizing seen with
  | nil => exact ⟨List.nodup_nil, fun _ hid => absurd hid List.not_mem_nil⟩
  | cons id ids ih =>
    obtain ⟨_, hfirst, hrest⟩ := Result.bind_eq_ok.mp h
    obtain ⟨hnodup, hnot⟩ := ih hrest
    have hid : id ∉ seen := by simpa [Result.require_eq_ok] using hfirst
    refine ⟨List.nodup_cons.mpr ⟨fun hmem => hnot id hmem List.mem_cons_self, hnodup⟩, ?_⟩
    intro other hother
    rcases List.mem_cons.mp hother with rfl | hother
    · exact hid
    · exact fun hseen => hnot other hother (List.mem_cons_of_mem _ hseen)

theorem unique_eq_ok {ids : List Uuid} (h : unique ids = .ok ()) : ids.Nodup :=
  (uniqueFrom_eq_ok h).1

/-! ## What a write leaves -/

structure Counts (row row' : RunRow) : Prop where
  id : row'.id = row.id
  state : row'.state = row.state
  requested : row'.requested = row.requested
  alreadyCached : row'.alreadyCached = row.alreadyCached
  one : row'.measured + row'.failed + row'.unavailable =
    row.measured + row.failed + row.unavailable + 1

structure Settled (c c' : Catalog) (run asset : Uuid) : Prop where
  row : ∃ row ∈ c.queue, row.key = (run, asset) ∧ row.settled = false
  running : ∃ row ∈ c.runs, row.id = run ∧ row.state = .running
  runs : ∃ f : RunRow → RunRow, (∀ row, Counts row (f row)) ∧
    c'.runs = c.runs.map fun row => if row.id = run then f row else row
  queue : c'.queue = c.queue.map (QueueRow.settle run asset)

/-- A write that put a run first on record, with its queue. -/
structure Begun (c c' : Catalog) (run : Uuid) (queued : List Uuid) : Prop where
  none : ∀ row ∈ c.runs, row.state ≠ .running
  fresh : run ∉ c.runs.map RunRow.id
  once : queued.Nodup
  runs : ∃ row, row.id = run ∧ row.state = .running ∧ row.measured = 0 ∧ row.failed = 0 ∧
    row.unavailable = 0 ∧ row.requested = row.alreadyCached + queued.length ∧
    c'.runs = c.runs ++ [row]
  queue : c'.queue = (c.enqueue run queued).queue
  records : c'.records = c.records

structure Extended (c c' : Catalog) (run : Uuid) (fresh : List Uuid) : Prop where
  running : ∃ row ∈ c.runs, row.id = run ∧ row.state = .running
  once : fresh.Nodup
  new : ∀ asset ∈ fresh, ∀ row ∈ c.queue, row.key ≠ (run, asset)
  runs : ∃ (f : RunRow → RunRow) (cached : Nat), (∀ row, (f row).id = row.id ∧
      (f row).state = row.state ∧ (f row).requested = row.requested + fresh.length + cached ∧
      (f row).alreadyCached = row.alreadyCached + cached ∧ (f row).measured = row.measured ∧
      (f row).failed = row.failed ∧ (f row).unavailable = row.unavailable) ∧
    c'.runs = c.runs.map fun row => if row.id = run then f row else row
  queue : c'.queue = (c.enqueue run fresh).queue
  records : c'.records = c.records

/-- A write that moved runs on to `state`. -/
structure Ended (c c' : Catalog) (p : RunRow → Bool) (state : RunState) : Prop where
  running : ∀ row ∈ c.runs, p row = true → row.state = .running
  finished : state ≠ .running
  none : state = .completed → ∀ row ∈ c.runs, p row = true → c.remaining row.id = 0
  runs : c'.runs = c.runs.map fun row =>
    if p row then { row with state, revision := row.revision + 1 } else row
  queue : c'.queue = c.queue
  records : c'.records = c.records

section

variable {c c' : Catalog} {id run asset : Uuid}

theorem begun (h : c.beginMeasurementRun id method queued cached = .ok c') :
    Begun c c' id queued := by
  simp only [beginMeasurementRun, Result.bind_eq_ok] at h
  obtain ⟨_, -, _, honce, _, -, h⟩ := h
  split at h
  · cases h
  next hnone =>
    simp only [Result.bind_eq_ok, Result.require_eq_ok, Result.pure_eq_ok] at h
    obtain ⟨_, -, _, -, _, -, _, hfresh, rfl⟩ := h
    refine ⟨runningRun_eq_none hnone, ?_, unique_eq_ok honce, ?_, rfl, rfl⟩
    · rintro hmem
      obtain ⟨row, hrow, heq⟩ := List.mem_map.mp hmem
      have hne := List.all_eq_true.mp hfresh row hrow
      simp [heq] at hne
    · exact ⟨_, rfl, rfl, rfl, rfl, rfl, Nat.add_comm _ _, rfl⟩

theorem extended (h : c.extendMeasurementRun run queued cached = .ok c') :
    Extended c c' run (queued.filter fun id => !(c.runAssets run).contains id) := by
  simp only [extendMeasurementRun, requireRunning, Result.bind_eq_ok, Result.require_eq_ok,
    Result.pure_eq_ok] at h
  obtain ⟨_, honce, current, hcurrent, _, hrunning, _, -, _, -, _, -, _, -, rfl⟩ := h
  obtain ⟨row, hrow, hid, rfl⟩ := loadRun_eq_ok hcurrent
  refine ⟨⟨row, hrow, hid, of_decide_eq_true hrunning⟩, (unique_eq_ok honce).filter _, ?_, ?_,
    rfl, rfl⟩
  · intro asset hasset other hother hkey
    have hnot := (List.mem_filter.mp hasset).2
    have hheld : asset ∈ c.runAssets run := by
      refine List.mem_map.mpr ⟨other, List.mem_filter.mpr ⟨hother, ?_⟩, congrArg Prod.snd hkey⟩
      exact decide_eq_true (congrArg Prod.fst hkey)
    simp [hheld] at hnot
  · exact ⟨fun row => { row with
        requested := row.requested +
          ((queued.filter fun id => !(c.runAssets run).contains id).length + cached)
        alreadyCached := row.alreadyCached + cached
        revision := row.revision + 1 }, cached,
      fun row => ⟨rfl, rfl, (Nat.add_assoc _ _ _).symm, rfl, rfl, rfl, rfl⟩, rfl⟩

theorem ended {state : RunState} (h : c.finishMeasurementRun run state = .ok c') (hc : c.Sound) :
    Ended c c' (fun row => row.id = run) state := by
  simp only [finishMeasurementRun, requireRunning, Result.bind_eq_ok, Result.require_eq_ok,
    Result.pure_eq_ok] at h
  obtain ⟨_, hstate, current, hcurrent, _, hrunning, _, hremaining, rfl⟩ := h
  obtain ⟨row, hrow, rfl, rfl⟩ := loadRun_eq_ok hcurrent
  have hsame : ∀ other ∈ c.runs, decide (other.id = row.id) = true → other = row :=
    fun other hother hid => hc.eq_of_id hother hrow (of_decide_eq_true hid)
  refine ⟨fun other hother hid => ?_, ?_, fun hcompleted other hother hid => ?_, ?_, rfl, rfl⟩
  · rw [hsame other hother hid]
    exact of_decide_eq_true hrunning
  · rintro rfl
    simp at hstate
  · rw [hsame other hother hid]
    simpa [hcompleted, view] using hremaining
  · simp [updateRun]

theorem ended_recovered : Ended c c.recoverInterrupted (fun row => row.state = .running)
    .interrupted := by
  refine ⟨fun row _ h => of_decide_eq_true h, by simp, by simp, ?_, rfl, rfl⟩
  simp only [recoverInterrupted, decide_eq_true_eq]

theorem updateRun_updateRun {f g : RunRow → RunRow} (hf : ∀ row, (f row).id = row.id) :
    ((c.updateRun run f).updateRun run g).runs =
      c.runs.map fun row => if row.id = run then g (f row) else row := by
  simp only [updateRun, List.map_map]
  refine List.map_congr_left fun row _ => ?_
  by_cases hid : row.id = run
  · simp [hid, hf]
  · simp [hid]

theorem settled_addIssue {issue : RunIssue}
    (hrow : ∃ row ∈ c.queue, row.key = (run, asset) ∧ row.settled = false)
    (hrunning : ∃ row ∈ c.runs, row.id = run ∧ row.state = .running) :
    Settled c ((c.addIssue run issue).settle run asset) run asset := by
  refine ⟨hrow, hrunning, ⟨fun row => { row with
    unavailable := row.unavailable + 1, revision := row.revision + 1 }, fun row =>
      ⟨rfl, rfl, rfl, rfl, rfl⟩, ?_⟩, rfl⟩
  exact updateRun_updateRun (c := { c with issues := c.issues ++ [(run, issue)] })
    fun row => rfl

theorem settled_storeRecord {record : MeasurementRecord} (hrun : record.runId = run)
    (hrow : ∃ row ∈ c.queue, row.key = (run, asset) ∧ row.settled = false)
    (hrunning : ∃ row ∈ c.runs, row.id = run ∧ row.state = .running) :
    Settled c ((c.storeRecord record).settle run asset) run asset := by
  subst hrun
  refine ⟨hrow, hrunning, ⟨fun row =>
    let counted : RunRow := record.outcome.casesOn { row with measured := row.measured + 1 }
      { row with failed := row.failed + 1 }
    { counted with revision := counted.revision + 1 }, fun row => ?_, ?_⟩, rfl⟩
  · cases record.outcome with
    | measured => exact ⟨rfl, rfl, rfl, rfl, by simp only; omega⟩
    | failed => exact ⟨rfl, rfl, rfl, rfl, by simp only; omega⟩
  · refine (updateRun_updateRun (c := { c with records := c.others record ++ [record] })
      fun row => ?_).trans ?_
    · cases record.outcome <;> rfl
    · cases record.outcome <;> rfl

/-- What a settling call does: the record is stored only where the asset is not Retired and its
recorded observation matches the bytes measured. -/
theorem recorded {record : MeasurementRecord} (h : c.recordMeasurement run record = .ok c') :
    Settled c c' run record.assetId ∧ (c'.records = c.records ∨
      c'.records = c.others record ++ [record] ∧ record.runId = run ∧
        ∃ asset ∈ c.assets, asset.id = record.assetId ∧ asset.availability ≠ .retired ∧
          fingerprintMatches asset.fingerprint record.basis = true) := by
  simp only [recordMeasurement, requireRunning, Result.bind_eq_ok, Result.require_eq_ok] at h
  obtain ⟨_, hrun, current, hcurrent, _, hrunning, _, -, _, hopen, asset, hasset, h⟩ := h
  obtain ⟨row, hrow, hid, rfl⟩ := loadRun_eq_ok hcurrent
  obtain ⟨other, hother, hkey, hunsettled⟩ := requireUnsettled_eq_ok hopen
  obtain ⟨hmem, hassetId⟩ := loadAsset_eq_ok hasset
  have hqueued : ∃ row ∈ c.queue, row.key = (run, record.assetId) ∧ row.settled = false :=
    ⟨other, hother, hkey.trans (Prod.ext hid rfl), hunsettled⟩
  have hruns : ∃ row ∈ c.runs, row.id = run ∧ row.state = .running :=
    ⟨row, hrow, hid, of_decide_eq_true hrunning⟩
  split at h
  · cases h
    exact ⟨settled_addIssue hqueued hruns, .inl rfl⟩
  next hretired =>
    split at h
    next hmatches =>
      simp only [Result.bind_eq_ok, Result.pure_eq_ok] at h
      obtain ⟨_, -, rfl⟩ := h
      have hrunId : record.runId = run := of_decide_eq_true hrun
      exact ⟨settled_storeRecord hrunId hqueued hruns,
        .inr ⟨rfl, hrunId, asset, hmem, hassetId, hretired, hmatches⟩⟩
    · cases h
      exact ⟨settled_addIssue hqueued hruns, .inl rfl⟩

theorem recorded_issue {issue : RunIssue} (h : c.recordRunIssue run issue = .ok c') :
    Settled c c' run issue.assetId ∧ c'.records = c.records := by
  simp only [recordRunIssue, requireRunning, Result.bind_eq_ok, Result.require_eq_ok,
    Result.pure_eq_ok] at h
  obtain ⟨_, -, current, hcurrent, _, hrunning, _, hopen, rfl⟩ := h
  obtain ⟨row, hrow, hid, rfl⟩ := loadRun_eq_ok hcurrent
  obtain ⟨other, hother, hkey, hunsettled⟩ := requireUnsettled_eq_ok hopen
  exact ⟨settled_addIssue ⟨other, hother, hkey.trans (Prod.ext hid rfl), hunsettled⟩
    ⟨row, hrow, hid, of_decide_eq_true hrunning⟩, rfl⟩

end

/-! ## The accounts after a write -/

section

variable {c c' : Catalog} {run asset : Uuid}

theorem remaining_congr (hqueue : c'.queue = c.queue) (id : Uuid) :
    c'.remaining id = c.remaining id := by rw [remaining, remaining, hqueue]

theorem remaining_enqueue {assets : List Uuid} (hqueue : c'.queue = (c.enqueue run assets).queue)
    (id : Uuid) : c'.remaining id = c.remaining id + if id = run then assets.length else 0 := by
  rw [remaining, remaining, hqueue, enqueue, List.filter_append, List.length_append, List.filter_map,
    List.length_map]
  congr 1
  by_cases hid : id = run
  · subst hid
    simp [Function.comp_def]
  · simp [Function.comp_def, hid, Ne.symm hid]

theorem Settled.remaining (h : Settled c c' run asset) (hkeys : (c.queue.map QueueRow.key).Nodup)
    (id : Uuid) : c.remaining id = c'.remaining id + if id = run then 1 else 0 := by
  obtain ⟨row, hrow, hkey, hopen⟩ := h.row
  obtain ⟨before, after, hsplit⟩ := List.append_of_mem hrow
  have hothers : ∀ other, other ∈ before ∨ other ∈ after → other.settle run asset = other := by
    intro other hother
    rw [hsplit, List.map_append, List.map_cons, List.nodup_middle, List.nodup_cons] at hkeys
    refine if_neg fun hsame => hkeys.1 ?_
    rw [hkey, ← List.map_append]
    exact List.mem_map.mpr ⟨other, List.mem_append.mpr hother, Prod.ext hsame.1 hsame.2⟩
  have hbefore : before.map (QueueRow.settle run asset) = before :=
    (List.map_congr_left fun other hother => hothers other (.inl hother)).trans (List.map_id _)
  have hafter : after.map (QueueRow.settle run asset) = after :=
    (List.map_congr_left fun other hother => hothers other (.inr hother)).trans (List.map_id _)
  have hrun : row.runId = run := congrArg Prod.fst hkey
  have hasset : row.assetId = asset := congrArg Prod.snd hkey
  have hsettled : row.settle run asset = { row with settled := true } := if_pos ⟨hrun, hasset⟩
  rw [Catalog.remaining, Catalog.remaining, h.queue, hsplit, List.map_append, List.map_cons, hbefore,
    hafter, hsettled]
  by_cases hid : id = run
  · simp [hrun, hopen, hid]
    omega
  · simp [hrun, hid, Ne.symm hid]

theorem map_id_of {f : RunRow → RunRow} (hf : ∀ row, (f row).id = row.id) :
    (c.runs.map fun row => if row.id = run then f row else row).map RunRow.id =
      c.runs.map RunRow.id := by
  rw [List.map_map]
  refine List.map_congr_left fun row _ => ?_
  simp only [Function.comp_apply]
  split
  · exact hf row
  · rfl

theorem mem_updated {f : RunRow → RunRow}
    (hruns : c'.runs = c.runs.map fun row => if row.id = run then f row else row) {row : RunRow}
    (hrow : row ∈ c'.runs) : ∃ old ∈ c.runs,
      (old.id = run ∧ row = f old) ∨ (old.id ≠ run ∧ row = old) := by
  rw [hruns] at hrow
  obtain ⟨old, hold, rfl⟩ := List.mem_map.mp hrow
  by_cases hid : old.id = run
  · exact ⟨old, hold, .inl ⟨hid, if_pos hid⟩⟩
  · exact ⟨old, hold, .inr ⟨hid, if_neg hid⟩⟩

/-- The runs of two catalogs are the same ones in the same states. -/
structure SameStates (c c' : Catalog) : Prop where
  back : ∀ row' ∈ c'.runs, ∃ row ∈ c.runs, row.id = row'.id ∧ row.state = row'.state
  forth : ∀ row ∈ c.runs, ∃ row' ∈ c'.runs, row'.id = row.id ∧ row'.state = row.state

theorem SameStates.of_eq (h : c'.runs = c.runs) : SameStates c c' :=
  ⟨fun row hrow => ⟨row, h ▸ hrow, rfl, rfl⟩, fun row hrow => ⟨row, h ▸ hrow, rfl, rfl⟩⟩

theorem sameStates_updated {f : RunRow → RunRow}
    (hf : ∀ row, (f row).id = row.id ∧ (f row).state = row.state)
    (hruns : c'.runs = c.runs.map fun row => if row.id = run then f row else row) :
    SameStates c c' := by
  refine ⟨fun row hrow => ?_, fun row hrow => ⟨if row.id = run then f row else row, ?_, ?_⟩⟩
  · obtain ⟨old, hold, ⟨-, rfl⟩ | ⟨-, rfl⟩⟩ := mem_updated hruns hrow
    · exact ⟨old, hold, (hf old).1.symm, (hf old).2.symm⟩
    · exact ⟨_, hold, rfl, rfl⟩
  · rw [hruns]
    exact List.mem_map_of_mem hrow
  · split
    · exact hf row
    · exact ⟨rfl, rfl⟩

theorem Settled.sameStates (h : Settled c c' run asset) : SameStates c c' := by
  obtain ⟨f, hf, hruns⟩ := h.runs
  exact sameStates_updated (fun row => ⟨(hf row).id, (hf row).state⟩) hruns

theorem Settled.keys (h : Settled c c' run asset) :
    c'.queue.map QueueRow.key = c.queue.map QueueRow.key := by
  rw [h.queue, List.map_map]
  exact List.map_congr_left fun row _ => QueueRow.settle_key

theorem Extended.sameStates {fresh : List Uuid} (h : Extended c c' run fresh) : SameStates c c' := by
  obtain ⟨f, cached, hf, hruns⟩ := h.runs
  exact sameStates_updated (fun row => ⟨(hf row).1, (hf row).2.1⟩) hruns

theorem Settled.sound (h : Settled c c' run asset) (hc : c.Sound) : c'.Sound := by
  obtain ⟨f, hf, hruns⟩ := h.runs
  have hremaining := h.remaining hc.keys
  have hids : c'.runs.map RunRow.id = c.runs.map RunRow.id := by
    rw [hruns, map_id_of fun row => (hf row).id]
  have hstate := h.sameStates.back
  refine ⟨hids ▸ hc.ids, ?_, ?_, ?_, ?_, ?_⟩
  · intro row hrow row' hrow' hrunning hrunning'
    obtain ⟨old, hold, hid, hst⟩ := hstate row hrow
    obtain ⟨old', hold', hid', hst'⟩ := hstate row' hrow'
    have hsame := hc.one old hold old' hold' (hst.trans hrunning) (hst'.trans hrunning')
    refine List.inj_on_of_nodup_map (hids ▸ hc.ids) hrow hrow' ?_
    rw [← hid, ← hid', hsame]
  · exact h.keys ▸ hc.keys
  · intro row hrow
    rw [h.queue] at hrow
    obtain ⟨old, hold, rfl⟩ := List.mem_map.mp hrow
    have hrun : (old.settle run asset).runId = old.runId := congrArg Prod.fst QueueRow.settle_key
    rw [hids, hrun]
    exact hc.queued old hold
  · intro row hrow
    obtain ⟨old, hold, ⟨rfl, rfl⟩ | ⟨hne, rfl⟩⟩ := mem_updated hruns hrow
    · have hcounts := hf old
      have hbefore := hc.counted old hold
      have hone := hremaining old.id
      rw [if_pos rfl] at hone
      rw [hcounts.requested, hcounts.alreadyCached, hcounts.id]
      have := hcounts.one
      omega
    · have hsame := hremaining row.id
      rw [if_neg hne, Nat.add_zero] at hsame
      rw [← hsame]
      exact hc.counted row hold
  · intro row hrow hcompleted
    obtain ⟨old, hold, hid, hst⟩ := hstate row hrow
    have hzero := hc.completed old hold (hst.trans hcompleted)
    have hle := hremaining old.id
    rw [← hid]
    omega

theorem Begun.sound {queued : List Uuid} (h : Begun c c' run queued) (hc : c.Sound) : c'.Sound := by
  obtain ⟨new, rfl, hstate, hmeasured, hfailed, hunavailable, hrequested, hruns⟩ := h.runs
  have hremaining := remaining_enqueue h.queue
  have hnone : c.remaining new.id = 0 := by
    rw [remaining, List.length_eq_zero_iff, List.filter_eq_nil_iff]
    intro row hrow
    have hne : row.runId ≠ new.id := fun heq => h.fresh (heq ▸ hc.queued row hrow)
    simp [hne]
  have hold : ∀ row ∈ c.runs, row.id ≠ new.id := fun row hrow heq =>
    h.fresh (heq ▸ List.mem_map_of_mem hrow)
  refine ⟨?_, ?_, ?_, ?_, ?_, ?_⟩
  · rw [hruns, List.map_append, List.map_singleton]
    refine List.nodup_append.mpr ⟨hc.ids, List.nodup_singleton _, ?_⟩
    rintro id hid _ hlast rfl
    exact h.fresh (List.mem_singleton.mp hlast ▸ hid)
  · intro row hrow row' hrow' hrunning hrunning'
    rw [hruns, List.mem_append, List.mem_singleton] at hrow hrow'
    rcases hrow with hrow | rfl
    · exact absurd hrunning (h.none row hrow)
    · rcases hrow' with hrow' | rfl
      · exact absurd hrunning' (h.none row' hrow')
      · rfl
  · rw [h.queue, enqueue, List.map_append, List.map_map]
    refine List.nodup_append.mpr ⟨hc.keys, ?_, ?_⟩
    · exact h.once.map fun left right heq => congrArg Prod.snd heq
    · rintro key hkey _ hnew rfl
      obtain ⟨row, hrow, rfl⟩ := List.mem_map.mp hkey
      obtain ⟨asset, -, heq⟩ := List.mem_map.mp hnew
      have hid : new.id = row.runId := congrArg Prod.fst heq
      exact h.fresh (hid ▸ hc.queued row hrow)
  · intro row hrow
    rw [hruns, List.map_append, List.mem_append]
    rw [h.queue, enqueue, List.mem_append] at hrow
    rcases hrow with hrow | hrow
    · exact .inl (hc.queued row hrow)
    · obtain ⟨asset, -, rfl⟩ := List.mem_map.mp hrow
      exact .inr (by simp)
  · intro row hrow
    rw [hruns, List.mem_append, List.mem_singleton] at hrow
    rcases hrow with hrow | rfl
    · rw [hremaining, if_neg (hold row hrow), Nat.add_zero]
      exact hc.counted row hrow
    · rw [hremaining, if_pos rfl, hnone, hmeasured, hfailed, hunavailable, hrequested]
      omega
  · intro row hrow hcompleted
    rw [hruns, List.mem_append, List.mem_singleton] at hrow
    rcases hrow with hrow | rfl
    · rw [hremaining, if_neg (hold row hrow), Nat.add_zero]
      exact hc.completed row hrow hcompleted
    · rw [hstate] at hcompleted
      cases hcompleted

theorem Extended.sound {fresh : List Uuid} (h : Extended c c' run fresh) (hc : c.Sound) :
    c'.Sound := by
  obtain ⟨f, cached, hf, hruns⟩ := h.runs
  obtain ⟨running, hrunning, hid, hstate⟩ := h.running
  have hremaining := remaining_enqueue h.queue
  have hids : c'.runs.map RunRow.id = c.runs.map RunRow.id := by
    rw [hruns, map_id_of fun row => (hf row).1]
  have hstates := h.sameStates.back
  refine ⟨hids ▸ hc.ids, ?_, ?_, ?_, ?_, ?_⟩
  · intro row hrow row' hrow' hrun hrun'
    obtain ⟨old, hold, hid, hst⟩ := hstates row hrow
    obtain ⟨old', hold', hid', hst'⟩ := hstates row' hrow'
    have hsame := hc.one old hold old' hold' (hst.trans hrun) (hst'.trans hrun')
    refine List.inj_on_of_nodup_map (hids ▸ hc.ids) hrow hrow' ?_
    rw [← hid, ← hid', hsame]
  · rw [h.queue, enqueue, List.map_append, List.map_map]
    refine List.nodup_append.mpr ⟨hc.keys, ?_, ?_⟩
    · exact h.once.map fun left right heq => congrArg Prod.snd heq
    · rintro key hkey _ hnew rfl
      obtain ⟨row, hrow, rfl⟩ := List.mem_map.mp hkey
      obtain ⟨asset, hasset, heq⟩ := List.mem_map.mp hnew
      exact h.new asset hasset row hrow heq.symm
  · intro row hrow
    rw [hids]
    rw [h.queue, enqueue, List.mem_append] at hrow
    rcases hrow with hrow | hrow
    · exact hc.queued row hrow
    · obtain ⟨asset, -, rfl⟩ := List.mem_map.mp hrow
      exact hid ▸ List.mem_map_of_mem hrunning
  · intro row hrow
    obtain ⟨old, hold, ⟨rfl, rfl⟩ | ⟨hne, rfl⟩⟩ := mem_updated hruns hrow
    · obtain ⟨hfid, -, hrequested, hcached, hmeasured, hfailed, hunavailable⟩ := hf old
      have hbefore := hc.counted old hold
      rw [hfid, hremaining, if_pos rfl, hrequested, hcached, hmeasured, hfailed, hunavailable]
      omega
    · rw [hremaining, if_neg hne, Nat.add_zero]
      exact hc.counted row hold
  · intro row hrow hcompleted
    obtain ⟨old, hold, hsame, hst⟩ := hstates row hrow
    have hne : row.id ≠ run := by
      rintro rfl
      have heq := hc.eq_of_id hold hrunning (hsame.trans hid.symm)
      rw [heq] at hst
      rw [← hst, hstate] at hcompleted
      cases hcompleted
    rw [hremaining, if_neg hne, Nat.add_zero, ← hsame]
    exact hc.completed old hold (hst.trans hcompleted)

theorem Ended.ids {p : RunRow → Bool} {state : RunState} (h : Ended c c' p state) :
    c'.runs.map RunRow.id = c.runs.map RunRow.id := by
  rw [h.runs, List.map_map]
  refine List.map_congr_left fun row _ => ?_
  simp only [Function.comp_apply]
  split <;> rfl

theorem Ended.mem_runs {p : RunRow → Bool} {state : RunState} (h : Ended c c' p state) {row : RunRow}
    (hrow : row ∈ c'.runs) : ∃ old ∈ c.runs, row = old ∨
      (p old = true ∧ row = { old with state, revision := old.revision + 1 }) := by
  rw [h.runs] at hrow
  obtain ⟨old, hold, rfl⟩ := List.mem_map.mp hrow
  by_cases hp : p old = true
  · exact ⟨old, hold, .inr ⟨hp, if_pos hp⟩⟩
  · exact ⟨old, hold, .inl (if_neg hp)⟩

theorem Ended.sound {p : RunRow → Bool} {state : RunState} (h : Ended c c' p state) (hc : c.Sound) :
    c'.Sound := by
  have hids := h.ids
  have hrows : ∀ row ∈ c'.runs, ∃ old ∈ c.runs, row = old ∨
      (p old = true ∧ row = { old with state, revision := old.revision + 1 }) :=
    fun _ hrow => h.mem_runs hrow
  have hremaining := remaining_congr h.queue
  have hkept : ∀ row ∈ c'.runs, row.state = .running → row ∈ c.runs := by
    intro row hrow hrunning
    obtain ⟨old, hold, rfl | ⟨-, rfl⟩⟩ := hrows row hrow
    · exact hold
    · exact absurd hrunning h.finished
  refine ⟨hids ▸ hc.ids, ?_, h.queue ▸ hc.keys, ?_, ?_, ?_⟩
  · intro row hrow row' hrow' hrunning hrunning'
    exact hc.one row (hkept row hrow hrunning) row' (hkept row' hrow' hrunning') hrunning hrunning'
  · intro row hrow
    rw [hids]
    exact hc.queued row (h.queue ▸ hrow)
  · intro row hrow
    obtain ⟨old, hold, rfl | ⟨-, rfl⟩⟩ := hrows row hrow
    · rw [hremaining]
      exact hc.counted row hold
    · simp only [hremaining]
      exact hc.counted old hold
  · intro row hrow hcompleted
    obtain ⟨old, hold, rfl | ⟨hp, rfl⟩⟩ := hrows row hrow
    · rw [hremaining]
      exact hc.completed row hold hcompleted
    · simp only [hremaining]
      exact h.none hcompleted old hold hp

theorem Sound.congr (hc : c.Sound) (hruns : c'.runs = c.runs) (hqueue : c'.queue = c.queue) :
    c'.Sound := by
  refine ⟨hruns ▸ hc.ids, hruns ▸ hc.one, hqueue ▸ hc.keys, ?_, ?_, ?_⟩
  · rw [hruns, hqueue]
    exact hc.queued
  · simp only [remaining_congr hqueue, hruns]
    exact hc.counted
  · simp only [remaining_congr hqueue, hruns]
    exact hc.completed

end

end Catalog

end PlateVault.Measurements
