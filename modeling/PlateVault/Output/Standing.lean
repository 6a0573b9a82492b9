import PlateVault.Output.Calls

/-!
# What stands in every reachable state

At most one operation is active, every copy in flight holds its Project's active Copy to Output and a
path that no row has, and a pass whose basis is older than a finished copy counts too few copies.
-/

namespace PlateVault.Output

open Result (bind_eq_ok require_eq_ok)

/-! ## Operations -/

theorem copyCount_append (c : Catalog) (id : Uuid) (kind : ProjectOperationKind) :
    ({ c with operations := c.operations ++ [{ id, kind, active := true }] } : Catalog).copyCount =
      if kind = .copyToOutput then (c.copyCount.1 + 1, true) else c.copyCount := by
  unfold Catalog.copyCount
  by_cases hkind : kind = .copyToOutput
  · simp [hkind]
  · simp [hkind]

/-- An operation as it stands once `id` settled. -/
def afterSettle (id : Uuid) (operation : ProjectOperation) : ProjectOperation :=
  if operation.id = id && operation.active then { operation with active := false } else operation

theorem afterSettle_kind (id : Uuid) (operation : ProjectOperation) :
    (afterSettle id operation).kind = operation.kind := by
  unfold afterSettle
  split
  · rfl
  · rfl

theorem active_of_afterSettle {id : Uuid} {operation : ProjectOperation}
    (h : (afterSettle id operation).active = true) :
    operation.active = true ∧ afterSettle id operation = operation := by
  unfold afterSettle at h ⊢
  split
  · rename_i hsettled
    rw [if_pos hsettled] at h
    cases h
  · rename_i hkept
    rw [if_neg hkept] at h
    exact ⟨h, rfl⟩

theorem afterSettle_of_ne {id : Uuid} {operation : ProjectOperation} (h : operation.id ≠ id) :
    afterSettle id operation = operation := by
  unfold afterSettle
  rw [if_neg]
  simp [h]

theorem copyCount_settle (c : Catalog) (id : Uuid) :
    ({ c with operations := c.operations.map (afterSettle id) } : Catalog).copyCount.1 =
        c.copyCount.1 ∧
      (({ c with operations := c.operations.map (afterSettle id) } : Catalog).copyCount.2 = true →
        c.copyCount.2 = true) := by
  have hfilter : (c.operations.map (afterSettle id)).filter (fun operation =>
      operation.kind = .copyToOutput) =
      (c.operations.filter fun operation => operation.kind = .copyToOutput).map (afterSettle id) := by
    rw [List.filter_map]
    congr 1
    apply List.filter_congr
    intro operation _
    simp [afterSettle_kind]
  unfold Catalog.copyCount
  simp only [hfilter]
  refine ⟨List.length_map _, fun h => ?_⟩
  obtain ⟨operation, hoperation, hactive⟩ := List.any_eq_true.mp h
  obtain ⟨old, hold, rfl⟩ := List.mem_map.mp hoperation
  exact List.any_eq_true.mpr ⟨old, hold, (active_of_afterSettle hactive).1⟩

theorem copying_of_active {c : Catalog} {operation : ProjectOperation}
    (hmem : operation ∈ c.operations) (hkind : operation.kind = .copyToOutput)
    (hactive : operation.active = true) : c.copyCount.2 = true :=
  List.any_eq_true.mpr ⟨operation, List.mem_filter.mpr ⟨hmem, decide_eq_true hkind⟩, hactive⟩

/-! ## Rows -/

theorem validate_path {observation : OutputObservation} (h : observation.validate = .ok ()) :
    ∃ parts, relativePath observation.path = .ok parts := by
  obtain ⟨names, hnames, -⟩ := bind_eq_ok.mp h
  obtain ⟨parts, hparts, -⟩ := bind_eq_ok.mp hnames
  exact ⟨parts, hparts⟩

theorem missed_eq_some {unknown : List (List Component)} {old row : OutputObservation}
    (h : missed unknown old = some row) : row = { old with state := .unreadable } := by
  unfold missed at h
  split at h
  · exact (Option.some.inj h).symm
  · cases h

theorem merged_row {outputs : Text → Option OutputObservation} {files : List ScannedOutput}
    {unknown : List (List Component)} {path : Text} {row : OutputObservation}
    (h : merged outputs files unknown path = some row) :
    (∃ old, outputs path = some old ∧ row = { old with state := .unreadable } ∧
      ∀ file ∈ files, file.path ≠ path) ∨
    ∃ file ∈ files, file.path = path ∧ row = observed (outputs path) file := by
  unfold merged at h
  cases hfind : files.reverse.find? fun file => file.path = path with
  | some file =>
    rw [hfind] at h
    refine .inr ⟨file, List.mem_reverse.mp (List.mem_of_find?_eq_some hfind), ?_,
      (Option.some.inj h).symm⟩
    simpa using List.find?_some hfind
  | none =>
    rw [hfind] at h
    obtain ⟨old, hold, hmissed⟩ := Option.bind_eq_some_iff.mp h
    refine .inl ⟨old, hold, missed_eq_some hmissed, fun file hfile => ?_⟩
    simpa using List.find?_eq_none.mp hfind file (List.mem_reverse.mpr hfile)

theorem applyScan_row {outputs outputs' : Text → Option OutputObservation} {folder : OutputFolder}
    (h : applyScan outputs folder = .ok outputs') {path : Text} {row : OutputObservation}
    (hrow : outputs' path = some row) :
    (∃ old, outputs path = some old ∧ row = { old with state := .unreadable } ∧
      ∀ fingerprint, ¬ FoundAs folder path fingerprint) ∨
    ∃ files unreadable file, folder = .walked files unreadable ∧ file ∈ files ∧ file.path = path ∧
      row = observed (outputs path) file ∧ row.validate = .ok () := by
  cases folder with
  | unreadable =>
    cases h
    obtain ⟨old, hold, hrow⟩ := Option.map_eq_some_iff.mp hrow
    refine .inl ⟨old, hold, hrow.symm, ?_⟩
    rintro fingerprint ⟨files, unreadable, hfolder, -⟩
    cases hfolder
  | absent =>
    cases h
    rcases merged_row hrow with ⟨old, hold, hstate, -⟩ | ⟨file, hfile, -⟩
    · refine .inl ⟨old, hold, hstate, ?_⟩
      rintro fingerprint ⟨files, unreadable, hfolder, -⟩
      cases hfolder
    · cases hfile
  | walked files unreadable =>
    obtain ⟨unknown, -, h₁⟩ := bind_eq_ok.mp h
    obtain ⟨_, hvalid, h₂⟩ := bind_eq_ok.mp h₁
    cases h₂
    rcases merged_row hrow with ⟨old, hold, hstate, hmissing⟩ | ⟨file, hfile, rfl, rfl⟩
    · refine .inl ⟨old, hold, hstate, ?_⟩
      rintro fingerprint ⟨_, _, hfolder, file, hfile, hpath, -⟩
      cases hfolder
      exact hmissing file hfile hpath
    · exact .inr ⟨files, unreadable, file, rfl, hfile, rfl, rfl, Result.forM_ok hvalid file hfile⟩

/-! ## The invariant -/

structure Standing (trace : List Event) (s : State) : Prop where
  oneActive : ∀ first ∈ s.catalog.operations, ∀ second ∈ s.catalog.operations,
    first.active = true → second.active = true → first = second
  copying : ∀ copy ∈ s.catalog.copies, ∃ operation ∈ s.catalog.operations,
    operation.id = copy.operationId ∧ operation.kind = .copyToOutput ∧ operation.active = true
  free : ∀ copy ∈ s.catalog.copies, s.catalog.outputs copy.planned.path = none
  rows : ∀ path row, s.catalog.outputs path = some row →
    row.path = path ∧ ∃ parts, relativePath path = .ok parts
  begun : ∀ copy ∈ s.catalog.copies, copy.planned.origin = .copied ∧ ∃ source,
    .begin copy.operationId copy.storageOperationId copy.planned.path source ∈ trace ∧
    source.sha256 = copy.planned.sha256
  transferred : ∀ storage, s.catalog.storage storage = some (some .copied) →
    .transfer storage .copied ∈ trace
  passes : ∀ pass p, s.passes pass = some p → p.copies < s.catalog.copyCount.1 ∨
    (p.copies = s.catalog.copyCount.1 ∧ s.catalog.copyCount.2 = false)
  finished : ∀ front id listed back pass p, trace = front ++ .finish id listed :: back →
    .basis pass ∉ back → s.passes pass = some p → p.copies < s.catalog.copyCount.1

theorem update_eq_some {α β : Type} [DecidableEq α] {f : α → Option β} {key x : α} {v : Option β} {b : β}
    (h : Function.update f key v x = some b) : (x = key ∧ v = some b) ∨ (x ≠ key ∧ f x = some b) := by
  by_cases hx : x = key
  · subst hx
    rw [Function.update_self] at h
    exact .inl ⟨rfl, h⟩
  · rw [Function.update_of_ne hx] at h
    exact .inr ⟨hx, h⟩

theorem snoc_split {α : Type} {trace front back : List α} {last x : α}
    (h : trace ++ [last] = front ++ x :: back) :
    (back = [] ∧ last = x ∧ trace = front) ∨
      ∃ rest, back = rest ++ [last] ∧ trace = front ++ x :: rest := by
  rcases List.eq_nil_or_concat back with rfl | ⟨rest, last', rfl⟩
  · obtain ⟨hfront, hlast⟩ := List.append_inj' h rfl
    cases hlast
    exact .inl ⟨rfl, rfl, hfront⟩
  · have hsplit : trace ++ [last] = (front ++ x :: rest) ++ [last'] := by
      rw [h, List.append_assoc, List.cons_append, List.concat_eq_append]
    obtain ⟨hfront, hlast⟩ := List.append_inj' hsplit rfl
    cases hlast
    exact .inr ⟨rest, List.concat_eq_append, hfront⟩

theorem standing_start : Standing [] State.start where
  oneActive := fun _ h => absurd h List.not_mem_nil
  copying := fun _ h => absurd h List.not_mem_nil
  free := fun _ h => absurd h List.not_mem_nil
  rows := fun _ _ h => by cases h
  begun := fun _ h => absurd h List.not_mem_nil
  transferred := fun _ h => by cases h
  passes := fun _ _ h => by cases h
  finished := fun _ _ _ _ _ _ h => by simp at h

variable {trace : List Event} {s s' : State}

theorem Standing.no_copies (h : Standing trace s)
    (hidle : ∀ operation ∈ s.catalog.operations, operation.active = false) : s.catalog.copies = [] := by
  apply List.eq_nil_iff_forall_not_mem.mpr
  intro copy hcopy
  obtain ⟨operation, hmem, -, -, hactive⟩ := h.copying copy hcopy
  rw [hidle operation hmem] at hactive
  cases hactive

theorem Standing.not_copying (h : Standing trace s) (hidle : s.catalog.copyCount.2 = false) :
    s.catalog.copies = [] := by
  apply List.eq_nil_iff_forall_not_mem.mpr
  intro copy hcopy
  obtain ⟨operation, hmem, -, hkind, hactive⟩ := h.copying copy hcopy
  rw [copying_of_active hmem hkind hactive] at hidle
  cases hidle

theorem Standing.same_operation (h : Standing trace s) {first second : OutputCopy}
    (hfirst : first ∈ s.catalog.copies) (hsecond : second ∈ s.catalog.copies) :
    first.operationId = second.operationId := by
  obtain ⟨left, hleft, hleftId, -, hleftActive⟩ := h.copying first hfirst
  obtain ⟨right, hright, hrightId, -, hrightActive⟩ := h.copying second hsecond
  rw [← hleftId, ← hrightId, h.oneActive left hleft right hright hleftActive hrightActive]

theorem Standing.finished_snoc (h : Standing trace s) {e : Event}
    (he : ∀ id listed, e ≠ .finish id listed) {front back : List Event} {id : Uuid}
    {listed : Option OutputObservation} (htrace : trace ++ [e] = front ++ .finish id listed :: back)
    {pass : Nat} (hbasis : .basis pass ∉ back) {p : Pass} (hpass : s.passes pass = some p) :
    p.copies < s.catalog.copyCount.1 := by
  rcases snoc_split htrace with ⟨-, hlast, -⟩ | ⟨rest, rfl, hfront⟩
  · exact absurd hlast (he id listed)
  · exact h.finished front id listed rest pass p hfront
      (fun hmem => hbasis (List.mem_append_left _ hmem)) hpass

theorem Standing.begun_snoc (h : Standing trace s) (e : Event) {copy : OutputCopy}
    (hcopy : copy ∈ s.catalog.copies) : copy.planned.origin = .copied ∧ ∃ source,
      .begin copy.operationId copy.storageOperationId copy.planned.path source ∈ trace ++ [e] ∧
      source.sha256 = copy.planned.sha256 := by
  obtain ⟨horigin, source, hmem, hsha⟩ := h.begun copy hcopy
  exact ⟨horigin, source, List.mem_append_left _ hmem, hsha⟩

/-! ## Its steps -/

theorem standing_basis (h : Standing trace s) {pass : Nat} (hidle : s.catalog.copyCount.2 = false) :
    Standing (trace ++ [.basis pass]) { s with
      passes := Function.update s.passes pass
        (some { copies := s.catalog.copyCount.1, walked := none }) } where
  oneActive := h.oneActive
  copying := h.copying
  free := h.free
  rows := h.rows
  begun := fun _ hcopy => h.begun_snoc _ hcopy
  transferred := fun storage hstorage => List.mem_append_left _ (h.transferred storage hstorage)
  passes := by
    intro other p hp
    rcases update_eq_some hp with ⟨-, hnew⟩ | ⟨-, hold⟩
    · cases hnew
      exact .inr ⟨rfl, hidle⟩
    · exact h.passes other p hold
  finished := by
    intro front id listed back other p htrace hbasis hp
    rcases update_eq_some hp with ⟨rfl, -⟩ | ⟨-, hold⟩
    · rcases snoc_split htrace with ⟨-, hlast, -⟩ | ⟨rest, rfl, -⟩
      · cases hlast
      · exact absurd (List.mem_append_right _ List.mem_cons_self) hbasis
    · exact h.finished_snoc (fun _ _ he => by cases he) htrace hbasis hold

theorem standing_pass (h : Standing trace s) {e : Event} (he : ∀ id listed, e ≠ .finish id listed)
    {passes : Nat → Option Pass}
    (hpasses : ∀ pass p, passes pass = some p → ∃ old, s.passes pass = some old ∧ old.copies = p.copies) :
    Standing (trace ++ [e]) { s with passes } where
  oneActive := h.oneActive
  copying := h.copying
  free := h.free
  rows := h.rows
  begun := fun _ hcopy => h.begun_snoc _ hcopy
  transferred := fun storage hstorage => List.mem_append_left _ (h.transferred storage hstorage)
  passes := by
    intro pass p hp
    obtain ⟨old, hold, hcopies⟩ := hpasses pass p hp
    rw [← hcopies]
    exact h.passes pass old hold
  finished := by
    intro front id listed back pass p htrace hbasis hp
    obtain ⟨old, hold, hcopies⟩ := hpasses pass p hp
    rw [← hcopies]
    exact h.finished_snoc he htrace hbasis hold

theorem standing_rows (h : Standing trace s) {e : Event} (he : ∀ id listed, e ≠ .finish id listed)
    {outputs : Text → Option OutputObservation}
    (hfree : ∀ copy ∈ s.catalog.copies, outputs copy.planned.path = none)
    (hrows : ∀ path row, outputs path = some row →
      row.path = path ∧ ∃ parts, relativePath path = .ok parts) :
    Standing (trace ++ [e]) { s with catalog := { s.catalog with outputs } } where
  oneActive := h.oneActive
  copying := h.copying
  free := hfree
  rows := hrows
  begun := fun _ hcopy => h.begun_snoc _ hcopy
  transferred := fun storage hstorage => List.mem_append_left _ (h.transferred storage hstorage)
  passes := h.passes
  finished := fun _ _ _ _ _ _ htrace hbasis hp => h.finished_snoc he htrace hbasis hp

theorem applyScan_rows (h : Standing trace s) {folder : OutputFolder}
    {outputs : Text → Option OutputObservation}
    (hscan : applyScan s.catalog.outputs folder = .ok outputs) {path : Text} {row : OutputObservation}
    (hrow : outputs path = some row) : row.path = path ∧ ∃ parts, relativePath path = .ok parts := by
  rcases applyScan_row hscan hrow with ⟨old, hold, rfl, -⟩ | ⟨files, unreadable, file, -, -, rfl, rfl, hvalid⟩
  · exact h.rows path old hold
  · exact ⟨rfl, validate_path hvalid⟩

theorem standing_record (h : Standing trace s) {pass copies : Nat} {look : Answers}
    {folder : OutputFolder} {c : Catalog} {record : OutputScanRecord}
    (hrecord : s.catalog.recordOutputScan { copies, folder } = .ok (c, record)) :
    Standing (trace ++ [.record pass look folder record])
      { catalog := c, passes := Function.update s.passes pass none } := by
  have hpasses : ∀ other p, Function.update s.passes pass none other = some p →
      ∃ old, s.passes other = some old ∧ old.copies = p.copies := by
    intro other p hp
    rcases update_eq_some hp with ⟨-, hnone⟩ | ⟨-, hold⟩
    · cases hnone
    · exact ⟨p, hold, rfl⟩
  have he : ∀ id listed, Event.record pass look folder record ≠ .finish id listed :=
    fun _ _ hsame => by cases hsame
  rcases Catalog.recordOutputScan_ok hrecord with ⟨-, rfl⟩ | ⟨-, hidle, -, outputs, hscan, rfl⟩
  · exact standing_pass h he hpasses
  · have hrows : Standing (trace ++ [.record pass look folder record])
        { s with catalog := { s.catalog with outputs } } := by
      refine standing_rows h he (fun copy hcopy => ?_) fun path row hrow => applyScan_rows h hscan hrow
      rw [h.not_copying hidle] at hcopy
      cases hcopy
    exact {
      oneActive := hrows.oneActive
      copying := hrows.copying
      free := hrows.free
      rows := hrows.rows
      begun := hrows.begun
      transferred := hrows.transferred
      passes := fun other p hp => by
        obtain ⟨old, hold, hcopies⟩ := hpasses other p hp
        rw [← hcopies]
        exact hrows.passes other old hold
      finished := fun front id listed back other p htrace hbasis hp => by
        obtain ⟨old, hold, hcopies⟩ := hpasses other p hp
        rw [← hcopies]
        exact hrows.finished front id listed back other old htrace hbasis hold }

theorem standing_details (h : Standing trace s) {path : Text} {kind : Option OutputKind}
    {channel : Option Text} {c : Catalog}
    (hset : s.catalog.setOutputDetails path kind channel = .ok c) :
    Standing (trace ++ [.details path kind channel]) { s with catalog := c } := by
  obtain ⟨row, hrow, -, rfl⟩ := Catalog.setOutputDetails_ok hset
  obtain ⟨hpath, hparts⟩ := h.rows path row hrow
  refine standing_rows h (fun _ _ he => by cases he) (fun copy hcopy => ?_) fun other found hfound => ?_
  · have hne : copy.planned.path ≠ row.path := by
      intro hsame
      rw [hpath] at hsame
      rw [← hsame, h.free copy hcopy] at hrow
      cases hrow
    rw [Function.update_of_ne hne]
    exact h.free copy hcopy
  · rcases update_eq_some hfound with ⟨rfl, hnew⟩ | ⟨-, hold⟩
    · cases hnew
      exact ⟨rfl, hpath ▸ hparts⟩
    · exact h.rows other found hold

theorem oneActive_append {operations : List ProjectOperation} {new : ProjectOperation}
    (hidle : ∀ operation ∈ operations, operation.active = false) :
    ∀ first ∈ operations ++ [new], ∀ second ∈ operations ++ [new],
      first.active = true → second.active = true → first = second := by
  have hnew : ∀ operation ∈ operations ++ [new], operation.active = true → operation = new := by
    intro operation hmem hactive
    rcases List.mem_append.mp hmem with hmem | hmem
    · rw [hidle operation hmem] at hactive
      cases hactive
    · exact List.mem_singleton.mp hmem
  intro first hfirst second hsecond hleft hright
  rw [hnew first hfirst hleft, hnew second hsecond hright]

theorem standing_begin (h : Standing trace s) {id storage : Uuid} {name : Text}
    {source : EntryEvidence} {destination : Except Inventory.IoError Inventory.Metadata}
    {panel : Option Uuid} {offered : Option OutputKind} {c : Catalog}
    (hbegin : copyToOutput s.catalog id storage name source destination panel offered = .ok c) :
    Standing (trace ++ [.begin id storage name source]) { s with catalog := c } := by
  obtain ⟨-, hsha, -, hidle, hfree, rfl⟩ := Catalog.beginOutputCopy_ok (copyToOutput_ok hbegin)
  have hcopies := h.no_copies hidle
  have hcount := copyCount_append s.catalog id .copyToOutput
  rw [if_pos rfl] at hcount
  have honly : ∀ copy ∈ s.catalog.copies ++ [(⟨id, storage,
      { plannedCopy name source panel with kind := none <|> offered }⟩ : OutputCopy)],
      copy = ⟨id, storage, { plannedCopy name source panel with kind := none <|> offered }⟩ := by
    intro copy hcopy
    rw [hcopies] at hcopy
    exact List.mem_singleton.mp hcopy
  exact {
    oneActive := oneActive_append hidle
    copying := fun copy hcopy => by
      rw [honly copy hcopy]
      exact ⟨_, List.mem_append_right _ List.mem_cons_self, rfl, rfl, rfl⟩
    free := fun copy hcopy => by
      rw [honly copy hcopy]
      exact hfree
    rows := h.rows
    begun := fun copy hcopy => by
      rw [honly copy hcopy]
      exact ⟨rfl, source, List.mem_append_right _ List.mem_cons_self, hsha.symm⟩
    transferred := fun other hother => by
      rcases update_eq_some hother with ⟨-, hnew⟩ | ⟨-, hold⟩
      · cases hnew
      · exact List.mem_append_left _ (h.transferred other hold)
    passes := fun pass p hp => by
      refine .inl (Nat.lt_of_le_of_lt ?_ (Nat.lt_of_lt_of_eq (Nat.lt_succ_self _)
        (congrArg Prod.fst hcount).symm))
      rcases h.passes pass p hp with hlt | ⟨heq, -⟩
      · exact Nat.le_of_lt hlt
      · exact Nat.le_of_eq heq
    finished := fun front id' listed back pass p htrace hbasis hp => by
      refine Nat.lt_of_lt_of_eq (Nat.lt_succ_of_lt ?_) (congrArg Prod.fst hcount).symm
      exact h.finished_snoc (fun _ _ he => by cases he) htrace hbasis hp }

theorem standing_reserve (h : Standing trace s) {id : Uuid} {kind : ProjectOperationKind} {c : Catalog}
    (hkind : kind ≠ .copyToOutput) (hreserve : s.catalog.reserveOperation id kind = .ok c) :
    Standing (trace ++ [.reserve id kind]) { s with catalog := c } := by
  obtain ⟨hidle, rfl⟩ := Catalog.reserveOperation_ok hreserve
  have hcopies := h.no_copies hidle
  have hcount := copyCount_append s.catalog id kind
  rw [if_neg hkind] at hcount
  exact {
    oneActive := oneActive_append hidle
    copying := fun copy hcopy => by
      rw [hcopies] at hcopy
      cases hcopy
    free := h.free
    rows := h.rows
    begun := fun _ hcopy => h.begun_snoc _ hcopy
    transferred := fun storage hstorage => List.mem_append_left _ (h.transferred storage hstorage)
    passes := fun pass p hp => by
      simp only [hcount]
      exact h.passes pass p hp
    finished := fun front id' listed back pass p htrace hbasis hp => by
      simp only [hcount]
      exact h.finished_snoc (fun _ _ he => by cases he) htrace hbasis hp }

theorem standing_transfer (h : Standing trace s) {storage : Uuid} (outcome : ItemOutcome) :
    Standing (trace ++ [.transfer storage outcome]) { s with
      catalog := { s.catalog with
        storage := Function.update s.catalog.storage storage (some (some outcome)) } } where
  oneActive := h.oneActive
  copying := h.copying
  free := h.free
  rows := h.rows
  begun := fun _ hcopy => h.begun_snoc _ hcopy
  transferred := by
    intro other hother
    rcases update_eq_some hother with ⟨rfl, hnew⟩ | ⟨-, hold⟩
    · cases hnew
      exact List.mem_append_right _ List.mem_cons_self
    · exact List.mem_append_left _ (h.transferred other hold)
  passes := h.passes
  finished := fun _ _ _ _ _ _ htrace hbasis hp =>
    h.finished_snoc (fun _ _ he => by cases he) htrace hbasis hp

theorem oneActive_settle (h : Standing trace s) (id : Uuid) :
    ∀ first ∈ s.catalog.operations.map (afterSettle id),
      ∀ second ∈ s.catalog.operations.map (afterSettle id),
      first.active = true → second.active = true → first = second := by
  intro first hfirst second hsecond hleft hright
  obtain ⟨left, hleftMem, rfl⟩ := List.mem_map.mp hfirst
  obtain ⟨right, hrightMem, rfl⟩ := List.mem_map.mp hsecond
  rw [h.oneActive left hleftMem right hrightMem (active_of_afterSettle hleft).1
    (active_of_afterSettle hright).1]

theorem copying_settle (h : Standing trace s) {id : Uuid} {copy : OutputCopy}
    (hcopy : copy ∈ s.catalog.copies) (hne : copy.operationId ≠ id) :
    ∃ operation ∈ s.catalog.operations.map (afterSettle id), operation.id = copy.operationId ∧
      operation.kind = .copyToOutput ∧ operation.active = true := by
  obtain ⟨operation, hmem, hid, hkind, hactive⟩ := h.copying copy hcopy
  have hsame : afterSettle id operation = operation := afterSettle_of_ne (by rw [hid]; exact hne)
  exact ⟨operation, List.mem_map.mpr ⟨operation, hmem, hsame⟩, hid, hkind, hactive⟩

theorem passes_settle (h : Standing trace s) (id : Uuid) {pass : Nat} {p : Pass}
    (hp : s.passes pass = some p) :
    p.copies < ({ s.catalog with
        operations := s.catalog.operations.map (afterSettle id) } : Catalog).copyCount.1 ∨
    (p.copies = ({ s.catalog with
        operations := s.catalog.operations.map (afterSettle id) } : Catalog).copyCount.1 ∧
      ({ s.catalog with
        operations := s.catalog.operations.map (afterSettle id) } : Catalog).copyCount.2 = false) := by
  obtain ⟨hcount, hcopying⟩ := copyCount_settle s.catalog id
  rw [hcount]
  rcases h.passes pass p hp with hlt | ⟨heq, hidle⟩
  · exact .inl hlt
  · refine .inr ⟨heq, Bool.eq_false_iff.mpr fun hnow => ?_⟩
    rw [hcopying hnow] at hidle
    cases hidle

theorem standing_settle (h : Standing trace s) {id : Uuid} {c : Catalog}
    (hcopy : ∀ copy ∈ s.catalog.copies, copy.operationId ≠ id)
    (hsettle : s.catalog.settleOperation id = .ok c) :
    Standing (trace ++ [.settle id]) { s with catalog := c } := by
  cases Catalog.settleOperation_ok hsettle
  exact {
    oneActive := oneActive_settle h id
    copying := fun copy hmem => copying_settle h hmem (hcopy copy hmem)
    free := h.free
    rows := h.rows
    begun := fun _ hcopy => h.begun_snoc _ hcopy
    transferred := fun storage hstorage => List.mem_append_left _ (h.transferred storage hstorage)
    passes := fun pass p hp => passes_settle h id hp
    finished := fun front id' listed back pass p htrace hbasis hp =>
      Nat.lt_of_lt_of_eq (h.finished_snoc (fun _ _ he => by cases he) htrace hbasis hp)
        (copyCount_settle s.catalog id).1.symm }

theorem Standing.lt_of_copying (h : Standing trace s) (hcopying : s.catalog.copyCount.2 = true)
    {pass : Nat} {p : Pass} (hp : s.passes pass = some p) : p.copies < s.catalog.copyCount.1 := by
  rcases h.passes pass p hp with hlt | ⟨-, hidle⟩
  · exact hlt
  · rw [hcopying] at hidle
    cases hidle

theorem standing_finish (h : Standing trace s) {id : Uuid} {installed : Option ObservationFingerprint}
    {c : Catalog} {listed : Option OutputObservation}
    (hfinish : s.catalog.finishOutputCopy id installed = .ok (c, listed)) :
    Standing (trace ++ [.finish id listed]) { s with catalog := c } := by
  obtain ⟨copy, outcome, outputs, hmem, hid, -, rfl, hlisting⟩ := Catalog.finishOutputCopy_ok hfinish
  have hnone : (s.catalog.copies.filter fun other => other.operationId ≠ id) = [] := by
    apply List.filter_eq_nil_iff.mpr
    intro other hother
    simp [h.same_operation hother hmem, hid]
  have hcopying : s.catalog.copyCount.2 = true := by
    obtain ⟨operation, hoperation, -, hkind, hactive⟩ := h.copying copy hmem
    exact copying_of_active hoperation hkind hactive
  exact {
    oneActive := oneActive_settle h id
    copying := fun other hother => by
      simp only [hnone] at hother
      cases hother
    free := fun other hother => by
      simp only [hnone] at hother
      cases hother
    rows := fun path row hrow => by
      rcases hlisting with ⟨-, rfl⟩ | ⟨fingerprint, observation, -, -, -, hvalid, rfl⟩
      · exact h.rows path row hrow
      · rcases update_eq_some hrow with ⟨rfl, hnew⟩ | ⟨-, hold⟩
        · cases hnew
          exact ⟨rfl, validate_path hvalid⟩
        · exact h.rows path row hold
    begun := fun other hother => by
      simp only [hnone] at hother
      cases hother
    transferred := fun storage hstorage => List.mem_append_left _ (h.transferred storage hstorage)
    passes := fun pass p hp => passes_settle h id hp
    finished := fun front id' listed' back pass p htrace hbasis hp =>
      Nat.lt_of_lt_of_eq (h.lt_of_copying hcopying hp) (copyCount_settle s.catalog id).1.symm }

theorem standing_step (h : Standing trace s) {e : Event} (hstep : Step s e s') :
    Standing (trace ++ [e]) s' := by
  cases hstep with
  | basis pass hopen hidle => exact standing_basis h hidle
  | walk hpass look view hwalk =>
    refine standing_pass h (fun _ _ he => by cases he) fun other p hp => ?_
    rcases update_eq_some hp with ⟨rfl, hnew⟩ | ⟨-, hold⟩
    · cases hnew
      exact ⟨_, hpass, rfl⟩
    · exact ⟨p, hold, rfl⟩
  | record hpass hrecord => exact standing_record h hrecord
  | details hset => exact standing_details h hset
  | begin hid hstorage hbegin => exact standing_begin h hbegin
  | transfer outcome hrunning => exact standing_transfer h outcome
  | finish hfinish => exact standing_finish h hfinish
  | reserve hkind hid hreserve => exact standing_reserve h hkind hreserve
  | settle hcopy hsettle => exact standing_settle h hcopy hsettle
  | lifecycle lifecycle =>
    exact {
      oneActive := h.oneActive
      copying := h.copying
      free := h.free
      rows := h.rows
      begun := fun _ hcopy => h.begun_snoc _ hcopy
      transferred := fun storage hstorage => List.mem_append_left _ (h.transferred storage hstorage)
      passes := h.passes
      finished := fun _ _ _ _ _ _ htrace hbasis hp =>
        h.finished_snoc (fun _ _ he => by cases he) htrace hbasis hp }

theorem Runs.standing (h : Runs trace s) : Standing trace s := by
  have htraced := Run.traced (I := Standing)
    (fun _ _ _ _ hstanding hstep => standing_step hstanding hstep) h standing_start
  rwa [List.nil_append] at htraced

end PlateVault.Output
