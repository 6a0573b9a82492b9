import PlateVault.Lib.Fallible
import PlateVault.Output.Kept
import PlateVault.Output.Panels
import PlateVault.View.Entries

/-!
# What group edits block in Output

A run whose edits leave every group in use a panel refuses no write of its Output. Where a listed file
or a verified copy lies in a group that is no panel any more, a call on it is refused.
-/

namespace PlateVault.Output

open Projects (Rows GroupRow LibraryReads Write panelGroup)
open PlateVault.View (Host wholeHost)
open Result (bind_eq_ok require_eq_ok orElse_eq_ok)

/-! ## Paths of a walk -/

theorem mem_fromPath {names : List Text} {c : Char} (h : c ∈ fromPath names) :
    c = '/' ∨ ∃ name ∈ names, c ∈ name := by
  induction names with
  | nil => cases h
  | cons name names ih =>
    cases names with
    | nil =>
      refine .inr ⟨name, List.mem_cons_self, ?_⟩
      simpa [fromPath] using h
    | cons other names =>
      have hsplit : fromPath (name :: other :: names) = name ++ '/' :: fromPath (other :: names) := rfl
      rw [hsplit] at h
      rcases List.mem_append.mp h with hname | hrest
      · exact .inr ⟨name, List.mem_cons_self, hname⟩
      · rcases List.mem_cons.mp hrest with hslash | hrest
        · exact .inl hslash
        · rcases ih hrest with hslash | ⟨found, hfound, hc⟩
          · exact .inl hslash
          · exact .inr ⟨found, List.mem_cons_of_mem _ hfound, hc⟩

theorem head?_fromPath {names : List Text} (hvalid : ∀ name ∈ names, ValidName name) :
    (fromPath names).head? ≠ some '/' := by
  cases names with
  | nil => simp [fromPath]
  | cons name names =>
    obtain ⟨hne, hslash, -⟩ := hvalid name List.mem_cons_self
    cases name with
    | nil => exact absurd rfl hne
    | cons c name =>
      have hhead : (fromPath ((c :: name) :: names)).head? = some c := by
        cases names <;> rfl
      rw [hhead]
      rintro ⟨rfl⟩
      exact hslash List.mem_cons_self

theorem relativePath_fromPath {names : List Text} (hvalid : ∀ name ∈ names, ValidName name) :
    relativePath (fromPath names) = .ok (components (fromPath names)) := by
  have hnul : (fromPath names).contains '\x00' = false := by
    rw [← Bool.not_eq_true, List.contains_iff_mem]
    intro hmem
    rcases mem_fromPath hmem with heq | ⟨name, hname, hc⟩
    · exact absurd heq (by decide)
    · exact (hvalid name hname).2.2.1 hc
  have hparent : (components (fromPath names)).contains .parentDir = false := by
    rw [← Bool.not_eq_true, List.contains_iff_mem]
    intro hmem
    by_cases hne : names = []
    · rw [hne] at hmem
      exact absurd hmem (by decide)
    · rw [components_fromPath hne hvalid] at hmem
      obtain ⟨_, -, heq⟩ := List.mem_map.mp hmem
      cases heq
  unfold relativePath
  rw [hnul, hparent, if_neg (by decide), if_neg (by simp [head?_fromPath hvalid])]

theorem relativeParts_fromPath (field : String) {names : List Text} (hne : names ≠ [])
    (hvalid : ∀ name ∈ names, ValidName name) : relativeParts field (fromPath names) = .ok names := by
  unfold relativeParts
  rw [relativePath_fromPath hvalid]
  refine bind_eq_ok.mpr ⟨_, rfl, ?_⟩
  change (do
    Result.require (fileNames (fromPath names) ≠ []) (.invalidInput (field ++ " is empty"))
    pure (fileNames (fromPath names))) = .ok names
  rw [fileNames_fromPath hne hvalid]
  exact bind_eq_ok.mpr ⟨(), require_eq_ok.mpr (by simpa using hne), rfl⟩

theorem panelOf_isSome {panels : List (Uuid × Text)} {names : List Text}
    (h : (panelOf panels names).isSome = true) : 3 ≤ names.length ∧ names.head? = some outputPanels := by
  unfold panelOf at h
  split at h
  · split at h
    · next first folder third rest hfirst =>
      subst hfirst
      exact ⟨by simp, rfl⟩
    · cases h
  · cases h

/-! ## A pass is recorded -/

theorem validate_observed {recorded : Option OutputObservation} {file : ScannedOutput}
    {parts : List Text} (hparts : relativeParts "an Output path" file.path = .ok parts)
    (hpanel : file.panelGroupId.isSome = true → 3 ≤ parts.length ∧ parts.head? = some outputPanels)
    (hrecorded : ∀ row, recorded = some row → row.validate = .ok ()) :
    (observed recorded file).validate = .ok () := by
  refine validate_iff.mpr ⟨⟨parts, hparts, hpanel⟩, ?_, ?_, ?_⟩
  · intro horigin
    unfold observed at horigin ⊢
    simp only at horigin ⊢
    split at horigin
    · next hsome =>
      obtain ⟨row, hrow⟩ := Option.isSome_iff_exists.mp hsome
      obtain ⟨hmem, hcopied⟩ := Option.filter_eq_some_iff.mp hrow
      simp only [Bool.and_eq_true, decide_eq_true_eq] at hcopied
      rw [hrow]
      exact (validate_iff.mp (hrecorded row hmem)).2.1 hcopied.1.1
    · cases horigin
  · intro sha hsha
    obtain ⟨row, hrow, hrowSha⟩ := Option.bind_eq_some_iff.mp hsha
    have hmem := (Option.filter_eq_some_iff.mp hrow).1
    exact (validate_iff.mp (hrecorded row hmem)).2.2.1 sha hrowSha
  · intro text htext
    obtain ⟨row, hrow, hchannel⟩ := Option.bind_eq_some_iff.mp htext
    exact (validate_iff.mp (hrecorded row hrow)).2.2.2 text hchannel

theorem forM_eq_ok {α : Type} {f : α → Result Unit} {l : List α} (h : ∀ a ∈ l, f a = .ok ()) :
    l.forM f = .ok () := by
  induction l with
  | nil => rfl
  | cons first rest ih =>
    exact bind_eq_ok.mpr ⟨(), h first List.mem_cons_self, ih fun a ha => h a (List.mem_cons_of_mem _ ha)⟩

theorem PassWalk.applyScan_ok (walk : PassWalk) {outputs : Text → Option OutputObservation}
    (hrows : ∀ path row, outputs path = some row → row.validate = .ok ()) :
    ∃ outputs', applyScan outputs walk.folder = .ok outputs' := by
  obtain ⟨view, tree, hwalk, hfolder⟩ := walk.made
  rw [hfolder]
  cases tree with
  | absent => exact ⟨_, rfl⟩
  | unreadable => exact ⟨_, rfl⟩
  | walked walked =>
    have hsound := walkOutput_sound hwalk
    have hunknown : (walked.unreadable.map fromPath).mapM relativePath =
        .ok ((walked.unreadable.map fromPath).map components) := by
      apply Except.mapM_eq_map
      intro path hpath
      obtain ⟨names, hnames, rfl⟩ := List.mem_map.mp hpath
      exact relativePath_fromPath (hsound.unreadable names hnames)
    have hfiles : (walked.files.map (scannedFile view.panels view.steady)).forM
        (fun file => (observed (outputs file.path) file).validate) = .ok () := by
      apply forM_eq_ok
      intro file hfile
      obtain ⟨found, hfound, rfl⟩ := List.mem_map.mp hfile
      obtain ⟨hne, hvalid, -⟩ := hsound.files found hfound
      exact validate_observed (relativeParts_fromPath _ hne hvalid) panelOf_isSome (hrows _)
    exact ⟨_, bind_eq_ok.mpr ⟨_, hunknown, bind_eq_ok.mpr ⟨_, hfiles, rfl⟩⟩⟩

/-! ## Valid records -/

/-- The Project is open, its rows and copies are valid, and at most one copy is in flight. -/
structure Valid (s : State) : Prop where
  opened : s.catalog.lifecycle = .open
  rows : ∀ path row, s.catalog.outputs path = some row → row.validate = .ok ()
  copies : ∀ copy ∈ s.catalog.copies, copy.planned.validate = .ok ()
  single : ∀ first ∈ s.catalog.copies, ∀ second ∈ s.catalog.copies, first = second

variable {trace : List Event} {s s' : State}

theorem valid_start : Valid State.start where
  opened := rfl
  rows := fun _ _ h => by cases h
  copies := fun _ h => absurd h List.not_mem_nil
  single := fun _ h => absurd h List.not_mem_nil

theorem valid_record (h : Valid s) {scan : OutputScan} {c : Catalog} {record : OutputScanRecord}
    (hrecord : s.catalog.recordOutputScan scan = .ok (c, record)) {passes : Nat → Option Pass} :
    Valid { catalog := c, passes } := by
  rcases Catalog.recordOutputScan_ok hrecord with ⟨-, rfl⟩ | ⟨-, -, -, outputs, hscan, rfl⟩
  · exact ⟨h.opened, h.rows, h.copies, h.single⟩
  · refine ⟨h.opened, fun path row hrow => ?_, h.copies, h.single⟩
    rcases applyScan_row hscan hrow with ⟨old, hold, rfl, -⟩ | ⟨_, _, _, -, -, -, -, hvalid⟩
    · exact h.rows path old hold
    · exact hvalid

theorem valid_step (hstanding : Standing trace s) (h : Valid s) {e : Event} (hstep : Step s e s')
    (hopen : ∀ lifecycle, e ≠ .lifecycle lifecycle) : Valid s' := by
  cases hstep with
  | basis pass => exact ⟨h.opened, h.rows, h.copies, h.single⟩
  | walk hpass look view hwalk => exact ⟨h.opened, h.rows, h.copies, h.single⟩
  | record hpass hrecord => exact valid_record h hrecord
  | details hset =>
    obtain ⟨row, -, hvalid, rfl⟩ := Catalog.setOutputDetails_ok hset
    refine ⟨h.opened, fun path other hother => ?_, h.copies, h.single⟩
    rcases update_eq_some hother with ⟨-, hsome⟩ | ⟨-, hold⟩
    · exact Option.some.inj hsome ▸ hvalid
    · exact h.rows path other hold
  | begin hid hstorage hbegin =>
    obtain ⟨-, -, hvalid, hidle, -, rfl⟩ := Catalog.beginOutputCopy_ok (copyToOutput_ok hbegin)
    have hnone := hstanding.no_copies hidle
    refine ⟨h.opened, h.rows, fun copy hcopy => ?_, fun first hfirst second hsecond => ?_⟩
    · simp only [hnone, List.nil_append, List.mem_singleton] at hcopy
      rw [hcopy]
      exact hvalid
    · simp only [hnone, List.nil_append, List.mem_singleton] at hfirst hsecond
      rw [hfirst, hsecond]
  | transfer outcome hrunning => exact ⟨h.opened, h.rows, h.copies, h.single⟩
  | finish hfinish =>
    obtain ⟨_, _, outputs, -, -, -, rfl, hlisting⟩ := Catalog.finishOutputCopy_ok hfinish
    refine ⟨h.opened, fun path row hrow => ?_, fun copy hcopy => h.copies copy (List.mem_filter.mp hcopy).1,
      fun first hfirst second hsecond =>
        h.single first (List.mem_filter.mp hfirst).1 second (List.mem_filter.mp hsecond).1⟩
    rcases hlisting with ⟨-, rfl⟩ | ⟨_, observation, -, -, -, hvalid, rfl⟩
    · exact h.rows path row hrow
    · rcases update_eq_some hrow with ⟨-, hsome⟩ | ⟨-, hold⟩
      · exact Option.some.inj hsome ▸ hvalid
      · exact h.rows path row hold
  | reserve hkind hid hreserve =>
    obtain ⟨-, rfl⟩ := Catalog.reserveOperation_ok hreserve
    exact ⟨h.opened, h.rows, h.copies, h.single⟩
  | settle hcopy hsettle =>
    cases Catalog.settleOperation_ok hsettle
    exact ⟨h.opened, h.rows, h.copies, h.single⟩
  | lifecycle lifecycle => exact absurd rfl (hopen lifecycle)

variable {H : Host} {rows : Rows H.toPlatform} {boardTrace : List BoardEvent} {b b' : Board H}

theorem BoardRuns.known (h : BoardRuns rows boardTrace b) :
    (∃ trace, Standing trace b.output) ∧ Valid b.output := by
  refine Run.invariant (I := fun b : Board H => (∃ trace, Standing trace b.output) ∧ Valid b.output)
    ?_ h ⟨⟨[], standing_start⟩, valid_start⟩
  rintro b e b' ⟨⟨trace, hstanding⟩, hvalid⟩ hstep
  cases hstep with
  | edit hwrite => exact ⟨⟨trace, hstanding⟩, hvalid⟩
  | discard rows => exact ⟨⟨trace, hstanding⟩, hvalid⟩
  | output hstep hopen hpanels =>
    exact ⟨⟨_, standing_step hstanding hstep⟩, valid_step hstanding hvalid hstep hopen⟩

/-! ## Calls that are not refused -/

theorem setOutputDetails_eq (h : Valid s) {path : Text} {row : OutputObservation}
    (hrow : s.catalog.outputs path = some row) (kind : Option OutputKind) {channel : Option Text}
    (hchannel : ∀ text, channel = some text → trim text ≠ []) :
    ∃ c, s.catalog.setOutputDetails path kind channel = .ok c := by
  have hvalid : ({ row with kind, channel } : OutputObservation).validate = .ok () := by
    obtain ⟨hplace, horigin, hsha, -⟩ := validate_iff.mp (h.rows path row hrow)
    exact validate_iff.mpr ⟨hplace, horigin, hsha, hchannel⟩
  refine ⟨_, bind_eq_ok.mpr ⟨(), require_eq_ok.mpr (by simp [h.opened]), bind_eq_ok.mpr ⟨row,
    orElse_eq_ok.mpr hrow, bind_eq_ok.mpr ⟨(), hvalid, bind_eq_ok.mpr ⟨(), ?_, rfl⟩⟩⟩⟩⟩
  exact require_eq_ok.mpr (by simp [h.opened])

theorem finishOutputCopy_eq (hstanding : Standing trace s) (h : Valid s) {copy : OutputCopy}
    (hcopy : copy ∈ s.catalog.copies) {outcome : ItemOutcome}
    (hstorage : s.catalog.storage copy.storageOperationId = some (some outcome))
    {installed : Option ObservationFingerprint} (hinstalled : outcome = .copied → installed.isSome = true) :
    ∃ c listed, s.catalog.finishOutputCopy copy.operationId installed = .ok (c, listed) ∧
      (outcome ≠ .copied → listed = none) ∧
      (outcome = .copied → ∃ observation, listed = some observation ∧
        observation.panelGroupId = copy.planned.panelGroupId) ∧
      c.copies = [] ∧ ∀ operation ∈ c.operations, operation.active = false := by
  have hfind : (s.catalog.copies.find? fun other => other.operationId = copy.operationId) = some copy := by
    cases hfound : s.catalog.copies.find? fun other => other.operationId = copy.operationId with
    | none => simpa using List.find?_eq_none.mp hfound copy hcopy
    | some other => rw [h.single other (List.mem_of_find?_eq_some hfound) copy hcopy]
  obtain ⟨running, hrunning, hid, -, hactive⟩ := hstanding.copying copy hcopy
  have hsettles : (s.catalog.operations.any fun operation =>
      operation.id = copy.operationId && operation.active) = true :=
    List.any_eq_true.mpr ⟨running, hrunning, by simp [hid, hactive]⟩
  have hcopies : (s.catalog.copies.filter fun other => other.operationId ≠ copy.operationId) = [] := by
    apply List.filter_eq_nil_iff.mpr
    intro other hother
    simp [h.single other hother copy hcopy]
  have hreleased : ∀ operation ∈ s.catalog.operations.map (afterSettle copy.operationId),
      operation.active = false := by
    intro operation hoperation
    obtain ⟨before, hbefore, rfl⟩ := List.mem_map.mp hoperation
    by_contra hstill
    rw [Bool.not_eq_false] at hstill
    obtain ⟨hwas, hsame⟩ := active_of_afterSettle hstill
    rw [hstanding.oneActive before hbefore running hrunning hwas hactive] at hstill
    simp [afterSettle, hid, hactive] at hstill
  by_cases hcopied : outcome = .copied
  · obtain ⟨fingerprint, rfl⟩ := Option.isSome_iff_exists.mp (hinstalled hcopied)
    let observation : OutputObservation := { copy.planned with
      sizeBytes := fingerprint.sizeBytes, fingerprint := some fingerprint, state := .settled }
    have hvalid : observation.validate = .ok () := h.copies copy hcopy
    refine ⟨{ s.catalog with
      outputs := Function.update s.catalog.outputs observation.path (some observation)
      copies := s.catalog.copies.filter fun other => other.operationId ≠ copy.operationId
      operations := s.catalog.operations.map (afterSettle copy.operationId) }, some observation, ?_,
      fun hne => absurd hcopied hne, fun _ => ⟨observation, rfl, rfl⟩, hcopies, hreleased⟩
    unfold Catalog.finishOutputCopy
    simp only [hfind, hstorage, hcopied, Result.orElse, bind, Except.bind, if_true]
    rw [show OutputObservation.validate { copy.planned with
      sizeBytes := fingerprint.sizeBytes, fingerprint := some fingerprint, state := .settled } =
        .ok () from hvalid]
    simp only [Catalog.upsert, h.opened, Result.require, decide_true, pure, Except.pure, bind,
      Except.bind, Catalog.settleOperation, hsettles, if_true]
    rfl
  · refine ⟨{ s.catalog with
      copies := s.catalog.copies.filter fun other => other.operationId ≠ copy.operationId
      operations := s.catalog.operations.map (afterSettle copy.operationId) }, none, ?_,
      fun _ => rfl, fun heq => absurd heq hcopied, hcopies, hreleased⟩
    unfold Catalog.finishOutputCopy
    simp only [hfind, hstorage, hcopied, Result.orElse, bind, Except.bind, if_false, pure,
      Except.pure, Catalog.settleOperation, hsettles, if_true]
    rfl

theorem recordOutputScan_eq (h : Valid s) (copies : Nat) (walk : PassWalk) :
    ∃ c record, s.catalog.recordOutputScan { copies, folder := walk.folder } = .ok (c, record) := by
  obtain ⟨outputs, houtputs⟩ := walk.applyScan_ok h.rows
  unfold Catalog.recordOutputScan Catalog.requireOpen
  rw [show Result.require (decide (s.catalog.lifecycle = .open)) _ = .ok () from
    require_eq_ok.mpr (by simp [h.opened])]
  by_cases hstale : (s.catalog.copyCount.2 || s.catalog.copyCount.1 ≠ copies) = true
  · exact ⟨s.catalog, .stale, bind_eq_ok.mpr ⟨(), rfl, if_pos hstale⟩⟩
  · refine ⟨{ s.catalog with outputs }, .recorded, bind_eq_ok.mpr ⟨(), rfl, ?_⟩⟩
    rw [if_neg hstale]
    exact bind_eq_ok.mpr ⟨outputs, houtputs, rfl⟩

/-! ## Groups that stay panels -/

theorem Unblocked.settled (hknown : (∃ trace, Standing trace b.output) ∧ Valid b.output)
    (h : Unblocked b) : Settled b where
  rows := by
    intro path row hrow
    obtain ⟨_, hstep⟩ := h.details path row none none hrow nofun
    cases hstep with
    | output hstep hopen hpanels => exact hpanels _ (.details hrow)
  copies := by
    intro copy hcopy hstorage
    obtain ⟨⟨trace, hstanding⟩, hvalid⟩ := hknown
    let installed : ObservationFingerprint :=
      ⟨⟨⟨"", none, false, .insensitive, .insensitive⟩, none⟩, 0, 0, none⟩
    have hinstalled : ItemOutcome.copied = .copied → (some installed).isSome = true := fun _ => rfl
    obtain ⟨c, listed, hfinish, hstep, -⟩ :=
      h.finish copy hcopy .copied hstorage (some installed) hinstalled
    obtain ⟨_, _, hsame, -, hlisted, -⟩ :=
      finishOutputCopy_eq hstanding hvalid hcopy hstorage hinstalled
    obtain ⟨observation, rfl, hpanel⟩ := hlisted rfl
    rw [hfinish] at hsame
    cases hsame
    cases hstep with
    | output hstep hopen hpanels => exact hpanel ▸ hpanels _ .listed

theorem Settled.unblocked (hknown : (∃ trace, Standing trace b.output) ∧ Valid b.output)
    (h : Settled b) : Unblocked b where
  details := by
    intro path row kind channel hrow hchannel
    obtain ⟨c, hset⟩ := setOutputDetails_eq hknown.2 hrow kind hchannel
    refine ⟨_, .output (.details hset) (by simp) fun panel hnames => ?_⟩
    cases hnames with
    | details hlisted => exact h.rows path _ hlisted
  finish := by
    intro copy hcopy outcome hstorage installed hinstalled
    obtain ⟨⟨trace, hstanding⟩, hvalid⟩ := hknown
    obtain ⟨c, listed, hfinish, hnone, hlisted, hreleased⟩ :=
      finishOutputCopy_eq hstanding hvalid hcopy hstorage hinstalled
    refine ⟨c, listed, hfinish, .output (.finish hfinish) (by simp) fun panel hnames => ?_, hreleased⟩
    cases hnames with
    | listed =>
      by_cases hcopied : outcome = .copied
      · obtain ⟨_, heq, hpanel⟩ := hlisted hcopied
        cases heq
        rw [hpanel]
        exact h.copies copy hcopy (hcopied ▸ hstorage)
      · cases hnone hcopied
  record := by
    intro pass copies walk hpass hfound
    obtain ⟨c, record, hrecord⟩ := recordOutputScan_eq hknown.2 copies walk
    refine ⟨record, _, .output (.record hpass hrecord) (by simp) fun panel hnames => ?_⟩
    cases hnames with
    | scan hscan =>
      generalize walk.folder = folder at hscan hfound
      cases hscan with
      | unreadable hrow => exact h.rows _ _ hrow
      | found hfile => exact hfound _ hfile
      | missed hrow => exact h.rows _ _ hrow

def Current (b : Board H) : Prop :=
  ∀ panel, InUse b.output panel → panelGroup b.rows.groups panel = true

theorem Current.settled (h : Current b) : Settled b where
  rows := fun path row hrow => h _ (.inl ⟨path, row, hrow, rfl⟩)
  copies := fun copy hcopy _ => h _ (.inr ⟨copy, hcopy, rfl⟩)

theorem inUse_step {e : Event} (hstep : Step s e s') {panel : Option Uuid} (h : InUse s' panel) :
    InUse s panel ∨ Names s e panel ∨
      ((∃ id storage name source, e = .begin id storage name source) ∧
        ∃ copy ∈ s'.catalog.copies, copy.planned.panelGroupId = panel) := by
  cases hstep with
  | basis pass => exact .inl h
  | walk hpass look view hwalk => exact .inl h
  | record hpass hrecord =>
    rcases Catalog.recordOutputScan_ok hrecord with ⟨-, rfl⟩ | ⟨rfl, -, -, outputs, hscan, rfl⟩
    · exact .inl h
    · rcases h with ⟨path, row, hrow, rfl⟩ | hcopy
      · rcases applyScan_row hscan hrow with ⟨old, hold, rfl, -⟩ |
          ⟨files, unreadable, file, hfolder, hfile, rfl, rfl, -⟩
        · exact .inl (.inl ⟨path, old, hold, rfl⟩)
        · by_cases hsame : s.catalog.outputs file.path = some (observed (s.catalog.outputs file.path) file)
          · exact .inl (.inl ⟨file.path, _, hsame, rfl⟩)
          · refine .inr (.inl (.scan ?_))
            simp only at hfolder
            rw [hfolder]
            exact .found hfile hsame
      · exact .inl (.inr hcopy)
  | details hset =>
    obtain ⟨row, hlisted, -, rfl⟩ := Catalog.setOutputDetails_ok hset
    rcases h with ⟨path, other, hother, rfl⟩ | hcopy
    · rcases update_eq_some hother with ⟨-, hsome⟩ | ⟨-, hold⟩
      · cases hsome
        exact .inl (.inl ⟨_, row, hlisted, rfl⟩)
      · exact .inl (.inl ⟨path, other, hold, rfl⟩)
    · exact .inl (.inr hcopy)
  | begin hid hstorage hbegin =>
    obtain ⟨-, -, -, -, -, rfl⟩ := Catalog.beginOutputCopy_ok (copyToOutput_ok hbegin)
    rcases h with hrow | hcopy
    · exact .inl (.inl hrow)
    · exact .inr (.inr ⟨⟨_, _, _, _, rfl⟩, hcopy⟩)
  | transfer outcome hrunning => exact .inl h
  | finish hfinish =>
    obtain ⟨_, _, outputs, -, -, -, rfl, hlisting⟩ := Catalog.finishOutputCopy_ok hfinish
    rcases h with ⟨path, row, hrow, rfl⟩ | ⟨copy, hcopy, rfl⟩
    · rcases hlisting with ⟨-, rfl⟩ | ⟨_, observation, rfl, -, -, -, rfl⟩
      · exact .inl (.inl ⟨path, row, hrow, rfl⟩)
      · rcases update_eq_some hrow with ⟨-, hsome⟩ | ⟨-, hold⟩
        · cases hsome
          exact .inr (.inl .listed)
        · exact .inl (.inl ⟨path, row, hold, rfl⟩)
    · exact .inl (.inr ⟨copy, (List.mem_filter.mp hcopy).1, rfl⟩)
  | reserve hkind hid hreserve =>
    obtain ⟨-, rfl⟩ := Catalog.reserveOperation_ok hreserve
    exact .inl h
  | settle hcopy hsettle =>
    cases Catalog.settleOperation_ok hsettle
    exact .inl h
  | lifecycle lifecycle => exact .inl h

theorem current_step {e : BoardEvent} (h : Current b) (hstep : BoardStep b e b')
    (hspares : Spares b e b') : Current b' := by
  cases hstep with
  | edit hwrite => exact hspares
  | discard rows => exact hspares
  | output hstep hopen hpanels =>
    intro panel huse
    rcases inUse_step hstep huse with hused | hnames | ⟨⟨_, _, _, _, rfl⟩, copy, hcopy, rfl⟩
    · exact h panel hused
    · exact hpanels panel hnames
    · exact hspares copy hcopy

theorem SparingRuns.current (h : SparingRuns rows boardTrace b) : Current b := by
  refine Run.invariant (I := Current) (fun _ _ _ hcurrent hstep => current_step hcurrent hstep.1 hstep.2)
    h ?_
  rintro panel (⟨_, _, hrow, -⟩ | ⟨_, hcopy, -⟩)
  · cases hrow
  · cases hcopy

/-- In every run no write of the Output is refused exactly where each listed file and verified copy lies
in a panel group of the Project, or in none; a run whose edits spare the groups in use refuses none. -/
theorem output_unblocked (h : BoardRuns rows boardTrace b) :
    (Unblocked b ↔ Settled b) ∧ (SparingRuns rows boardTrace b → Unblocked b) :=
  ⟨⟨Unblocked.settled h.known, Settled.unblocked h.known⟩,
    fun hsparing => hsparing.current.settled.unblocked h.known⟩

/-! ## A copy into a panel's folder -/

def panelPath : Text := "Panels/P/a".toList

def oneGroup (revision : Nat) (panel : Bool) : Rows wholeHost.toPlatform where
  id := 1
  revision := revision
  subjects := []
  rigs := []
  goals := []
  hidden := []
  groups := [⟨7, 3, ⟨['P'], by decide, by simp [PlateVault.View.isControl]⟩, panel, .user, ⟨none, none, none⟩, none, 0⟩]
  sessions := []
  captures := []

/-- The records while the copy into the panel's folder is in flight. -/
def copyingInPanel (storage : Uuid → Option (Option ItemOutcome)) : Catalog where
  lifecycle := .open
  operations := [{ id := 1, kind := .copyToOutput, active := true }]
  outputs := fun _ => none
  copies := [{ operationId := 1, storageOperationId := 2, planned := plannedCopy panelPath sourceA (some 7) }]
  storage := storage

def idlePasses : Nat → Option Pass := fun _ => none

theorem begin_inPanel (revision : Nat) : BoardStep (Board.start (oneGroup revision true))
    (.output (.begin 1 2 panelPath sourceA))
    ⟨oneGroup revision true, ⟨copyingInPanel storageBegun, idlePasses⟩⟩ := by
  have hbegin : copyToOutput .empty 1 2 panelPath sourceA (.error missing) (some 7) none =
      .ok (copyingInPanel storageBegun) := rfl
  refine .output (.begin (fun _ hmem => absurd hmem List.not_mem_nil) rfl hbegin) (by simp) ?_
  intro panel hnames
  cases hnames

theorem transfer_inPanel (rows : Rows wholeHost.toPlatform) :
    BoardStep ⟨rows, ⟨copyingInPanel storageBegun, idlePasses⟩⟩ (.output (.transfer 2 .copied))
      ⟨rows, ⟨copyingInPanel storageCopied, idlePasses⟩⟩ := by
  refine .output (.transfer .copied rfl) (by simp) ?_
  intro panel hnames
  cases hnames

def noLibrary : LibraryReads wholeHost.toPlatform where
  target _ := .error (.notFound "target")
  equipment _ := .error (.notFound "rig")
  basis _ := .error (.notFound "session")
  admission _ _ _ := .error (.notFound "session")
  captures _ := .error (.notFound "session")
  validOptics _ := .ok ()
  validFraming _ := .ok ()

theorem unmark_group : (Write.setPanel 7 false none).commit wholeHost noLibrary (oneGroup 1 true) 1 =
    .ok (oneGroup 2 false) := rfl

/-- While its group stays a panel, a copy into it can be finished. -/
theorem copy_inPanel_unblocked :
    Unblocked (H := wholeHost) ⟨oneGroup 1 true, ⟨copyingInPanel storageCopied, idlePasses⟩⟩ := by
  have hsparing : SparingRuns (oneGroup 1 true)
      [.output (.begin 1 2 panelPath sourceA), .output (.transfer 2 .copied)]
      ⟨oneGroup 1 true, ⟨copyingInPanel storageCopied, idlePasses⟩⟩ := by
    refine .cons ⟨begin_inPanel 1, ?_⟩ (.cons ⟨transfer_inPanel _, trivial⟩ (.nil _))
    intro copy hcopy
    rw [List.mem_singleton.mp hcopy]
    rfl
  exact (output_unblocked (hsparing.mono fun _ _ _ hstep => hstep.1)).2 hsparing

/-- A group that is unmarked while a copy into its folder runs: the verified copy cannot be finished. -/
theorem unmarked_panel_blocks : ¬ ∀ (rows : Rows wholeHost.toPlatform) trace b,
    BoardRuns rows trace b → Unblocked b := by
  intro hall
  have hruns : BoardRuns (oneGroup 1 true)
      [.output (.begin 1 2 panelPath sourceA), .edit, .output (.transfer 2 .copied)]
      ⟨oneGroup 2 false, ⟨copyingInPanel storageCopied, idlePasses⟩⟩ :=
    .cons (begin_inPanel 1) (.cons (.edit unmark_group) (.cons (transfer_inPanel _) (.nil _)))
  have hsettled := (hall _ _ _ hruns).settled hruns.known
  exact absurd (hsettled.copies _ (List.mem_singleton.mpr rfl) rfl) (by decide)

end PlateVault.Output
