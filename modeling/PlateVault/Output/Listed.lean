import PlateVault.Output.Standing
import PlateVault.Output.WalkLaws

/-!
# The Output listing

Passes, copies and edits in any order: what stands in the listing was verified, a Kind and Channel
stay, and a pass older than a copy records nothing. A verified copy stays listed while every pass
can fingerprint it and its name is one the walk finds.
-/

namespace PlateVault.Output

open Result (bind_eq_ok require_eq_ok)

variable {trace : List Event} {s s' : State}

theorem outputs_step {e : Event} (hstep : Step s e s') :
    (s'.catalog.outputs = s.catalog.outputs ∧
      (∀ pass look folder, e ≠ .record pass look folder .recorded) ∧
      (∀ path kind channel, e ≠ .details path kind channel) ∧ ∀ id row, e ≠ .finish id (some row)) ∨
    (∃ path kind channel row, e = .details path kind channel ∧ s.catalog.outputs path = some row ∧
      s'.catalog.outputs =
        Function.update s.catalog.outputs row.path (some { row with kind, channel })) ∨
    (∃ pass walk, e = .record pass (PassWalk.look walk) walk.folder .recorded ∧
      applyScan s.catalog.outputs walk.folder = .ok s'.catalog.outputs) ∨
    ∃ id copy fingerprint observation, e = .finish id (some observation) ∧ copy ∈ s.catalog.copies ∧
      copy.operationId = id ∧ s.catalog.storage copy.storageOperationId = some (some .copied) ∧
      observation = { copy.planned with
        sizeBytes := fingerprint.sizeBytes, fingerprint := some fingerprint, state := .settled } ∧
      s'.catalog.outputs =
        Function.update s.catalog.outputs observation.path (some observation) := by
  cases hstep with
  | basis pass hopen hidle => exact .inl ⟨rfl, by simp, by simp, by simp⟩
  | walk hpass look view hwalk => exact .inl ⟨rfl, by simp, by simp, by simp⟩
  | record hpass hrecord =>
    rcases Catalog.recordOutputScan_ok hrecord with ⟨rfl, rfl⟩ | ⟨rfl, -, -, outputs, hscan, rfl⟩
    · exact .inl ⟨rfl, by simp, by simp, by simp⟩
    · exact .inr (.inr (.inl ⟨_, _, rfl, hscan⟩))
  | details hset =>
    obtain ⟨row, hrow, -, rfl⟩ := Catalog.setOutputDetails_ok hset
    exact .inr (.inl ⟨_, _, _, row, rfl, hrow, rfl⟩)
  | begin hid hstorage hbegin =>
    obtain ⟨-, -, -, -, -, rfl⟩ := Catalog.beginOutputCopy_ok (copyToOutput_ok hbegin)
    exact .inl ⟨rfl, by simp, by simp, by simp⟩
  | transfer outcome hrunning => exact .inl ⟨rfl, by simp, by simp, by simp⟩
  | finish hfinish =>
    obtain ⟨copy, outcome, outputs, hmem, hid, hstorage, rfl, hlisting⟩ :=
      Catalog.finishOutputCopy_ok hfinish
    rcases hlisting with ⟨rfl, rfl⟩ | ⟨fingerprint, observation, rfl, rfl, hobservation, -, rfl⟩
    · exact .inl ⟨rfl, by simp, by simp, by simp⟩
    · exact .inr (.inr (.inr ⟨_, copy, fingerprint, observation, rfl, hmem, hid, hstorage, hobservation,
        rfl⟩))
  | reserve hkind hid hreserve =>
    obtain ⟨-, rfl⟩ := Catalog.reserveOperation_ok hreserve
    exact .inl ⟨rfl, by simp, by simp, by simp⟩
  | settle hcopy hsettle =>
    cases Catalog.settleOperation_ok hsettle
    exact .inl ⟨rfl, by simp, by simp, by simp⟩
  | lifecycle lifecycle => exact .inl ⟨rfl, by simp, by simp, by simp⟩

/-! ## Spellings the walk gives -/

theorem splitOn_fromPath {names : List Text} (hne : names ≠ []) (hvalid : ∀ name ∈ names, ValidName name) :
    (fromPath names).splitOn '/' = names := by
  unfold fromPath
  rw [splitOn_intercalate_flatMap '/' hne]
  clear hne
  induction names with
  | nil => rfl
  | cons name names ih =>
    rw [List.flatMap_cons, List.splitOn_eq_singleton (hvalid name List.mem_cons_self).2.1,
      ih fun other hother => hvalid other (List.mem_cons_of_mem _ hother)]
    rfl

theorem fromPath_injective {left right : List Text} (hleft : left ≠ []) (hright : right ≠ [])
    (hvalidLeft : ∀ name ∈ left, ValidName name) (hvalidRight : ∀ name ∈ right, ValidName name)
    (h : fromPath left = fromPath right) : left = right := by
  rw [← splitOn_fromPath hleft hvalidLeft, h, splitOn_fromPath hright hvalidRight]

theorem components_fromPath {names : List Text} (hne : names ≠ [])
    (hvalid : ∀ name ∈ names, ValidName name) :
    components (fromPath names) = names.map .normal := by
  unfold components
  rw [splitOn_fromPath hne hvalid]
  have hkept : (names.filter fun part => part ≠ [] && part ≠ ['.']) = names := by
    apply List.filter_eq_self.mpr
    intro name hname
    obtain ⟨hempty, -, -, hdot, -⟩ := hvalid name hname
    simp [hempty, hdot]
  have hhead : names.head? ≠ some ['.'] := by
    intro hdot
    exact (hvalid _ (List.mem_of_mem_head? hdot)).2.2.2.1 rfl
  simp only [hkept, if_neg hhead]
  apply List.map_congr_left
  intro name hname
  rw [if_neg (hvalid name hname).2.2.2.2]

theorem fileNames_fromPath {names : List Text} (hne : names ≠ [])
    (hvalid : ∀ name ∈ names, ValidName name) : fileNames (fromPath names) = names := by
  unfold fileNames
  rw [components_fromPath hne hvalid, List.filterMap_map]
  exact List.filterMap_some

/-! ## Passes older than a copy, and other operations -/

theorem stale_of_finished (h : Standing trace s) {front back : List Event} {id : Uuid}
    {listed : Option OutputObservation} (htrace : trace = front ++ .finish id listed :: back)
    {pass : Nat} (hbasis : .basis pass ∉ back) {look : Answers} {folder : OutputFolder}
    {record : OutputScanRecord} (hstep : Step s (.record pass look folder record) s') :
    record = .stale := by
  cases hstep with
  | record hpass hrecord =>
    rcases Catalog.recordOutputScan_ok hrecord with ⟨rfl, -⟩ | ⟨-, -, hcount, -⟩
    · rfl
    · have hlt := h.finished front id listed back pass _ htrace hbasis hpass
      rw [hcount] at hlt
      exact absurd hlt (Nat.lt_irrefl _)

theorem runs_staleOnce (h : Runs trace s) : StaleOnce trace := by
  rintro front middle back id listed pass look folder record rfl hbasis
  have hsplit : front ++ Event.finish id listed :: (middle ++ .record pass look folder record :: back) =
      (front ++ .finish id listed :: middle) ++ (.record pass look folder record :: back) := by
    simp
  unfold Runs at h
  rw [hsplit] at h
  obtain ⟨s₁, hbefore, hafter⟩ := h.split
  obtain ⟨s₂, hstep, -⟩ := Run.cons_iff.mp hafter
  exact stale_of_finished (Runs.standing hbefore) rfl hbasis hstep

theorem stale_unchanged {pass : Nat} {look : Answers} {folder : OutputFolder}
    (hstep : Step s (.record pass look folder .stale) s') : s'.catalog = s.catalog := by
  cases hstep with
  | record hpass hrecord =>
    rcases Catalog.recordOutputScan_ok hrecord with ⟨-, rfl⟩ | ⟨hrecorded, -⟩
    · rfl
    · cases hrecorded

theorem oneAtATime (s : State) : OneAtATime s := by
  intro hcopying e s' hstep
  obtain ⟨operation, hmem, hactive⟩ := List.any_eq_true.mp hcopying
  have hoperation := (List.mem_filter.mp hmem).1
  have hbusy : ¬ ∀ operation ∈ s.catalog.operations, operation.active = false := by
    intro hidle
    rw [hidle operation hoperation] at hactive
    cases hactive
  refine ⟨?_, ?_⟩
  · rintro id storage name source rfl
    cases hstep with
    | begin hid hstorage hbegin =>
      exact hbusy (Catalog.beginOutputCopy_ok (copyToOutput_ok hbegin)).2.2.2.1
  · rintro id kind rfl
    cases hstep with
    | reserve hkind hid hreserve => exact hbusy (Catalog.reserveOperation_ok hreserve).1

/-! ## Kind and Channel -/

theorem relativePath_ok {path : Text} {parts : List Component} (h : relativePath path = .ok parts) :
    parts = components path := by
  unfold relativePath at h
  split at h
  · cases h
  · split at h
    · cases h
    · exact (Except.ok.inj h).symm

theorem missed_of_below {unknown : List (List Component)} {row : OutputObservation}
    (hparts : ∃ parts, relativePath row.path = .ok parts) {folder : List Component}
    (hfolder : folder ∈ unknown) (hbelow : folder <+: components row.path) :
    missed unknown row = some { row with state := .unreadable } := by
  obtain ⟨parts, hparts⟩ := hparts
  unfold missed
  rw [if_pos]
  rw [hparts]
  have hany : belowAny (components row.path) unknown = true :=
    List.any_eq_true.mpr ⟨folder, hfolder, List.isPrefixOf_iff_prefix.mpr hbelow⟩
  rw [relativePath_ok hparts]
  exact hany

theorem applyScan_keeps (h : Standing trace s) {folder : OutputFolder}
    {outputs : Text → Option OutputObservation}
    (hscan : applyScan s.catalog.outputs folder = .ok outputs) {path : Text} {row : OutputObservation}
    (hrow : s.catalog.outputs path = some row) (hfound : ¬ NotFoundBy path folder) :
    outputs path = some { row with state := .unreadable } ∨
    ∃ files unreadable file, folder = .walked files unreadable ∧ file ∈ files ∧ file.path = path ∧
      outputs path = some (observed (some row) file) := by
  obtain ⟨hpath, hparts⟩ := h.rows path row hrow
  cases folder with
  | absent => exact absurd trivial hfound
  | unreadable =>
    cases hscan
    exact .inl (by simp [hrow])
  | walked files unreadable =>
    obtain ⟨unknown, hunknown, h₁⟩ := bind_eq_ok.mp hscan
    obtain ⟨_, -, h₂⟩ := bind_eq_ok.mp h₁
    cases h₂
    unfold merged
    cases hfind : files.reverse.find? fun file => file.path = path with
    | some file =>
      refine .inr ⟨files, unreadable, file, rfl,
        List.mem_reverse.mp (List.mem_of_find?_eq_some hfind), ?_, ?_⟩
      · simpa using List.find?_some hfind
      · simp [hrow]
    | none =>
      have hnone : ∀ file ∈ files, file.path ≠ path := by
        intro file hfile
        simpa using List.find?_eq_none.mp hfind file (List.mem_reverse.mpr hfile)
      have hunread : ∃ folder ∈ unreadable, components folder <+: components path := by
        by_contra hnot
        exact hfound ⟨hnone, fun folder hfolder hbelow => hnot ⟨folder, hfolder, hbelow⟩⟩
      obtain ⟨folder, hfolder, hbelow⟩ := hunread
      obtain ⟨parts, hmem, hrelative⟩ := Result.mapM_of_mem hunknown hfolder
      rw [relativePath_ok hrelative] at hmem
      subst hpath
      have hmissed := missed_of_below hparts hmem hbelow
      left
      simp [hrow, hmissed]

theorem details_step (h : Standing trace s) {e : Event} (hstep : Step s e s') {path : Text}
    {kind : Option OutputKind} {channel : Option Text}
    (hset : ∀ kind' channel', e ≠ .details path kind' channel')
    (hfound : ∀ pass look folder, e = .record pass look folder .recorded → ¬ NotFoundBy path folder)
    (hrow : ∃ row, s.catalog.outputs path = some row ∧ row.kind = kind ∧ row.channel = channel) :
    ∃ row, s'.catalog.outputs path = some row ∧ row.kind = kind ∧ row.channel = channel := by
  obtain ⟨row, hrow, hkind, hchannel⟩ := hrow
  rcases outputs_step hstep with ⟨houtputs, -⟩ | ⟨other, kind', channel', old, rfl, hold, houtputs⟩ |
    ⟨pass, walk, rfl, hscan⟩ | ⟨id, copy, fingerprint, observation, rfl, hcopy, -, -, rfl, houtputs⟩
  · exact ⟨row, by rw [houtputs, hrow], hkind, hchannel⟩
  · have hne : path ≠ old.path := by
      rw [(h.rows other old hold).1]
      rintro rfl
      exact hset kind' channel' rfl
    exact ⟨row, by rw [houtputs, Function.update_of_ne hne, hrow], hkind, hchannel⟩
  · rcases applyScan_keeps h hscan hrow (hfound pass _ _ rfl) with
      hkept | ⟨files, unreadable, file, -, -, -, hkept⟩
    · exact ⟨_, hkept, hkind, hchannel⟩
    · exact ⟨_, hkept, hkind, hchannel⟩
  · have hne : path ≠ copy.planned.path := by
      rintro rfl
      rw [h.free copy hcopy] at hrow
      cases hrow
    exact ⟨row, by rw [houtputs, Function.update_of_ne hne, hrow], hkind, hchannel⟩

theorem keepsDetails_step (h : Standing trace s) (hkeeps : KeepsDetails trace s) {e : Event}
    (hstep : Step s e s') : KeepsDetails (trace ++ [e]) s' := by
  intro front back path kind channel htrace hset hfound
  rcases snoc_split htrace with ⟨rfl, rfl, -⟩ | ⟨rest, rfl, hfront⟩
  · cases hstep with
    | details hdetails =>
      obtain ⟨row, hrow, -, rfl⟩ := Catalog.setOutputDetails_ok hdetails
      rw [(h.rows path row hrow).1]
      exact ⟨_, Function.update_self .., rfl, rfl⟩
  · refine details_step h hstep (fun kind' channel' he => ?_) (fun pass look folder he => ?_) ?_
    · exact hset kind' channel' (List.mem_append_right _ (List.mem_singleton.mpr he.symm))
    · exact hfound pass look folder (List.mem_append_right _ (List.mem_singleton.mpr he.symm))
    · exact hkeeps front rest path kind channel hfront
        (fun kind' channel' hmem => hset kind' channel' (List.mem_append_left _ hmem))
        fun pass look folder hmem => hfound pass look folder (List.mem_append_left _ hmem)

/-! ## What a pass found -/

theorem PassWalk.files (walk : PassWalk) {files : List ScannedOutput} {unreadable : List Text}
    (hfolder : walk.folder = .walked files unreadable) : ∀ file ∈ files, ∃ names,
      names ≠ [] ∧ (∀ name ∈ names, ValidName name) ∧ file.path = fromPath names ∧
      file.fingerprint = walk.look.probe names ∧
      ∃ metadata, walk.look.lstat names = .ok metadata ∧ metadata.isFile = true := by
  obtain ⟨view, tree, hwalk, hmade⟩ := walk.made
  rw [hmade] at hfolder
  cases tree with
  | absent => cases hfolder
  | unreadable => cases hfolder
  | walked walked =>
    cases hfolder
    intro file hfile
    obtain ⟨found, hfound, rfl⟩ := List.mem_map.mp hfile
    obtain ⟨hne, hvalid, hprobe, hlook⟩ := (walkOutput_sound hwalk).files found hfound
    exact ⟨found.path, hne, hvalid, rfl, hprobe, hlook⟩

theorem PassWalk.fingerprint_unique (walk : PassWalk) {files : List ScannedOutput}
    {unreadable : List Text} (hfolder : walk.folder = .walked files unreadable)
    {left right : ScannedOutput} (hleft : left ∈ files) (hright : right ∈ files)
    (hpath : left.path = right.path) : left.fingerprint = right.fingerprint := by
  obtain ⟨names, hne, hvalid, hleftPath, hleftProbe, -⟩ := walk.files hfolder left hleft
  obtain ⟨names', hne', hvalid', hrightPath, hrightProbe, -⟩ := walk.files hfolder right hright
  have hnames := fromPath_injective hne hne' hvalid hvalid' (by rw [← hleftPath, hpath, hrightPath])
  rw [hleftProbe, hrightProbe, hnames]

/-! ## What is listed as Copied -/

theorem observed_copied {recorded : Option OutputObservation} {file : ScannedOutput}
    (h : (observed recorded file).origin = .copied) : ∃ row, recorded = some row ∧
      row.origin = .copied ∧ row.fingerprint = file.fingerprint ∧
      (observed recorded file).sha256 = row.sha256 := by
  unfold observed at h ⊢
  simp only at h ⊢
  split at h
  · rename_i hsome
    obtain ⟨row, hrow⟩ := Option.isSome_iff_exists.mp hsome
    obtain ⟨hrecorded, hcopied⟩ := Option.filter_eq_some_iff.mp hrow
    simp only [Bool.and_eq_true, decide_eq_true_eq] at hcopied
    exact ⟨row, hrecorded, hcopied.1.1, hcopied.2, by rw [hrow]; rfl⟩
  · cases h

theorem copiedVerified_step (h : Standing trace s) (hcopied : CopiedVerified trace s) {e : Event}
    (hstep : Step s e s') : CopiedVerified (trace ++ [e]) s' := by
  have hold : ∀ path row, s.catalog.outputs path = some row → row.origin = .copied →
      (∀ pass look folder fingerprint, e = .record pass look folder .recorded →
        FoundAs folder path fingerprint → fingerprint = row.fingerprint) →
      ∃ front back id listed, trace ++ [e] = front ++ .finish id (some listed) :: back ∧
        listed.path = path ∧ row.sha256 = listed.sha256 ∧ row.fingerprint = listed.fingerprint ∧
        VerifiedAt front id listed ∧
        ∀ pass look folder fingerprint, .record pass look folder .recorded ∈ back →
          FoundAs folder path fingerprint → fingerprint = listed.fingerprint := by
    intro path row hrow horigin hlast
    obtain ⟨front, back, id, listed, htrace, hpath, hsha, hfingerprint, hverified, hsince⟩ :=
      hcopied path row hrow horigin
    refine ⟨front, back ++ [e], id, listed, by rw [htrace]; simp, hpath, hsha, hfingerprint, hverified,
      fun pass look folder fingerprint hmem hfound => ?_⟩
    rcases List.mem_append.mp hmem with hmem | hmem
    · exact hsince pass look folder fingerprint hmem hfound
    · rw [hlast pass look folder fingerprint (List.mem_singleton.mp hmem).symm hfound, hfingerprint]
  intro path row hrow horigin
  rcases outputs_step hstep with ⟨houtputs, hrecord, -⟩ |
    ⟨other, kind', channel', old, rfl, holdRow, houtputs⟩ | ⟨pass, walk, rfl, hscan⟩ |
    ⟨id, copy, fingerprint, observation, rfl, hcopy, rfl, hstorage, rfl, houtputs⟩
  · rw [houtputs] at hrow
    exact hold path row hrow horigin fun pass look folder _ he => absurd he (hrecord pass look folder)
  · rw [houtputs] at hrow
    rcases update_eq_some hrow with ⟨rfl, hnew⟩ | ⟨-, hkept⟩
    · cases hnew
      rw [← (h.rows other old holdRow).1] at holdRow
      exact hold old.path old holdRow horigin fun _ _ _ _ he => by cases he
    · exact hold path row hkept horigin fun _ _ _ _ he => by cases he
  · rcases applyScan_row hscan hrow with ⟨old, holdRow, rfl, hmissing⟩ |
      ⟨files, unreadable, file, hfolder, hfile, hpath, rfl, -⟩
    · refine hold path old holdRow horigin fun _ _ _ fingerprint he hfound => ?_
      cases he
      exact absurd hfound (hmissing fingerprint)
    · obtain ⟨old, holdRow, holdOrigin, hsame, hsha⟩ := observed_copied horigin
      have hprint : (observed (s.catalog.outputs path) file).fingerprint = old.fingerprint := hsame.symm
      rw [hsha, hprint]
      refine hold path old holdRow holdOrigin fun _ _ _ fingerprint he hfound => ?_
      cases he
      obtain ⟨_, _, hfolder', other, hother, hotherPath, rfl⟩ := hfound
      rw [hfolder] at hfolder'
      cases hfolder'
      rw [hsame]
      exact walk.fingerprint_unique hfolder hother hfile (by rw [hotherPath, hpath])
  · rw [houtputs] at hrow
    rcases update_eq_some hrow with ⟨rfl, hnew⟩ | ⟨-, hkept⟩
    · cases hnew
      obtain ⟨-, source, hbegun, hsha⟩ := h.begun copy hcopy
      exact ⟨trace, [], copy.operationId, _, rfl, rfl, rfl, rfl,
        ⟨copy.storageOperationId, source, hbegun, hsha, h.transferred _ hstorage⟩,
        fun _ _ _ _ hmem => absurd hmem List.not_mem_nil⟩
    · exact hold path row hkept horigin fun _ _ _ _ he => by cases he

end PlateVault.Output
