import PlateVault.Output.Listed

/-!
# Copies that stay listed

A copy stays listed while its name is one the walk finds and each pass that records could fingerprint
the listed copies it looked up.
-/

namespace PlateVault.Output

open Inventory (IoKind Metadata)

variable {trace : List Event} {s s' : State}

/-- A path as the walk spells it, none of its names clutter. -/
def WalkName (path : Text) : Prop :=
  ∃ names, names ≠ [] ∧ path = fromPath names ∧ ∀ name ∈ names, ValidName name ∧ clutter name = false

/-- Copies take names the walk gives, and a pass fingerprints every listed copy it finds. -/
def Clean (s : State) : Event → Prop
  | .begin _ _ name _ => WalkName name
  | .record _ look _ .recorded => ∀ names row, (∀ name ∈ names, ValidName name) →
      s.catalog.outputs (fromPath names) = some row → row.origin = .copied →
      (∃ metadata, look.lstat names = .ok metadata ∧ metadata.isFile = true) → look.probe names ≠ none
  | _ => True

abbrev CleanRuns (trace : List Event) (s : State) : Prop :=
  Run (fun s e s' => Step s e s' ∧ Clean s e) State.start trace s

theorem CleanRuns.runs (h : CleanRuns trace s) : Runs trace s :=
  h.mono fun _ _ _ hstep => hstep.1

structure Named (trace : List Event) : Prop where
  begun : ∀ id storage name source, .begin id storage name source ∈ trace → WalkName name
  listed : ∀ id listed, .finish id (some listed) ∈ trace → WalkName listed.path

theorem named_step (h : Standing trace s) (hnamed : Named trace) {e : Event} (hstep : Step s e s')
    (hclean : Clean s e) : Named (trace ++ [e]) where
  begun := by
    intro id storage name source hmem
    rcases List.mem_append.mp hmem with hmem | hmem
    · exact hnamed.begun id storage name source hmem
    · rw [← List.mem_singleton.mp hmem] at hclean
      exact hclean
  listed := by
    intro id listed hmem
    rcases List.mem_append.mp hmem with hmem | hmem
    · exact hnamed.listed id listed hmem
    · have he := List.mem_singleton.mp hmem
      rcases outputs_step hstep with ⟨-, -, -, hfinish⟩ | ⟨_, _, _, _, rfl, -⟩ | ⟨_, _, rfl, -⟩ |
        ⟨id, copy, fingerprint, observation, rfl, hcopy, -, -, rfl, -⟩
      · exact absurd he.symm (hfinish id listed)
      · cases he
      · cases he
      · cases he
        obtain ⟨-, source, hbegun, -⟩ := h.begun copy hcopy
        exact hnamed.begun _ _ _ _ hbegun

/-! ## What a pass finds of a kept file -/

theorem components_fromPath_below {folder names : List Text} (hbelow : folder <+: names)
    (hne : names ≠ []) (hvalid : ∀ name ∈ names, ValidName name) :
    components (fromPath folder) <+: components (fromPath names) := by
  rw [components_fromPath hne hvalid]
  by_cases hroot : folder = []
  · subst hroot
    exact List.nil_prefix
  · rw [components_fromPath hroot fun name hname => hvalid name (hbelow.subset hname)]
    exact hbelow.map _

theorem PassWalk.found_of_keeps (walk : PassWalk) {names : List Text} (hne : names ≠ [])
    (hnames : ∀ name ∈ names, ValidName name ∧ clutter name = false)
    {fingerprint : Option ObservationFingerprint} (hkeeps : Keeps walk.look names fingerprint) :
    ¬ NotFoundBy (fromPath names) walk.folder := by
  obtain ⟨view, tree, hwalk, hmade⟩ := walk.made
  have hclean := fun name hname => (hnames name hname).2
  have hvalid := fun name hname => (hnames name hname).1
  rw [hmade]
  rcases walkOutput_covers hne hclean hkeeps hwalk with rfl | ⟨found, rfl, hcovered⟩
  · exact id
  · rintro ⟨hfiles, hunreadable⟩
    rcases hcovered with ⟨file, hfile, rfl⟩ | ⟨folder, hfolder, hbelow⟩ | ⟨_, hpending, -⟩
    · exact hfiles _ (List.mem_map_of_mem hfile) rfl
    · exact hunreadable _ (List.mem_map_of_mem hfolder) (components_fromPath_below hbelow hne hvalid)
    · cases hpending

theorem PassWalk.file_at (walk : PassWalk) {names : List Text} (hne : names ≠ [])
    (hvalid : ∀ name ∈ names, ValidName name) {files : List ScannedOutput} {unreadable : List Text}
    (hfolder : walk.folder = .walked files unreadable) {file : ScannedOutput} (hfile : file ∈ files)
    (hpath : file.path = fromPath names) : file.fingerprint = walk.look.probe names ∧
      ∃ metadata, walk.look.lstat names = .ok metadata ∧ metadata.isFile = true := by
  obtain ⟨names', hne', hvalid', hpath', hprobe, hlook⟩ := walk.files hfolder file hfile
  have hsame : names' = names := by
    apply fromPath_injective hne' hne hvalid' hvalid
    rw [← hpath', hpath]
  subst hsame
  exact ⟨hprobe, hlook⟩

theorem observed_of_same {row : OutputObservation} {file : ScannedOutput} (horigin : row.origin = .copied)
    (hsome : file.fingerprint ≠ none) (hsame : file.fingerprint = row.fingerprint) :
    (observed (some row) file).origin = .copied ∧ (observed (some row) file).sha256 = row.sha256 := by
  have hcopied : (Option.filter (fun recorded : OutputObservation =>
      recorded.origin = .copied && file.fingerprint.isSome && recorded.fingerprint = file.fingerprint)
      (some row)) = some row := by
    apply Option.filter_eq_some_iff.mpr
    simp [horigin, hsame.symm, Option.isSome_iff_ne_none.mpr hsome]
  unfold observed
  simp only [hcopied]
  exact ⟨rfl, rfl⟩

/-! ## Its steps -/

def CopiedAs (s : State) (listed : OutputObservation) : Prop :=
  ∃ row, s.catalog.outputs listed.path = some row ∧ row.origin = .copied ∧
    row.sha256 = listed.sha256 ∧ row.fingerprint = listed.fingerprint

theorem copiedAs_step (h : Standing trace s) {e : Event} (hstep : Step s e s') (hclean : Clean s e)
    {listed : OutputObservation} (hname : WalkName listed.path)
    (hkeeps : ∀ pass look folder, e = .record pass look folder .recorded →
      Keeps look (fileNames listed.path) listed.fingerprint)
    (hcopied : CopiedAs s listed) : CopiedAs s' listed := by
  obtain ⟨row, hrow, horigin, hsha, hfingerprint⟩ := hcopied
  rcases outputs_step hstep with ⟨houtputs, -⟩ | ⟨path, kind, channel, old, rfl, hold, houtputs⟩ |
    ⟨pass, walk, rfl, hscan⟩ | ⟨id, copy, fingerprint, observation, rfl, hcopy, -, -, rfl, houtputs⟩
  · exact ⟨row, by rw [houtputs, hrow], horigin, hsha, hfingerprint⟩
  · by_cases hpath : listed.path = old.path
    · have hsame : row = old := by
        rw [hpath, (h.rows path old hold).1, hold] at hrow
        exact (Option.some.inj hrow).symm
      subst hsame
      exact ⟨{ row with kind, channel }, by rw [houtputs, hpath, Function.update_self], horigin, hsha,
        hfingerprint⟩
    · exact ⟨row, by rw [houtputs, Function.update_of_ne hpath, hrow], horigin, hsha, hfingerprint⟩
  · obtain ⟨names, hne, hpath, hnames⟩ := hname
    have hvalid := fun name hname => (hnames name hname).1
    have hkept := hkeeps pass _ _ rfl
    rw [hpath, fileNames_fromPath hne hvalid] at hkept
    rw [hpath] at hrow
    rcases applyScan_keeps h hscan hrow (walk.found_of_keeps hne hnames hkept) with
      hunread | ⟨files, unreadable, file, hfolder, hfile, hfilePath, hfound⟩
    · exact ⟨{ row with state := .unreadable }, by rw [hpath, hunread], horigin, hsha, hfingerprint⟩
    · obtain ⟨hprobe, hlook⟩ := walk.file_at hne hvalid hfolder hfile hfilePath
      have hsome : walk.look.probe names ≠ none := hclean names row hvalid hrow horigin hlook
      have hsame : walk.look.probe names = row.fingerprint := by
        rw [hfingerprint]
        exact hkept.probed.resolve_right hsome
      obtain ⟨horigin', hsha'⟩ := observed_of_same horigin
        (hprobe ▸ hsome : file.fingerprint ≠ none) (hprobe ▸ hsame)
      have hprint : (observed (some row) file).fingerprint = listed.fingerprint := by
        rw [← hfingerprint, ← hsame, ← hprobe]
        rfl
      exact ⟨observed (some row) file, by rw [hpath, hfound], horigin', by rw [hsha', hsha], hprint⟩
  · have hne : listed.path ≠ copy.planned.path := by
      intro hpath
      rw [hpath, h.free copy hcopy] at hrow
      cases hrow
    exact ⟨row, by rw [houtputs, Function.update_of_ne hne, hrow], horigin, hsha, hfingerprint⟩

theorem staysCopied_step (h : Standing trace s) (hnamed : Named trace) (hstays : StaysCopied trace s)
    {e : Event} (hstep : Step s e s') (hclean : Clean s e) : StaysCopied (trace ++ [e]) s' := by
  intro front back id listed htrace hkeeps
  rcases snoc_split htrace with ⟨rfl, rfl, rfl⟩ | ⟨rest, rfl, hfront⟩
  · rcases outputs_step hstep with ⟨-, -, -, hfinish⟩ | ⟨_, _, _, _, he, -⟩ | ⟨_, _, he, -⟩ |
      ⟨_, copy, fingerprint, observation, he, hcopy, -, -, hobservation, houtputs⟩
    · exact absurd rfl (hfinish id listed)
    · cases he
    · cases he
    · cases he
      refine ⟨listed, by rw [houtputs, Function.update_self], ?_, rfl, rfl⟩
      rw [hobservation]
      exact (h.begun copy hcopy).1
  · have hname : WalkName listed.path := by
      apply hnamed.listed id
      rw [hfront]
      exact List.mem_append_right _ List.mem_cons_self
    refine copiedAs_step h hstep hclean hname (fun pass look folder he => ?_) ?_
    · exact hkeeps pass look folder (List.mem_append_right _ (List.mem_singleton.mpr he.symm))
    · exact hstays front rest id listed hfront fun pass look folder hmem =>
        hkeeps pass look folder (List.mem_append_left _ hmem)

/-! ## Runs -/

structure Promised (trace : List Event) (s : State) : Prop where
  standing : Standing trace s
  named : Named trace
  verified : CopiedVerified trace s
  stays : StaysCopied trace s
  details : KeepsDetails trace s

theorem promised_start : Promised [] State.start where
  standing := standing_start
  named := ⟨fun _ _ _ _ hmem => absurd hmem List.not_mem_nil, fun _ _ hmem => absurd hmem List.not_mem_nil⟩
  verified := fun _ _ hrow => by cases hrow
  stays := fun _ _ _ _ htrace => by simp at htrace
  details := fun _ _ _ _ _ htrace => by simp at htrace

theorem promised_step (h : Promised trace s) {e : Event} (hstep : Step s e s') (hclean : Clean s e) :
    Promised (trace ++ [e]) s' where
  standing := standing_step h.standing hstep
  named := named_step h.standing h.named hstep hclean
  verified := copiedVerified_step h.standing h.verified hstep
  stays := staysCopied_step h.standing h.named h.stays hstep hclean
  details := keepsDetails_step h.standing h.details hstep

/-! ## One copy and the pass after it -/

def shaA : Text := List.replicate 64 'a'

def stackVolume : VolumeIdentity where
  filesystem := "apfs"
  stableId := some "stack"
  fileIdsStable := true
  case := .insensitive
  normalization := .insensitive

def printA : ObservationFingerprint := ⟨⟨stackVolume, some "12"⟩, 4, 0, none⟩

def sourceA : EntryEvidence where
  path := .host ⟨true, [.normal "a.fits".toList]⟩
  root := none
  kind := .file
  fingerprint := printA
  sha256 := some shaA

def folderMeta : Metadata := ⟨false, true, false, ⟨none, none, none⟩, 0, none⟩

def fileMeta : Metadata := ⟨false, false, true, ⟨none, none, none⟩, 4, none⟩

def missing : Inventory.IoError := ⟨.notFound, "not found"⟩

/-- `Output/` holding one readable file, as every look at it answers. -/
def holding (name : Text) (hname : ValidName name) : Answers where
  project := .ok folderMeta
  lstat := fun path =>
    if path = [] then .ok folderMeta else if path = [name] then .ok fileMeta else .error missing
  readDir := fun folder => if folder = [] then .ok [.ok name] else .error missing
  probe := fun path => if path = [name] then some printA else none
  valid := by
    intro folder entries hread other hother
    split at hread
    · cases hread
      cases List.mem_singleton.mp hother
      exact hname
    · cases hread

def listedA (name : Text) : OutputObservation :=
  { plannedCopy name sourceA none with sizeBytes := 4, fingerprint := some printA }

def copyTrace (name : Text) : List Event :=
  [.begin 1 2 name sourceA, .transfer 2 .copied, .finish 1 (some (listedA name))]

def storageBegun : Uuid → Option (Option ItemOutcome) :=
  Function.update (fun _ => none) 2 (some none)

def storageCopied : Uuid → Option (Option ItemOutcome) :=
  Function.update storageBegun 2 (some (some .copied))

/-- The records while the copy of `name` is in flight. -/
def copying (name : Text) (storage : Uuid → Option (Option ItemOutcome)) : Catalog where
  lifecycle := .open
  operations := [{ id := 1, kind := .copyToOutput, active := true }]
  outputs := fun _ => none
  copies := [{ operationId := 1, storageOperationId := 2, planned := plannedCopy name sourceA none }]
  storage := storage

def copied (name : Text) : Catalog where
  lifecycle := .open
  operations := [{ id := 1, kind := .copyToOutput, active := false }]
  outputs := Function.update (fun _ => none) name (some (listedA name))
  copies := []
  storage := storageCopied

theorem copy_runs {R : State → Event → Prop} {name : Text}
    (hR : ∀ s, ∀ e ∈ copyTrace name, R s e)
    (hbegin : copyToOutput .empty 1 2 name sourceA (.error missing) none none =
      .ok (copying name storageBegun))
    (hfinish : (copying name storageCopied).finishOutputCopy 1 (some printA) =
      .ok (copied name, some (listedA name))) :
    Run (fun s e s' => Step s e s' ∧ R s e) State.start (copyTrace name)
      { catalog := copied name, passes := fun _ => none } := by
  have hstart : Step State.start (.begin 1 2 name sourceA)
      { catalog := copying name storageBegun, passes := fun _ => none } :=
    .begin (fun _ hmem => absurd hmem List.not_mem_nil) rfl hbegin
  have htransfer : Step { catalog := copying name storageBegun, passes := fun _ => none }
      (.transfer 2 .copied) { catalog := copying name storageCopied, passes := fun _ => none } :=
    .transfer .copied rfl
  refine .cons ⟨hstart, hR _ _ ?_⟩ (.cons ⟨htransfer, hR _ _ ?_⟩
    (.cons ⟨.finish hfinish, hR _ _ ?_⟩ (.nil _)))
  · simp [copyTrace]
  · simp [copyTrace]
  · simp [copyTrace]

def passTrace (look : Answers) (tree : Tree) : List Event :=
  [.basis 0, .walk 0 look, .record 0 look (scanned [] (fun _ => true) tree) .recorded]

theorem pass_runs {R : State → Event → Prop} {c c' : Catalog} {look : Answers} {tree : Tree}
    (hwalk : walkOutput look 1 = some tree) (hopen : c.lifecycle = .open) (hidle : c.copyCount.2 = false)
    (hrecord : c.recordOutputScan
      { copies := c.copyCount.1, folder := scanned [] (fun _ => true) tree } = .ok (c', .recorded))
    (hR : ∀ passes, ∀ e ∈ passTrace look tree, R { catalog := c, passes } e) :
    ∃ passes, Run (fun s e s' => Step s e s' ∧ R s e) { catalog := c, passes := fun _ => none }
      (passTrace look tree) { catalog := c', passes } := by
  have hbasis := Step.basis { catalog := c, passes := fun _ => none } 0 hopen hidle
  have hwalked : Step ⟨c, Function.update (fun _ => none) 0 (some ⟨c.copyCount.1, none⟩)⟩
      (.walk 0 look) _ :=
    .walk rfl look ⟨1, [], fun _ => true⟩ hwalk
  have hrecorded := @Step.record ⟨c, Function.update (Function.update (fun _ => none) 0
      (some ⟨c.copyCount.1, none⟩)) 0
    (some ⟨c.copyCount.1, some ⟨look, _, ⟨1, [], fun _ => true⟩, tree, hwalk, rfl⟩⟩)⟩
    0 c.copyCount.1 ⟨look, _, ⟨1, [], fun _ => true⟩, tree, hwalk, rfl⟩ rfl c' .recorded hrecord
  refine ⟨_, .cons ⟨hbasis, hR _ _ ?_⟩ (.cons ⟨hwalked, hR _ _ ?_⟩
    (.cons ⟨hrecorded, hR _ _ ?_⟩ (.nil _)))⟩
  · simp [passTrace]
  · simp [passTrace]
  · simp [passTrace]

theorem validName_a : ValidName ['a'] := by
  unfold ValidName
  decide

def foundA : Tree := .walked { files := [⟨[['a']], 4, some printA⟩], unreadable := [] }

theorem validName_hidden : ValidName ['.', 'a'] := by
  unfold ValidName
  decide

/-! ## Copies in flight -/

/-- Over every run: a copy in flight is of the one operation that is active, its bytes are those it was
begun with, and nothing is listed at its path until it is finished; every row is listed under its own
path, a relative one. -/
theorem copies_in_flight (h : Runs trace s) :
    (∀ copy ∈ s.catalog.copies, ∃ operation ∈ s.catalog.operations,
      operation.id = copy.operationId ∧ operation.kind = .copyToOutput ∧
      ∀ other ∈ s.catalog.operations, other.active = true ↔ other = operation) ∧
    (∀ copy ∈ s.catalog.copies, s.catalog.outputs copy.planned.path = none ∧
      copy.planned.origin = .copied ∧ ∃ source,
        .begin copy.operationId copy.storageOperationId copy.planned.path source ∈ trace ∧
          source.sha256 = copy.planned.sha256) ∧
    ∀ path row, s.catalog.outputs path = some row →
      row.path = path ∧ ∃ parts, relativePath path = .ok parts := by
  have hstanding := h.standing
  refine ⟨fun copy hcopy => ?_, fun copy hcopy => ⟨hstanding.free copy hcopy,
    hstanding.begun copy hcopy⟩, hstanding.rows⟩
  obtain ⟨operation, hmem, hid, hkind, hactive⟩ := hstanding.copying copy hcopy
  refine ⟨operation, hmem, hid, hkind, fun other hother => ⟨fun hrunning => ?_, ?_⟩⟩
  · exact hstanding.oneActive other hother operation hmem hrunning hactive
  · rintro rfl
    exact hactive

theorem copies_in_flight_begun :
    (copying ['a'] storageBegun).copies ≠ [] ∧
      ∀ copy ∈ (copying ['a'] storageBegun).copies,
        (copying ['a'] storageBegun).outputs copy.planned.path = none := by
  have hcopy : copyToOutput .empty 1 2 ['a'] sourceA (.error missing) none none =
      .ok (copying ['a'] storageBegun) := rfl
  have hbegun : Runs [.begin 1 2 ['a'] sourceA]
      { catalog := copying ['a'] storageBegun, passes := fun _ => none } :=
    .cons (.begin (fun _ hmem => absurd hmem List.not_mem_nil) rfl hcopy) (.nil _)
  exact ⟨by simp [copying], fun copy hcopy => ((copies_in_flight hbegun).2.1 copy hcopy).1⟩

end PlateVault.Output
