import PlateVault.Apply.Catalog
import PlateVault.Apply.Run
import PlateVault.Lib.Runs

/-!
# A Project across its Applies

The Project beside the folder its unsettled Apply made, which no journal names where file IDs are
not stable. Between any two effects other programs may change the folders. `Inv` says what holds
then of the manifests, `Tail` what holds once an Apply may install its View.
-/

namespace PlateVault

/-- A Project, and the file ID of the folder its unsettled Apply made. -/
structure TrackedProject where
  project : ProjectState
  built : Option String

/-- The folder `fileId` is at `name`. -/
def ProjectState.Holds (state : ProjectState) (name : Name) (fileId : String) : Prop :=
  ∃ folder, state.entry name = some folder ∧ folder.isDir = true ∧ folder.fileId = fileId

namespace TrackedProject

/-- The folder the Apply made is at `name`. -/
def BuiltAt (s : TrackedProject) (name : Name) : Prop :=
  ∃ fileId, s.built = some fileId ∧ s.project.Holds name fileId

/-- It left `View (building)/`. -/
def Out (s : TrackedProject) : Prop := ∃ name, name ≠ .building ∧ s.BuiltAt name

def Cleared (s : TrackedProject) : Prop :=
  ∀ manifest ∈ s.project.manifests, manifest.state ≠ .previous

/-- The installed View can be recorded: no manifest is previous, and the commit is admitted. -/
def Committable (s : TrackedProject) : Prop :=
  s.Cleared ∧ (CatalogWrite.commitApply.run s.project).isSome = true

/-! ## Steps -/

def made : (effect : Effect) → effect.Answer → Option String
  | .createDir _, .ok folder => some folder.fileId
  | _, _ => none

/-- The folder tracked after an effect: a reservation has none yet. -/
def tracked (built : Option String) : (effect : Effect) → effect.Answer → Option String
  | .createDir .building, .ok folder => some folder.fileId
  | .catalog (.reserveApply ..), true => none
  | _, _ => built

/-- An effect tracks the folder; a new folder is not the one tracked. -/
def Tracks (s : TrackedProject) (effect : Effect) (answer : effect.Answer)
    (next : TrackedProject) : Prop :=
  (∀ fileId, made effect answer = some fileId → s.built ≠ some fileId) ∧
    next.built = tracked s.built effect answer

structure Outside (s next : TrackedProject) : Prop where
  built : next.built = s.built
  manifests : next.project.manifests = s.project.manifests
  journal : next.project.journal = s.project.journal
  volume : next.project.volume = s.project.volume

/-- What recovery needs to tell the build at `View/` from another folder. -/
def Tellable (s : TrackedProject) : Prop :=
  s.project.volume.fileIdsStable = true ∨ s.project.entry .view = none ∨ s.BuiltAt .view

structure Leaves (s next : TrackedProject) : Prop where
  /-- They don't free `View (previous)/`. -/
  previous : (s.project.entry .previous).isSome = true →
    (next.project.entry .previous).isSome = true
  /-- They don't touch the folder it made. -/
  built : ∀ name, next.BuiltAt name ↔ s.BuiltAt name
  /-- Without stable file IDs they put no folder at `View/`. -/
  tellable : s.Tellable → next.Tellable

structure Conditions where
  /-- What other programs do between two effects. -/
  others : TrackedProject → TrackedProject → Prop
  /-- Where a recovery starts. -/
  recovers : TrackedProject → Prop

def Conditions.any : Conditions := ⟨Outside, fun _ => True⟩

/-- The conditions under which the manifests stay committable. -/
def Conditions.met : Conditions where
  others s next := Outside s next ∧ (s.project.journal.isSome = true → Leaves s next)
  recovers := Tellable

variable (c : Conditions)

def step (s : TrackedProject) (effect : Effect) (answer : effect.Answer)
    (next : TrackedProject) : Prop :=
  ∃ between, c.others s between ∧ Effect.step between.project effect answer next.project ∧
    between.Tracks effect answer next

inductive Event
  | outside
  | apply (entries polls : Nat)
  | recover
  | reviewed
  deriving DecidableEq, Repr

inductive Happens : TrackedProject → Event → TrackedProject → Prop
  | outside {s next : TrackedProject} : c.others s next → Happens s .outside next
  | apply {s next : TrackedProject} (entries polls : Nat) :
      Prog.Stops (step c) (ApplyProg.apply entries polls) s next →
      Happens s (.apply entries polls) next
  | recover {s next : TrackedProject} {journal : ApplyJournal} :
      s.project.journal = some journal → c.recovers s →
      Prog.Stops (step c) (ApplyProg.recover journal.expected journal.phase) s next →
      Happens s .recover next
  | reviewed {s next : TrackedProject} :
      Prog.Stops (step c) ApplyProg.reviewed s next → Happens s .reviewed next

/-! ## Invariants -/

def identityOf (volume : VolumeIdentity) (fileId : String) : FileIdentity where
  volume
  fileId := if volume.fileIdsStable then some fileId else none

structure Inv (s : TrackedProject) : Prop where
  unique : uniqueStates s.project.manifests = true
  generations : (s.project.manifests.map ViewManifest.generation).Nodup
  building : ∀ journal, s.project.journal = some journal →
    journal.phase.rank < ApplyPhase.manifestCommitted.rank →
    { generation := journal.generation, state := .building } ∈ s.project.manifests
  cleared : ∀ journal, s.project.journal = some journal →
    journal.phase.rank < ApplyPhase.manifestCommitted.rank →
    ApplyPhase.newInstalled.rank ≤ journal.phase.rank ∨ s.Out → s.Cleared
  recorded : ∀ journal, s.project.journal = some journal →
    ApplyPhase.building.rank ≤ journal.phase.rank → ∃ fileId, s.built = some fileId ∧
      journal.expected.building = some (identityOf s.project.volume fileId)

structure Tail (s : TrackedProject) : Prop extends Inv s where
  made : ∀ journal, s.project.journal = some journal →
    ApplyPhase.building.rank ≤ journal.phase.rank
  clear : ∀ journal, s.project.journal = some journal →
    journal.phase.rank < ApplyPhase.manifestCommitted.rank → s.Cleared

/-- The catalog stays, and the build is not let out of `View (building)/`. -/
structure Quiet (s next : TrackedProject) : Prop where
  built : next.built = s.built
  manifests : next.project.manifests = s.project.manifests
  journal : next.project.journal = s.project.journal
  volume : next.project.volume = s.project.volume
  out : next.Out → s.Out

variable {c} {s next : TrackedProject}

theorem Quiet.cleared (h : Quiet s next) (hcleared : s.Cleared) : next.Cleared := by
  unfold Cleared
  rw [h.manifests]
  exact hcleared

theorem Inv.quiet (hs : Inv s) (h : Quiet s next) : Inv next where
  unique := h.manifests ▸ hs.unique
  generations := h.manifests ▸ hs.generations
  building journal hjournal hphase := by
    rw [h.manifests]
    exact hs.building journal (h.journal ▸ hjournal) hphase
  cleared journal hjournal hphase hout :=
    h.cleared (hs.cleared journal (h.journal ▸ hjournal) hphase (hout.imp_right h.out))
  recorded journal hjournal hphase := by
    rw [h.built, h.volume]
    exact hs.recorded journal (h.journal ▸ hjournal) hphase

theorem Leaves.quiet (houtside : Outside s next) (h : Leaves s next) : Quiet s next where
  built := houtside.built
  manifests := houtside.manifests
  journal := houtside.journal
  volume := houtside.volume
  out := fun ⟨name, hname, hbuilt⟩ => ⟨name, hname, (h.built name).mp hbuilt⟩

theorem Inv.others (hs : Inv s) (h : Conditions.met.others s next) : Inv next := by
  obtain ⟨houtside, hleaves⟩ := h
  cases hjournal : s.project.journal with
  | some journal => exact hs.quiet ((hleaves (by simp [hjournal])).quiet houtside)
  | none =>
    have hnone : next.project.journal = none := houtside.journal.trans hjournal
    exact ⟨houtside.manifests ▸ hs.unique, houtside.manifests ▸ hs.generations,
      by simp [hnone], by simp [hnone], by simp [hnone]⟩

theorem Tail.others (hs : Tail s) (h : Conditions.met.others s next) : Tail next where
  toInv := hs.toInv.others h
  made journal hjournal := hs.made journal (h.1.journal ▸ hjournal)
  clear journal hjournal hphase := by
    unfold Cleared
    rw [h.1.manifests]
    exact hs.clear journal (h.1.journal ▸ hjournal) hphase

/-! ## Effects -/

def writes : Effect → Bool
  | .catalog _ => true
  | _ => false

/-- An effect that writes no row and neither makes `View (building)/` nor moves it away. -/
def harmless : Effect → Bool
  | .catalog _ => false
  | .createDir name => name ≠ .building
  | .renameNoReplace source _ | .renameOver source _ | .persistFile source _ => source ≠ .building
  | _ => true

/-- The rows stay, and the folder `built` is let out of `View (building)/` no more than it was. -/
structure Calm (built : Option String) (p q : ProjectState) : Prop where
  manifests : q.manifests = p.manifests
  journal : q.journal = p.journal
  volume : q.volume = p.volume
  out : ∀ fileId, built = some fileId → (∃ name, name ≠ .building ∧ q.Holds name fileId) →
    ∃ name, name ≠ .building ∧ p.Holds name fileId

section Calm

variable {built : Option String} {p q r : ProjectState} {name source target : Name}

theorem Calm.refl : Calm built p p := ⟨rfl, rfl, rfl, fun _ _ h => h⟩

theorem Calm.trans (h : Calm built p q) (h' : Calm built q r) : Calm built p r where
  manifests := h'.manifests.trans h.manifests
  journal := h'.journal.trans h.journal
  volume := h'.volume.trans h.volume
  out fileId hbuilt := h.out fileId hbuilt ∘ h'.out fileId hbuilt

theorem calm_put_none : Calm built p (p.put name none) where
  manifests := rfl
  journal := rfl
  volume := rfl
  out := by
    rintro fileId - ⟨other, hother, folder, hfolder, hfile⟩
    refine ⟨other, hother, folder, ?_, hfile⟩
    by_cases hname : other = name
    · subst hname
      simp at hfolder
    · simpa [hname] using hfolder

theorem calm_put_some {entry : Entry}
    (hentry : entry.isDir = true → built ≠ some entry.fileId) :
    Calm built p (p.put name (some entry)) where
  manifests := rfl
  journal := rfl
  volume := rfl
  out := by
    rintro fileId hbuilt ⟨other, hother, folder, hfolder, hdir, hid⟩
    refine ⟨other, hother, folder, ?_, hdir, hid⟩
    by_cases hname : other = name
    · subst hname
      rw [ProjectState.put_entry, Option.some.injEq] at hfolder
      subst hfolder
      exact absurd (hid ▸ hbuilt) (hentry hdir)
    · simpa [hname] using hfolder

theorem calm_filled (hfilled : p.Filled name q) : Calm built p q := by
  obtain ⟨there, empty, hthere, rfl⟩ := hfilled
  refine ⟨rfl, rfl, rfl, ?_⟩
  rintro fileId - ⟨other, hother, folder, hfolder, hdir, hid⟩
  by_cases hname : other = name
  · subst hname
    rw [ProjectState.put_entry, Option.some.injEq] at hfolder
    subst hfolder
    exact ⟨other, hother, there, hthere, hdir, hid⟩
  · exact ⟨other, hother, folder, by simpa [hname] using hfolder, hdir, hid⟩

theorem calm_move (hsource : source ≠ .building ∨ built = none) :
    Calm built p (p.move source target) where
  manifests := rfl
  journal := rfl
  volume := rfl
  out := by
    intro fileId hbuilt h
    obtain ⟨other, hother, folder, hfolder, hfile⟩ := calm_put_none.out fileId hbuilt h
    by_cases hname : other = target
    · subst hname
      exact ⟨source, hsource.resolve_right (by simp [hbuilt]), folder, by simpa using hfolder, hfile⟩
    · exact ⟨other, hother, folder, by simpa [hname] using hfolder, hfile⟩

end Calm

/-- A harmless effect is calm of any folder but the one it makes, and any effect is of none. -/
theorem calm_of_step {p q : ProjectState} {built : Option String} {effect : Effect}
    {answer : effect.Answer} (hcalm : harmless effect = true ∨ built = none ∧ writes effect = false)
    (hmade : ∀ fileId, made effect answer = some fileId → built ≠ some fileId) (hstep : Effect.step p effect answer q) :
    Calm built p q := by
  cases effect with
  | catalog write => simp [harmless, writes] at hcalm
  | renameNoReplace source target =>
    rcases answer with error | ⟨⟩
    · obtain rfl : q = p := hstep
      exact .refl
    · obtain ⟨-, -, rfl⟩ := hstep
      exact calm_move (by simpa [harmless, writes] using hcalm)
  | renameOver source target =>
    rcases answer with error | ⟨⟩
    · obtain rfl : q = p := hstep
      exact .refl
    · obtain ⟨-, -, rfl⟩ := hstep
      exact calm_move (by simpa [harmless, writes] using hcalm)
  | persistFile source target =>
    rcases answer with error | ⟨⟩
    · obtain rfl : q = p := hstep
      exact .refl
    · obtain ⟨file, copy, -, -, hcopy, -, rfl⟩ := hstep
      exact (calm_put_some (by simp [hcopy])).trans calm_put_none
  | isDir name =>
    rcases answer with error | dir
    · obtain rfl : q = p := hstep
      exact .refl
    · obtain ⟨-, rfl⟩ := hstep
      exact .refl
  | createDir name =>
    rcases answer with error | folder
    · obtain rfl : q = p := hstep
      exact .refl
    · obtain ⟨-, -, rfl⟩ := hstep
      exact calm_put_some fun _ => hmade folder.fileId rfl
  | removePlaceholder name placeholder =>
    obtain rfl | ⟨-, -, rfl⟩ := hstep
    · exact .refl
    · exact calm_put_none
  | moveKeptFiles | settleKeptClaims | placeEntry =>
    obtain rfl | hfilled := hstep
    · exact .refl
    · exact calm_filled hfilled
  | clearPrevious =>
    obtain ⟨-, rfl | rfl⟩ := hstep
    · exact .refl
    · exact calm_put_none
  | clearBuilding | retire =>
    obtain ⟨-, rfl | rfl | hfilled⟩ := hstep
    · exact .refl
    · exact calm_put_none
    · exact calm_filled hfilled
  | removeEmptyPrevious =>
    obtain rfl | ⟨there, -, -, rfl⟩ := hstep
    · exact .refl
    · exact calm_put_none
  | moveForeign =>
    obtain rfl | ⟨left, hleft, rfl | hfilled⟩ := hstep
    · exact .refl
    · exact calm_filled hleft
    · exact (calm_filled hleft).trans (calm_filled hfilled)
  | observe | observeRoot | present =>
    obtain ⟨-, rfl⟩ := hstep
    exact .refl
  | previousGone | readPrevious =>
    obtain ⟨rfl, -⟩ := hstep
    exact .refl
  | stillReserved | canceled | interrupted | makeRoot | snapshotSources | verifyBuilt
  | foreignInventory =>
    obtain rfl : q = p := hstep
    exact .refl

theorem quiet_of_harmless {effect : Effect} {answer : effect.Answer}
    (hharmless : harmless effect = true) (htracks : s.Tracks effect answer next)
    (hstep : Effect.step s.project effect answer next.project) : Quiet s next := by
  have hbuilt : next.built = s.built := by
    rw [htracks.2]
    cases effect with
    | catalog => cases hharmless
    | createDir name => cases name <;> cases answer <;> first | rfl | cases hharmless
    | _ => rfl
  have hcalm := calm_of_step (.inl hharmless) htracks.1 hstep
  refine ⟨hbuilt, hcalm.manifests, hcalm.journal, hcalm.volume, ?_⟩
  rintro ⟨name, hname, fileId, hid, hholds⟩
  rw [hbuilt] at hid
  obtain ⟨other, hother, hthere⟩ := hcalm.out fileId hid ⟨name, hname, hholds⟩
  exact ⟨other, hother, fileId, hid, hthere⟩

/-! ## Writes -/

theorem Inv.of_settled (hunique : uniqueStates next.project.manifests = true)
    (hgenerations : (next.project.manifests.map ViewManifest.generation).Nodup)
    (hjournal : next.project.journal = none) : Inv next :=
  ⟨hunique, hgenerations, by simp [hjournal], by simp [hjournal], by simp [hjournal]⟩

theorem Tail.of_settled (hunique : uniqueStates next.project.manifests = true)
    (hgenerations : (next.project.manifests.map ViewManifest.generation).Nodup)
    (hjournal : next.project.journal = none) : Tail next :=
  { Inv.of_settled hunique hgenerations hjournal with
    made := by simp [hjournal]
    clear := by simp [hjournal] }

theorem Inv.retire (hs : Inv s) (hbuilt : next.built = s.built)
    (hrun : CatalogWrite.retirePreviousView.run s.project = some next.project) :
    Inv next ∧ next.Cleared ∧ next.project.journal = s.project.journal := by
  obtain ⟨hunique, hnext⟩ := CatalogWrite.run_retire hrun
  have hjournal : next.project.journal = s.project.journal := by rw [hnext]
  have hcleared : next.Cleared := by
    intro manifest hmem
    rw [hnext] at hmem
    obtain ⟨old, -, rfl⟩ := CatalogWrite.mem_restated.mp hmem
    split <;> simp_all
  refine ⟨⟨hunique, ?_, ?_, fun _ _ _ _ => hcleared, ?_⟩, hcleared, hjournal⟩
  · rw [hnext, CatalogWrite.restated_generations]
    exact hs.generations
  · intro journal hsome hphase
    rw [hnext]
    exact CatalogWrite.mem_restated_of_not (hs.building journal (hjournal ▸ hsome) hphase) rfl
  · intro journal hsome hphase
    rw [hbuilt, hnext]
    exact hs.recorded journal (hjournal ▸ hsome) hphase

theorem Inv.advance {phase : ApplyPhase} {expected : Option ExpectedTree} (hs : Inv s)
    (hbuilt : next.built = s.built)
    (hrun : (CatalogWrite.advanceApply phase expected).run s.project = some next.project)
    (hclear : ApplyPhase.newInstalled.rank ≤ phase.rank →
      phase.rank < ApplyPhase.manifestCommitted.rank → s.Cleared)
    (hrecorded : ApplyPhase.building.rank ≤ phase.rank → ∀ journal,
      s.project.journal = some journal → ∃ fileId, s.built = some fileId ∧
        (expected.getD journal.expected).building =
          some (identityOf s.project.volume fileId)) : Inv next := by
  obtain ⟨journal, hjournal, hrank, hnext⟩ := CatalogWrite.run_advance hrun
  have hmanifests : next.project.manifests = s.project.manifests := by rw [hnext]
  have hcleared : s.Cleared → next.Cleared := fun h => by
    unfold Cleared
    rw [hmanifests]
    exact h
  refine ⟨hmanifests ▸ hs.unique, hmanifests ▸ hs.generations, ?_, ?_, ?_⟩
  · intro advanced hadvanced hphase
    rw [hnext, Option.some.injEq] at hadvanced
    subst hadvanced
    rw [hmanifests]
    exact hs.building journal hjournal (hrank.trans_lt hphase)
  · intro advanced hadvanced hphase hout
    rw [hnext, Option.some.injEq] at hadvanced
    subst hadvanced
    rcases hout with hinstalled | ⟨name, hname, fileId, hid, hholds⟩
    · exact hcleared (hclear hinstalled hphase)
    · rw [hnext] at hholds
      exact hcleared (hs.cleared journal hjournal (hrank.trans_lt hphase)
        (.inr ⟨name, hname, fileId, hbuilt ▸ hid, hholds⟩))
  · intro advanced hadvanced hphase
    rw [hnext, Option.some.injEq] at hadvanced
    subst hadvanced
    rw [hbuilt, hnext]
    exact hrecorded hphase journal hjournal

theorem Inv.reserve {previousGone : Bool} {expected : ExpectedTree} (hs : Inv s)
    (hbuilt : next.built = none)
    (hrun : (CatalogWrite.reserveApply previousGone expected).run s.project =
      some next.project) : Inv next ∧ ∃ journal, next.project.journal = some journal ∧
        journal.phase = .reserved := by
  obtain ⟨generation, hjournal, hmem, hunique, hgenerations⟩ :=
    CatalogWrite.run_reserve hrun hs.generations
  have hout : ¬ next.Out := by
    rintro ⟨name, -, fileId, hid, -⟩
    rw [hbuilt] at hid
    cases hid
  refine ⟨⟨hunique, hgenerations, ?_, ?_, ?_⟩, _, hjournal, rfl⟩
  · intro journal hsome _
    rw [hjournal, Option.some.injEq] at hsome
    subst hsome
    exact hmem
  · intro journal hsome _ hinstalled
    rw [hjournal, Option.some.injEq] at hsome
    subst hsome
    exact absurd hinstalled (by simp [hout, ApplyPhase.rank])
  · intro journal hsome hphase
    rw [hjournal, Option.some.injEq] at hsome
    subst hsome
    exact absurd hphase (by simp [ApplyPhase.rank])

/-! ## The tail of an Apply -/

/-- An effect that neither reserves an Apply nor makes its build. -/
def tailOk : Effect → Bool
  | .catalog (.reserveApply ..) => false
  | .catalog (.advanceApply _ (some _)) => false
  | .createDir name => name ≠ .building
  | _ => true

theorem Tail.committable (hs : Tail s) {journal : ApplyJournal}
    (hjournal : s.project.journal = some journal)
    (hphase : journal.phase.rank < ApplyPhase.manifestCommitted.rank) : s.Committable :=
  ⟨hs.clear journal hjournal hphase, CatalogWrite.commit_admitted hjournal hphase hs.unique
    hs.generations (hs.building journal hjournal hphase) (hs.clear journal hjournal hphase)⟩

theorem Tail.rows (hs : Tail s) (hbuilt : next.built = s.built)
    (hmanifests : next.project.manifests = s.project.manifests)
    (hjournal : next.project.journal = s.project.journal)
    (hvolume : next.project.volume = s.project.volume) : Tail next := by
  have hclear : ∀ journal, next.project.journal = some journal →
      journal.phase.rank < ApplyPhase.manifestCommitted.rank → next.Cleared := by
    intro journal hsome hphase
    unfold Cleared
    rw [hmanifests]
    exact hs.clear journal (hjournal ▸ hsome) hphase
  refine ⟨⟨hmanifests ▸ hs.unique, hmanifests ▸ hs.generations, ?_,
    fun journal hsome hphase _ => hclear journal hsome hphase, ?_⟩, ?_, hclear⟩
  · intro journal hsome hphase
    rw [hmanifests]
    exact hs.building journal (hjournal ▸ hsome) hphase
  · intro journal hsome hphase
    rw [hbuilt, hvolume]
    exact hs.recorded journal (hjournal ▸ hsome) hphase
  · exact fun journal hsome => hs.made journal (hjournal ▸ hsome)

theorem Tail.advance {phase : ApplyPhase} (hs : Tail s) (hbuilt : next.built = s.built)
    (hrun : (CatalogWrite.advanceApply phase none).run s.project = some next.project) :
    Tail next := by
  have hinv := hs.toInv.advance hbuilt hrun
  obtain ⟨journal, hjournal, hrank, hnext⟩ := CatalogWrite.run_advance hrun
  have hclear : phase.rank < ApplyPhase.manifestCommitted.rank → s.Cleared := fun hphase =>
    hs.clear journal hjournal (hrank.trans_lt hphase)
  refine { hinv (fun _ => hclear) ?_ with made := ?_, clear := ?_ }
  · intro _ found hfound
    exact hs.recorded found hfound (hs.made found hfound)
  · intro advanced hadvanced
    rw [hnext, Option.some.injEq] at hadvanced
    subst hadvanced
    exact (hs.made journal hjournal).trans hrank
  · intro advanced hadvanced hphase
    rw [hnext, Option.some.injEq] at hadvanced
    subst hadvanced
    unfold Cleared
    rw [hnext]
    exact hclear hphase

theorem Tail.commit (hs : Tail s) (hbuilt : next.built = s.built)
    (hrun : CatalogWrite.commitApply.run s.project = some next.project) : Tail next := by
  obtain ⟨journal, hjournal, hnext, hunique, hgenerations, hvolume⟩ := CatalogWrite.run_commit hrun
  have hcommitted : ∀ found, next.project.journal = some found →
      found.phase = .manifestCommitted ∧ found.expected = journal.expected := by
    intro found hfound
    rw [hnext, Option.some.injEq] at hfound
    subst hfound
    exact ⟨rfl, rfl⟩
  refine ⟨⟨hunique, hgenerations ▸ hs.generations, ?_, ?_, ?_⟩, ?_, ?_⟩
  · intro found hfound hphase
    rw [(hcommitted found hfound).1] at hphase
    exact absurd hphase (Nat.lt_irrefl _)
  · intro found hfound hphase
    rw [(hcommitted found hfound).1] at hphase
    exact absurd hphase (Nat.lt_irrefl _)
  · intro found hfound _
    rw [(hcommitted found hfound).2, hbuilt, hvolume]
    exact hs.recorded journal hjournal (hs.made journal hjournal)
  · intro found hfound
    rw [(hcommitted found hfound).1]
    decide
  · intro found hfound hphase
    rw [(hcommitted found hfound).1] at hphase
    exact absurd hphase (Nat.lt_irrefl _)

theorem Tail.of_write {write : CatalogWrite} (htail : tailOk (.catalog write) = true) (hs : Tail s)
    (hbuilt : next.built = s.built) (hrun : write.run s.project = some next.project) :
    Tail next := by
  cases write with
  | reserveApply => cases htail
  | advanceApply phase expected =>
    cases expected with
    | some => cases htail
    | none => exact hs.advance hbuilt hrun
  | recordApplyBuild => exact hs.advance hbuilt (CatalogWrite.run_build ▸ hrun)
  | recordApplyWait =>
    have heq := CatalogWrite.run_wait hrun
    exact hs.rows hbuilt (by rw [heq]) (by rw [heq]) (by rw [heq])
  | discardApply =>
    obtain ⟨hunique, hjournal, hgenerations⟩ := CatalogWrite.run_discard hrun
    exact .of_settled hunique (hgenerations ▸ hs.generations) hjournal
  | commitApply => exact hs.commit hbuilt hrun
  | settleApply =>
    obtain ⟨hunique, hjournal, hgenerations⟩ := CatalogWrite.run_settle hrun hs.unique
    exact .of_settled hunique (hgenerations ▸ hs.generations) hjournal
  | retirePreviousView =>
    obtain ⟨hinv, hcleared, hjournal⟩ := hs.toInv.retire hbuilt hrun
    exact { hinv with
      made := fun journal hsome => hs.made journal (hjournal ▸ hsome)
      clear := fun _ _ _ => hcleared }

theorem Tail.of_step {effect : Effect} (htail : tailOk effect = true) (answer : effect.Answer)
    (s next : TrackedProject) (hs : Tail s) (hstep : step Conditions.met s effect answer next) :
    Tail next := by
  obtain ⟨between, hothers, heffect, htracks⟩ := hstep
  have hbetween := hs.others hothers
  have hbuilt : next.built = between.built := by
    rw [htracks.2]
    cases effect with
    | catalog write => cases write <;> cases answer <;> first | rfl | cases htail
    | createDir name => cases name <;> cases answer <;> first | rfl | cases htail
    | _ => rfl
  cases hwrites : writes effect with
  | false =>
    have hcalm : Calm none between.project next.project :=
      calm_of_step (.inr ⟨rfl, hwrites⟩) (by simp) heffect
    exact hbetween.rows hbuilt hcalm.manifests hcalm.journal hcalm.volume
  | true =>
    cases effect with
    | catalog write =>
      cases answer with
      | false =>
        have heq : next.project = between.project := heffect
        exact hbetween.rows hbuilt (by rw [heq]) (by rw [heq]) (by rw [heq])
      | true => exact hbetween.of_write htail hbuilt heffect
    | _ => cases hwrites

end TrackedProject

end PlateVault
