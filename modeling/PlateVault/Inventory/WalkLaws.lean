import PlateVault.Inventory.Walk

/-!
# What the walk saw

The evidence is the answers the system gave while the scan ran: a folder listed between two checks
that found it and every folder above it unchanged, and entries looked up. Every step of the walk
only adds to what it delivers and excludes (`Grows`), so each entry of a listed folder stays
accounted for until the walk ends.
-/

namespace PlateVault.Inventory

open Library

variable {R : Reader} {disk : Disk R} {ε : Type}

/-! ## Evidence -/

def Folder.chain : Folder → List Folder
  | .root id stamp => [.root id stamp]
  | .child parent name id stamp => .child parent name id stamp :: parent.chain

def Still (disk : Disk R) (folder : Folder) (time : Nat) : Prop :=
  ∃ entry, disk.metadata time folder.relative = .ok entry ∧ entry.link = false ∧
    entry.isDir = true ∧ entry.stamp = folder.stamp

/-- The folder and all above it were found to be the recorded ones, each at a time between. -/
def Unchanged (disk : Disk R) (folder : Folder) (since ended : Nat) : Prop :=
  ∀ above ∈ folder.chain, ∃ time, since ≤ time ∧ time < ended ∧ Still disk above time

structure FolderListing where
  folder : Folder
  names : List Text
  time : Nat

/-- The listing is all of an unchanged folder, before `ended`. -/
structure Listed (disk : Disk R) (ended : Nat) (listing : FolderListing) : Prop where
  read : disk.readDir listing.time listing.folder.relative = .ok ⟨listing.names, none⟩
  before : ∃ since, Unchanged disk listing.folder since listing.time
  after : Unchanged disk listing.folder (listing.time + 1) ended

/-- The entry was looked up before `ended`, and was of this kind. -/
def LookedUp (disk : Disk R) (root : Stamp) (ended : Nat) (path : RelPath) (found : Kind) : Prop :=
  ∃ time entry, time < ended ∧ disk.metadata time path = .ok entry ∧ kind entry path root = found

theorem Unchanged.mono {folder : Folder} {since ended ended' : Nat} (hended : ended ≤ ended')
    (h : Unchanged disk folder since ended) : Unchanged disk folder since ended' := by
  intro above habove
  obtain ⟨time, hsince, htime, hstill⟩ := h above habove
  exact ⟨time, hsince, by omega, hstill⟩

theorem Listed.mono {ended ended' : Nat} (hended : ended ≤ ended') {listing : FolderListing}
    (h : Listed disk ended listing) : Listed disk ended' listing :=
  ⟨h.read, h.before, h.after.mono hended⟩

theorem LookedUp.mono {root : Stamp} {ended ended' : Nat} (hended : ended ≤ ended')
    {path : RelPath} {found : Kind} (h : LookedUp disk root ended path found) :
    LookedUp disk root ended' path found := by
  obtain ⟨time, entry, htime, hentry, hkind⟩ := h
  exact ⟨time, entry, by omega, hentry, hkind⟩

theorem Folder.mem_chain (folder : Folder) : folder ∈ folder.chain := by
  cases folder <;> exact List.mem_cons_self

theorem Folder.chain_trans {folder above top : Folder} (h : above ∈ folder.chain)
    (h' : top ∈ above.chain) : top ∈ folder.chain := by
  induction folder with
  | root id stamp =>
    rw [List.mem_singleton.mp h] at h'
    exact h'
  | child parent name id stamp ih =>
    rcases List.mem_cons.mp h with rfl | hparent
    · exact h'
    · exact List.mem_cons_of_mem _ (ih hparent)

theorem Folder.relative_prefix {folder above : Folder} (h : above ∈ folder.chain) :
    within folder.relative above.relative = true := by
  induction folder with
  | root id stamp =>
    rw [List.mem_singleton.mp h]
    exact within_refl _
  | child parent name id stamp ih =>
    rcases List.mem_cons.mp h with rfl | hparent
    · exact within_refl _
    · exact within.trans (within_iff.mpr (List.prefix_append _ _)) (ih hparent)

/-! ## One step -/

def State.delivered (s : State R) : List (ScanFile R) := s.files ++ s.pending.files

def State.Excludes (s : State R) (path : RelPath) : Prop :=
  ∃ scope ∈ s.incomplete, within path scope = true

def State.Consistent (s : State R) : Prop := ∀ folder ∈ s.excluded, folder.relative ∈ s.incomplete

structure Extends (s s' : State R) : Prop where
  now : s.now ≤ s'.now
  delivered : ∀ file ∈ s.delivered, file ∈ s'.delivered
  incomplete : ∀ scope ∈ s.incomplete, scope ∈ s'.incomplete

theorem Extends.excludes {s s' : State R} (h : Extends s s') {path : RelPath}
    (hpath : s.Excludes path) : s'.Excludes path := by
  obtain ⟨scope, hscope, hwithin⟩ := hpath
  exact ⟨scope, h.incomplete scope hscope, hwithin⟩

/-- A step that counts these entries unsupported, lists no folder, and forgets nothing. -/
structure Grows (disk : Disk R) (root : Stamp) (unsupported : List RelPath) (s s' : State R) :
    Prop where
  now : s.now ≤ s'.now
  delivered : ∀ file ∈ s.delivered, file ∈ s'.delivered
  incomplete : ∀ scope ∈ s.incomplete, scope ∈ s'.incomplete
  excluded : s.Consistent → s'.Consistent
  listed : s'.totals.completeDirectories = s.totals.completeDirectories
  counted : s'.totals.unsupported = s.totals.unsupported + unsupported.length
  lookedUp : ∀ path ∈ unsupported, LookedUp disk root s'.now path (.file .unsupported)

namespace Grows

variable {root : Stamp} {unsupported unsupported' : List RelPath} {s s' s'' : State R}

theorem refl (disk : Disk R) (root : Stamp) (s : State R) : Grows disk root [] s s :=
  ⟨le_refl _, fun _ h => h, fun _ h => h, fun h => h, rfl, rfl, by simp⟩

theorem trans (h : Grows disk root unsupported s s') (h' : Grows disk root unsupported' s' s'') :
    Grows disk root (unsupported ++ unsupported') s s'' where
  now := h.now.trans h'.now
  delivered := fun file hfile => h'.delivered file (h.delivered file hfile)
  incomplete := fun scope hscope => h'.incomplete scope (h.incomplete scope hscope)
  excluded := fun hs => h'.excluded (h.excluded hs)
  listed := h'.listed.trans h.listed
  counted := by
    rw [h'.counted, h.counted, List.length_append]
    omega
  lookedUp := fun path hpath => by
    rcases List.mem_append.mp hpath with hold | hnew
    · exact (h.lookedUp path hold).mono h'.now
    · exact h'.lookedUp path hnew

theorem of_now {now : Nat} (h : s.now ≤ now) : Grows disk root [] s { s with now } :=
  ⟨h, fun _ h => h, fun _ h => h, fun h => h, rfl, rfl, by simp⟩

theorem toExtends (h : Grows disk root unsupported s s') : Extends s s' :=
  ⟨h.now, h.delivered, h.incomplete⟩

end Grows

/-! ## The system calls and the checks -/

section

variable {root : Stamp} {s : State R}

@[simp] theorem ends_tick {Q : Nat → State R → Prop} {E : ε → State R → Prop} :
    (tick : Halting (State R) ε Nat).Ends Q E s ↔ Q s.now { s with now := s.now + 1 } := Iff.rfl

@[simp] theorem ends_symlinkMetadata {path : RelPath} {Q : Except IoError Metadata → State R → Prop}
    {E : ε → State R → Prop} :
    (symlinkMetadata disk path).Ends Q E s ↔
      Q (disk.metadata s.now path) { s with now := s.now + 1 } := Iff.rfl

@[simp] theorem ends_count {f : ScanProgress → ScanProgress} {Q : PUnit → State R → Prop}
    {E : Halt → State R → Prop} :
    (count f).Ends Q E s ↔ Q ⟨⟩ { s with totals := f s.totals } := Iff.rfl

@[simp] theorem ends_countUnreadable {Q : PUnit → State R → Prop} {E : Halt → State R → Prop} :
    (countUnreadable : Walk R PUnit).Ends Q E s ↔
      Q ⟨⟩ { s with totals := { s.totals with unreadable := s.totals.unreadable + 1 } } := Iff.rfl

/-- `Q` of a value returned while only time passed. -/
def Passes (s : State R) (Q : α → Nat → Prop) (a : α) (s' : State R) : Prop :=
  ∃ now, s.now ≤ now ∧ s' = { s with now } ∧ Q a now

theorem stillFolder_ends {folder : Folder} {E : Halt → State R → Prop} :
    (stillFolder disk folder).Ends
      (Passes s fun still now => still = true → s.now < now ∧ Still disk folder s.now) E s := by
  simp only [stillFolder, Halting.ends_bind, ends_symlinkMetadata]
  split
  · next entry hentry =>
    refine ⟨s.now + 1, by omega, rfl, fun hstill => ⟨by omega, entry, hentry, ?_⟩⟩
    simpa [and_assoc] using hstill
  · exact ⟨s.now + 1, by omega, rfl, by simp⟩

theorem changedFolder_ends {folder : Folder} {E : Halt → State R → Prop} :
    (changedFolder disk folder).Ends
      (Passes s fun changed now => (changed = none → Unchanged disk folder s.now now) ∧
        ∀ above ∈ changed, above ∈ folder.chain) E s := by
  induction folder generalizing s with
  | root id stamp =>
    unfold changedFolder
    simp only [Halting.ends_bind, Halting.ends_pure]
    refine stillFolder_ends.mono (fun still s' hpasses => ?_) fun _ _ h => h
    obtain ⟨now, hnow, rfl, hstill⟩ := hpasses
    refine ⟨now, hnow, rfl, fun hnone => ?_, fun above habove => ?_⟩
    · cases still with
      | false => simp at hnone
      | true =>
        obtain ⟨hlt, hfolder⟩ := hstill rfl
        intro above habove
        rw [List.mem_singleton.mp habove]
        exact ⟨s.now, le_refl _, hlt, hfolder⟩
    · cases still with
      | false =>
        rw [← Option.some.inj habove]
        exact List.mem_singleton_self _
      | true => simp at habove
  | child parent name id stamp ih =>
    unfold changedFolder
    simp only [Halting.ends_bind]
    refine ih.mono (fun changed s' hpasses => ?_) fun _ _ h => h
    obtain ⟨now, hnow, rfl, hunchanged, hchain⟩ := hpasses
    cases changed with
    | some changed =>
      refine ⟨now, hnow, rfl, by simp, fun above habove => ?_⟩
      exact List.mem_cons_of_mem _ (hchain above habove)
    | none =>
      simp only [Halting.ends_bind, Halting.ends_pure]
      refine stillFolder_ends.mono (fun still s' hpasses => ?_) fun _ _ h => h
      obtain ⟨now', hnow', rfl, hstill⟩ := hpasses
      refine ⟨now', hnow.trans hnow', rfl, fun hnone => ?_, fun above habove => ?_⟩
      · cases still with
        | false => simp at hnone
        | true =>
          obtain ⟨hlt, hfolder⟩ := hstill rfl
          intro above habove
          rcases List.mem_cons.mp habove with rfl | habove
          · exact ⟨now, hnow, hlt, hfolder⟩
          · exact (hunchanged rfl).mono hnow' above habove
      · cases still with
        | false =>
          rw [← Option.some.inj habove]
          exact List.mem_cons_self
        | true => simp at habove

/-! ## Excluding -/

theorem exclude_ends (disk : Disk R) (root : Stamp) {path : RelPath} {reason : String} {availability : Availability}
    {E : Halt → State R → Prop} :
    (exclude path reason availability).Ends
      (fun _ s' => Grows disk root [] s s' ∧ path ∈ s'.incomplete) E s := by
  refine ⟨⟨le_refl _, fun _ h => h, fun scope h => List.mem_append_left _ h, fun hs folder hfolder =>
    List.mem_append_left _ (hs folder hfolder), rfl, rfl, by simp⟩, ?_⟩
  exact List.mem_append_right _ (List.mem_singleton_self _)

theorem excludeFolder_ends (disk : Disk R) (root : Stamp) {folder : Folder} {reason : String}
    {availability : Availability}
    {E : Halt → State R → Prop} (hs : s.Consistent) :
    (excludeFolder folder reason availability).Ends
      (fun _ s' => Grows disk root [] s s' ∧ folder.relative ∈ s'.incomplete) E s := by
  simp only [excludeFolder, Halting.ends_bind, Halting.ends_get]
  split
  · next hmem => exact ⟨.refl disk root s, hs folder hmem⟩
  · have hmem : folder.relative ∈ s.incomplete ++ [folder.relative] :=
      List.mem_append_right _ (List.mem_singleton_self _)
    refine ⟨⟨le_refl _, fun _ h => h, fun scope h => List.mem_append_left _ h,
      fun hs above habove => ?_, rfl, rfl, by simp⟩, hmem⟩
    rcases List.mem_cons.mp habove with rfl | habove
    · exact hmem
    · exact List.mem_append_left _ (hs above habove)

theorem excludeUnreadable_ends (disk : Disk R) (root : Stamp) {path : RelPath} {reason : String} {E : Halt → State R → Prop} :
    (excludeUnreadable path reason).Ends
      (fun _ s' => Grows disk root [] s s' ∧ path ∈ s'.incomplete) E s := by
  refine ⟨⟨le_refl _, fun _ h => h, fun scope h => List.mem_append_left _ h, fun hs folder hfolder =>
    List.mem_append_left _ (hs folder hfolder), rfl, rfl, by simp⟩, ?_⟩
  exact List.mem_append_right _ (List.mem_singleton_self _)

theorem aboveChanged_ends (root : Stamp) {parent : Folder} {E : Halt → State R → Prop} (hs : s.Consistent) :
    (aboveChanged disk parent).Ends (fun refused s' => Grows disk root [] s s' ∧
      (refused = true → s'.Excludes parent.relative)) E s := by
  simp only [aboveChanged, Halting.ends_bind]
  refine changedFolder_ends.mono (fun changed s' hpasses => ?_) fun _ _ h => h
  obtain ⟨now, hnow, rfl, -, hchain⟩ := hpasses
  cases changed with
  | none => exact ⟨.of_now hnow, by simp⟩
  | some changed =>
    simp only [Halting.ends_bind, Halting.ends_pure, ends_countUnreadable]
    have hcount : Grows disk root [] s
        { s with now, totals := { s.totals with unreadable := s.totals.unreadable + 1 } } :=
      ⟨hnow, fun _ h => h, fun _ h => h, fun h => h, rfl, rfl, by simp⟩
    refine (excludeFolder_ends disk root (hcount.excluded hs)).mono (fun _ s' h => ?_) fun _ _ h => h
    exact ⟨hcount.trans h.1, fun _ => ⟨_, h.2, Folder.relative_prefix (hchain changed rfl)⟩⟩

/-! ## Batches -/

theorem checkCanceled_ends (root : Stamp) :
    (checkCanceled disk : Walk R PUnit).Ends (fun _ s' => Grows disk root [] s s')
      (fun _ s' => Grows disk root [] s s') s := by
  simp only [checkCanceled, Halting.ends_bind, ends_tick]
  split
  · exact Grows.of_now (Nat.le_succ _)
  · exact Grows.of_now (Nat.le_succ _)

theorem checkRoot_ends (root : Stamp) {anchor : Anchor} :
    (checkRoot disk anchor : Walk R PUnit).Ends
      (fun _ s' => Grows disk root [] s s' ∧ s'.pending = s.pending)
      (fun _ s' => Grows disk root [] s s') s := by
  simp only [checkRoot, Halting.ends_bind, ends_symlinkMetadata]
  split
  · exact Grows.of_now (Nat.le_succ _)
  · split
    · split
      · simp only [Halting.ends_bind, ends_tick, Halting.ends_pure]
        split <;> exact Grows.of_now (Nat.le_add_right _ 2)
      · rw [pure_bind, if_neg (by simp)]
        exact Grows.of_now (Nat.le_succ _)
    · exact ⟨Grows.of_now (Nat.le_succ _), rfl⟩

theorem takePending_grows (disk : Disk R) (root : Stamp) (s : State R) :
    Grows disk root [] s { s with
      pending := ⟨[], []⟩
      files := s.files ++ s.pending.files
      issues := s.issues ++ s.pending.issues } :=
  ⟨le_refl _, fun file h => by simpa [State.delivered] using h, fun _ h => h, fun h => h, rfl, rfl,
    by simp⟩

theorem flush_ends (root : Stamp) {anchor : Anchor} :
    (flush disk anchor : Walk R PUnit).Ends
      (fun _ s' => Grows disk root [] s s' ∧ s'.pending.files = [])
      (fun _ s' => Grows disk root [] s s') s := by
  simp only [flush, Halting.ends_bind]
  refine (checkCanceled_ends root).mono (fun _ s₁ h₁ => ?_) fun _ _ h => h
  refine (checkRoot_ends root).mono (fun _ s₂ h₂ => ?_) fun _ _ h => h₁.trans h
  simp only [takePending, Halting.ends_modifyGet, ends_tick]
  have hlast := (h₁.trans h₂.1).trans ((takePending_grows disk root s₂).trans
    (.of_now (Nat.le_succ _)))
  split
  · exact ⟨hlast, rfl⟩
  · exact hlast

/-! ## Entries -/

/-- What becomes of an entry of a listed folder: it is delivered, counted unsupported, lies in an
excluded scope, or is a folder to enter. -/
inductive Accounted (disk : Disk R) (root : Stamp) (unsupported : List RelPath)
    (entered : List Folder) (s : State R) (path : RelPath) : Prop
  | delivered (file : ∃ file ∈ s.delivered, file.relativePath = path)
      (found : ∃ format, LookedUp disk root s.now path (.file format))
  | unsupported (counted : path ∈ unsupported)
  | excluded (excluded : s.Excludes path)
  | entered (folder : ∃ folder ∈ entered, folder.relative = path)
      (found : ∃ stamp, LookedUp disk root s.now path (.folder stamp))

namespace Accounted

variable {root : Stamp} {unsupported unsupported' : List RelPath} {entered entered' : List Folder}
  {s' : State R} {path : RelPath}

theorem later (h : Accounted disk root unsupported entered s path) (hlater : Extends s s') :
    Accounted disk root unsupported entered s' path := by
  cases h with
  | delivered file found =>
    obtain ⟨file, hfile, hpath⟩ := file
    obtain ⟨format, hfound⟩ := found
    exact .delivered ⟨file, hlater.delivered file hfile, hpath⟩ ⟨format, hfound.mono hlater.now⟩
  | unsupported counted => exact .unsupported counted
  | excluded excluded => exact .excluded (hlater.excludes excluded)
  | entered folder found =>
    obtain ⟨stamp, hfound⟩ := found
    exact .entered folder ⟨stamp, hfound.mono hlater.now⟩

theorem mono (hunsupported : ∀ path ∈ unsupported, path ∈ unsupported')
    (hentered : ∀ folder ∈ entered, folder ∈ entered')
    (h : Accounted disk root unsupported entered s path) :
    Accounted disk root unsupported' entered' s path := by
  cases h with
  | delivered file found => exact .delivered file found
  | unsupported counted => exact .unsupported (hunsupported path counted)
  | excluded excluded => exact .excluded excluded
  | entered folder found =>
    obtain ⟨folder, hfolder, hpath⟩ := folder
    exact .entered ⟨folder, hentered folder hfolder, hpath⟩ found

end Accounted

theorem State.Excludes.of_mem {path : RelPath} (h : path ∈ s.incomplete) : s.Excludes path :=
  ⟨path, h, within_refl path⟩

theorem State.Excludes.below {path above : RelPath} (h : s.Excludes above)
    (hpath : within path above = true) : s.Excludes path := by
  obtain ⟨scope, hscope, hwithin⟩ := h
  exact ⟨scope, hscope, within.trans hpath hwithin⟩

def Settled (s : State R) (path : RelPath) : Prop :=
  (∃ file ∈ s.delivered, file.relativePath = path) ∨ s.Excludes path

theorem readUnchanged_ends (root : Stamp) {anchor : Anchor} {parent : Folder} {relative : RelPath}
    {before : Metadata} {format : ImageFormat} {metadata : R.Metadata}
    {E : Halt → State R → Prop} (hs : s.Consistent)
    (hrelative : within relative parent.relative = true) :
    (readUnchanged disk anchor parent relative before format metadata).Ends
      (fun _ s' => Grows disk root [] s s' ∧ Settled s' relative) E s := by
  have hunreadable : ∀ {s₁ : State R} {reason : String}, Grows disk root [] s s₁ →
      (excludeUnreadable relative reason).Ends
        (fun _ s' => Grows disk root [] s s' ∧ Settled s' relative) E s₁ := by
    intro s₁ reason hgrows
    refine (excludeUnreadable_ends disk root).mono (fun _ s' h => ?_) fun _ _ h => h
    exact ⟨hgrows.trans h.1, .inr (.of_mem h.2)⟩
  simp only [readUnchanged, Halting.ends_bind, ends_symlinkMetadata]
  split
  · exact hunreadable (.of_now (Nat.le_succ _))
  · split
    · exact hunreadable (.of_now (Nat.le_succ _))
    · simp only [Halting.ends_bind, ends_tick]
      split
      · exact hunreadable (.of_now (Nat.le_add_right _ 2))
      · simp only [Halting.ends_bind]
        have hnow : Grows disk root [] s { s with now := s.now + 1 + 1 } :=
          .of_now (Nat.le_add_right _ 2)
        refine (aboveChanged_ends root (hnow.excluded hs)).mono (fun refused s₁ h => ?_)
          fun _ _ h => h
        have hgrows := hnow.trans h.1
        split
        · next hrefused => exact ⟨hgrows, .inr ((h.2 hrefused).below hrelative)⟩
        · refine ⟨hgrows.trans ⟨le_refl _, fun file hfile => ?_, fun _ h => h, fun h => h, rfl, rfl,
            by simp⟩, .inl ⟨_, List.mem_append_right _ (List.mem_append_right _
              (List.mem_singleton_self _)), rfl⟩⟩
          rcases List.mem_append.mp hfile with hold | hnew
          · exact List.mem_append_left _ hold
          · exact List.mem_append_right _ (List.mem_append_left _ hnew)

theorem read_ends (root : Stamp) {anchor : Anchor} {parent : Folder} {relative : RelPath}
    {before : Metadata} {format : ImageFormat} {E : Halt → State R → Prop} (hs : s.Consistent)
    (hrelative : within relative parent.relative = true) :
    (read disk anchor parent relative before format).Ends
      (fun _ s' => Grows disk root [] s s' ∧ Settled s' relative) E s := by
  simp only [read, Halting.ends_bind]
  refine (aboveChanged_ends root hs).mono (fun refused s₁ h => ?_) fun _ _ h => h
  split
  · next hrefused => exact ⟨h.1, .inr ((h.2 hrefused).below hrelative)⟩
  · simp only [Halting.ends_bind, ends_tick]
    have hgrows : Grows disk root [] s { s₁ with now := s₁.now + 1 } :=
      h.1.trans (.of_now (Nat.le_succ _))
    have hunreadable : ∀ reason : String, (excludeUnreadable relative reason).Ends
        (fun _ s' => Grows disk root [] s s' ∧ Settled s' relative) E
        { s₁ with now := s₁.now + 1 } := by
      intro reason
      refine (excludeUnreadable_ends disk root).mono (fun _ s' h => ?_) fun _ _ h => h
      exact ⟨hgrows.trans h.1, .inr (.of_mem h.2)⟩
    split
    · refine (readUnchanged_ends root (hgrows.excluded hs) hrelative).mono (fun _ s' h => ?_)
        fun _ _ h => h
      exact ⟨hgrows.trans h.1, h.2⟩
    · exact hunreadable _
    · exact hunreadable _
    · exact hunreadable _

theorem lookUp_ends {anchor : Anchor} {parent : Folder} {name : Text}
    {E : Halt → State R → Prop} (hs : s.Consistent) :
    (lookUp disk anchor parent name).Ends (fun entered s' => ∃ unsupported,
      Grows disk anchor.root.stamp unsupported s s' ∧
      Accounted disk anchor.root.stamp unsupported entered.toList s' (parent.relative ++ [name]) ∧
      ∀ folder ∈ entered, parent ∈ folder.chain) E s := by
  set root := anchor.root.stamp with hroot
  set path := parent.relative ++ [name] with hpath
  have hbelow : within path parent.relative = true := within_iff.mpr (List.prefix_append _ _)
  have hnow : Grows disk root [] s { s with now := s.now + 1 } := .of_now (Nat.le_succ _)
  have hexcluded : ∀ {s₁ : State R} {reason : String} {availability : Availability},
      Grows disk root [] s s₁ → (exclude path reason availability).Ends (fun _ s' =>
        ∃ unsupported, Grows disk root unsupported s s' ∧
          Accounted disk root unsupported (none : Option Folder).toList s' path ∧
          ∀ folder ∈ (none : Option Folder), parent ∈ folder.chain) E
        s₁ := by
    intro s₁ reason availability hgrows
    refine (exclude_ends disk root).mono (fun _ s' h => ?_) fun _ _ h => h
    exact ⟨[], hgrows.trans h.1, .excluded (.of_mem h.2), by simp⟩
  simp only [lookUp, Halting.ends_bind, ends_symlinkMetadata, ← hpath, ← hroot]
  split
  · simp only [Halting.ends_bind, Halting.ends_pure, ends_countUnreadable]
    exact hexcluded ⟨Nat.le_succ _, fun _ h => h, fun _ h => h, fun h => h, rfl, rfl, by simp⟩
  · next entry hentry =>
    have hfound : ∀ {s' : State R} {found : Kind}, s.now + 1 ≤ s'.now → kind entry path root = found →
        LookedUp disk root s'.now path found :=
      fun hle hkind => ⟨s.now, entry, by omega, hentry, hkind⟩
    split
    · simp only [Halting.ends_bind, Halting.ends_pure]
      exact hexcluded hnow
    · next stamp hkind =>
      simp only [Halting.ends_bind, Halting.ends_pure, allocate, Halting.ends_modifyGet]
      refine ⟨[], ⟨Nat.le_succ _, fun _ h => h, fun _ h => h, fun h => h, rfl, rfl, by simp⟩,
        .entered ⟨_, List.mem_singleton_self _, rfl⟩ ⟨stamp, hfound (le_refl _) hkind⟩, ?_⟩
      rintro folder hfolder
      rw [← Option.some.inj hfolder]
      exact List.mem_cons_of_mem _ parent.mem_chain
    · simp only [Halting.ends_bind, Halting.ends_pure]
      exact hexcluded hnow
    · next format hkind =>
      simp only [Halting.ends_bind, ends_count]
      split
      · refine ⟨[path], ⟨Nat.le_succ _, fun _ h => h, fun _ h => h, fun h => h, rfl, rfl, ?_⟩,
          .unsupported (List.mem_singleton_self _), by simp⟩
        intro p hp
        rw [List.mem_singleton.mp hp]
        exact hfound (le_refl _) hkind
      · have hcount : Grows disk root [] s { s with
            now := s.now + 1
            totals := { s.totals with discovered := s.totals.discovered + 1 } } :=
          ⟨Nat.le_succ _, fun _ h => h, fun _ h => h, fun h => h, rfl, rfl, by simp⟩
        simp only [Halting.ends_bind, Halting.ends_pure]
        refine (read_ends root (hcount.excluded hs) hbelow).mono (fun _ s' h => ?_) fun _ _ h => h
        refine ⟨[], hcount.trans h.1, ?_, by simp⟩
        rcases h.2 with hfile | hexcludes
        · exact .delivered hfile ⟨_, hfound h.1.now hkind⟩
        · exact .excluded hexcludes

theorem visit_ends {anchor : Anchor} {parent : Folder} {name : Text} (hs : s.Consistent) :
    (visit disk anchor parent name).Ends (fun entered s' => ∃ unsupported,
      Grows disk anchor.root.stamp unsupported s s' ∧
      Accounted disk anchor.root.stamp unsupported entered.toList s' (parent.relative ++ [name]) ∧
      ∀ folder ∈ entered, parent ∈ folder.chain)
      (fun _ s' => ∃ unsupported, Grows disk anchor.root.stamp unsupported s s') s := by
  simp only [visit, Halting.ends_bind, Halting.ends_get]
  refine (lookUp_ends hs).mono (fun entered s₁ h => ?_) fun _ _ h => h
  obtain ⟨unsupported, hgrows, haccounted, hbelow⟩ := h
  split
  · simp only [Halting.ends_bind, Halting.ends_pure]
    refine (flush_ends anchor.root.stamp).mono (fun _ s' h => ?_) fun _ s' h => ?_
    · exact ⟨unsupported ++ [], hgrows.trans h.1,
        (haccounted.later h.1.toExtends).mono (by simp) (by simp), hbelow⟩
    · exact ⟨unsupported ++ [], hgrows.trans h⟩
  · exact ⟨unsupported, hgrows, haccounted, hbelow⟩

theorem visitAll_ends {anchor : Anchor} {parent : Folder} {names : List Text}
    (hs : s.Consistent) :
    (visitAll disk anchor parent names).Ends (fun children s' => ∃ unsupported,
      Grows disk anchor.root.stamp unsupported s s' ∧
      (∀ name ∈ names, Accounted disk anchor.root.stamp unsupported children s'
        (parent.relative ++ [name])) ∧
      ∀ folder ∈ children, parent ∈ folder.chain)
      (fun _ s' => ∃ unsupported, Grows disk anchor.root.stamp unsupported s s') s := by
  induction names generalizing s with
  | nil => exact ⟨[], .refl disk _ s, by simp, by simp⟩
  | cons name names ih =>
    simp only [visitAll, Halting.ends_bind]
    refine (checkCanceled_ends anchor.root.stamp).mono (fun _ s₁ h₁ => ?_) fun _ s' h => ⟨[], h⟩
    refine (visit_ends (h₁.excluded hs)).mono (fun entered s₂ h₂ => ?_) fun _ s' h => ?_
    · obtain ⟨unsupported, h₂, haccounted, hbelow⟩ := h₂
      refine (ih (h₂.excluded (h₁.excluded hs))).mono (fun rest s' h => ?_) fun _ s' h => ?_
      · obtain ⟨unsupported', h₃, hrest, hbelow'⟩ := h
        refine ⟨[] ++ (unsupported ++ unsupported'), h₁.trans (h₂.trans h₃), ?_, ?_⟩
        · refine List.forall_mem_cons.mpr ⟨?_, fun other hother => ?_⟩
          · exact (haccounted.later h₃.toExtends).mono (fun p hp => by simp [hp])
              fun f hf => List.mem_append_left _ hf
          · exact (hrest other hother).mono (fun p hp => by simp [hp])
              fun f hf => List.mem_append_right _ hf
        · intro folder hfolder
          rcases List.mem_append.mp hfolder with hentered | hchild
          · exact hbelow folder (Option.mem_toList.mp hentered)
          · exact hbelow' folder hchild
      · obtain ⟨unsupported', h₃⟩ := h
        exact ⟨_, h₁.trans (h₂.trans h₃)⟩
    · obtain ⟨unsupported, h₂⟩ := h
      exact ⟨_, h₁.trans h₂⟩

/-! ## Listing a folder -/

theorem readFolder_ends {folder : Folder} {E : Halt → State R → Prop} :
    (readFolder disk folder).Ends (Passes s fun result now => match result with
      | (names, none) => ∃ listing : FolderListing, listing.folder = folder ∧
          listing.names = names ∧ Listed disk now listing
      | (_, some (changed, _)) => changed ∈ folder.chain) E s := by
  have hself := folder.mem_chain
  simp only [readFolder, Halting.ends_bind]
  refine changedFolder_ends.mono (fun changed s₁ h => ?_) fun _ _ h => h
  obtain ⟨now, hnow, rfl, hbefore, hchain⟩ := h
  cases changed with
  | some changed => exact ⟨now, hnow, rfl, hchain changed rfl⟩
  | none =>
    simp only [Halting.ends_bind, ends_tick]
    split
    · exact ⟨now + 1, by omega, rfl, hself⟩
    · next listing hlisting =>
      simp only [Halting.ends_bind]
      refine changedFolder_ends.mono (fun changed s₂ h => ?_) fun _ _ h => h
      obtain ⟨now', hnow', rfl, hafter, hchain'⟩ := h
      have hlater : s.now ≤ now' := by
        simp only at hnow'
        omega
      cases changed with
      | some changed => exact ⟨now', hlater, rfl, hchain' changed rfl⟩
      | none =>
        refine ⟨now', hlater, rfl, ?_⟩
        cases hinterrupted : listing.interrupted with
        | some error => exact hself
        | none =>
          refine ⟨⟨folder, listing.names, now⟩, rfl, rfl, ?_, ⟨s.now, hbefore rfl⟩, hafter rfl⟩
          rw [hlisting, ← hinterrupted]

/-- A listed folder gives all its names, and one directory more is counted complete. -/
def Lists (disk : Disk R) (folder : Folder) (names : List Text) (s s' : State R) : Prop :=
  ∃ listing : FolderListing, listing.folder = folder ∧ (∀ name, name ∈ names ↔ name ∈ listing.names) ∧
    Listed disk s'.now listing ∧ s.now ≤ s'.now ∧ s' = { s with
      now := s'.now
      totals := { s.totals with completeDirectories := s.totals.completeDirectories + 1 } }

theorem list_ends (root : Stamp) {folder : Folder} {isScope : Bool} (hs : s.Consistent) :
    (list disk folder isScope).Ends (fun result s' =>
        (∃ names, result = some names ∧ Lists disk folder names s s') ∨
        (Grows disk root [] s s' ∧ s'.Excludes folder.relative))
      (fun _ s' => Grows disk root [] s s') s := by
  simp only [list, Halting.ends_bind]
  refine readFolder_ends.mono (fun result s₁ h => ?_) fun _ _ h => h
  obtain ⟨now, hnow, rfl, h⟩ := h
  rcases result with ⟨names, _ | ⟨changed, failure⟩⟩
  · obtain ⟨listing, hfolder, hnames, hlisted⟩ := h
    simp only [Halting.ends_bind, Halting.ends_pure, ends_count]
    refine .inl ⟨_, rfl, listing, hfolder, fun name => ?_, hlisted, hnow, rfl⟩
    rw [hnames]
    exact List.mem_mergeSort
  · simp only at h ⊢
    split
    · exact Grows.of_now hnow
    · simp only [Halting.ends_bind, Halting.ends_pure, ends_countUnreadable]
      have hcount : Grows disk root [] s
          { s with now, totals := { s.totals with unreadable := s.totals.unreadable + 1 } } :=
        ⟨hnow, fun _ h => h, fun _ h => h, fun h => h, rfl, rfl, by simp⟩
      refine (excludeFolder_ends disk root (hcount.excluded hs)).mono (fun _ s' hexcluded => ?_)
        fun _ _ h => h
      exact .inr ⟨hcount.trans hexcluded.1, _, hexcluded.2, Folder.relative_prefix h⟩

end

end PlateVault.Inventory
