import PlateVault.Inventory.WalkLaws

/-!
# What a scan's observation says

Along a whole walk every folder listed is one of the evidence, and each of its entries is accounted
for. A path below the scope that the scan neither delivered nor excluded was then seen to be absent:
following its components down from the scope, some listed folder did not have the next one as what
the path needs it to be.
-/

namespace PlateVault.Inventory

open Library

variable {R : Reader} {disk : Disk R}

/-! ## The walk -/

/-- The folders listed and the entries counted unsupported so far. -/
structure Evidence (disk : Disk R) (root : Stamp) (scope : Folder)
    (listings : List FolderListing) (unsupported : List RelPath) (s : State R) : Prop where
  directories : s.totals.completeDirectories = listings.length
  counted : s.totals.unsupported = unsupported.length
  lookedUp : ∀ path ∈ unsupported, LookedUp disk root s.now path (.file .unsupported)
  listed : ∀ listing ∈ listings, Listed disk s.now listing
  below : ∀ listing ∈ listings, scope ∈ listing.folder.chain

/-- The walk's invariant: every entry of a listed folder is accounted for, and so is the scope. -/
structure Walked (disk : Disk R) (root : Stamp) (scope : Folder) (listings : List FolderListing)
    (unsupported : List RelPath) (stack : List Folder) (s : State R) : Prop where
  evidence : Evidence disk root scope listings unsupported s
  consistent : s.Consistent
  queued : ∀ folder ∈ stack, scope ∈ folder.chain
  entries : ∀ listing ∈ listings, ∀ name ∈ listing.names,
    Accounted disk root unsupported (stack ++ listings.map (·.folder)) s
      (listing.folder.relative ++ [name])
  entered : scope ∈ stack ++ listings.map (·.folder) ∨ s.Excludes scope.relative

section

variable {root : Stamp} {scope : Folder} {listings : List FolderListing}
  {unsupported unsupported' : List RelPath} {stack : List Folder} {s s' : State R}

theorem Evidence.grows (h : Evidence disk root scope listings unsupported s)
    (hgrows : Grows disk root unsupported' s s') :
    Evidence disk root scope listings (unsupported ++ unsupported') s' where
  directories := hgrows.listed.trans h.directories
  counted := by
    rw [hgrows.counted, h.counted, List.length_append]
  lookedUp := fun path hpath => by
    rcases List.mem_append.mp hpath with hold | hnew
    · exact (h.lookedUp path hold).mono hgrows.now
    · exact hgrows.lookedUp path hnew
  listed := fun listing hlisting => (h.listed listing hlisting).mono hgrows.now
  below := h.below

theorem Walked.grows (h : Walked disk root scope listings unsupported stack s)
    (hgrows : Grows disk root unsupported' s s') :
    Walked disk root scope listings (unsupported ++ unsupported') stack s' where
  evidence := h.evidence.grows hgrows
  consistent := hgrows.excluded h.consistent
  queued := h.queued
  entries := fun listing hlisting name hname =>
    ((h.entries listing hlisting name hname).later hgrows.toExtends).mono
      (fun _ hpath => List.mem_append_left _ hpath) fun _ hfolder => hfolder
  entered := h.entered.imp_right hgrows.toExtends.excludes

theorem Walked.drop {directory : Folder}
    (h : Walked disk root scope listings unsupported (directory :: stack) s)
    (hexcluded : s.Excludes directory.relative) :
    Walked disk root scope listings unsupported stack s where
  evidence := h.evidence
  consistent := h.consistent
  queued := fun folder hfolder => h.queued folder (List.mem_cons_of_mem _ hfolder)
  entries := fun listing hlisting name hname => by
    cases h.entries listing hlisting name hname with
    | delivered file found => exact .delivered file found
    | unsupported counted => exact .unsupported counted
    | excluded excluded => exact .excluded excluded
    | entered folder found =>
      obtain ⟨folder, hfolder, hpath⟩ := folder
      rcases List.mem_cons.mp hfolder with rfl | hfolder
      · exact .excluded (hpath ▸ hexcluded)
      · exact .entered ⟨folder, hfolder, hpath⟩ found
  entered := by
    rcases h.entered with hscope | hscope
    · rcases List.mem_cons.mp hscope with rfl | hscope
      · exact .inr hexcluded
      · exact .inl hscope
    · exact .inr hscope

theorem Walked.queue {children : List Folder}
    (h : Walked disk root scope listings unsupported stack s)
    (hchildren : ∀ folder ∈ children, scope ∈ folder.chain) :
    Walked disk root scope listings unsupported (children ++ stack) s where
  evidence := h.evidence
  consistent := h.consistent
  queued := List.forall_mem_append.mpr ⟨hchildren, h.queued⟩
  entries := fun listing hlisting name hname =>
    (h.entries listing hlisting name hname).mono (fun _ hpath => hpath) fun folder hfolder => by
      rw [List.append_assoc]
      exact List.mem_append_right _ hfolder
  entered := h.entered.imp_left fun hscope => by
    rw [List.append_assoc]
    exact List.mem_append_right _ hscope

theorem Evidence.push {listing : FolderListing}
    (h : Evidence disk root scope listings unsupported s)
    (hbelow : scope ∈ listing.folder.chain) (hlisted : Listed disk s'.now listing)
    (hnow : s.now ≤ s'.now) (hs' : s' = { s with
      now := s'.now
      totals := { s.totals with completeDirectories := s.totals.completeDirectories + 1 } }) :
    Evidence disk root scope (listing :: listings) unsupported s' := by
  refine ⟨?_, ?_, ?_, ?_, ?_⟩
  · rw [hs', List.length_cons, ← h.directories]
  · rw [hs', ← h.counted]
  · exact fun path hpath => (h.lookedUp path hpath).mono hnow
  · refine List.forall_mem_cons.mpr ⟨hlisted, fun other hother => ?_⟩
    exact (h.listed other hother).mono hnow
  · exact List.forall_mem_cons.mpr ⟨hbelow, h.below⟩

theorem Walked.push {directory : Folder} {listing : FolderListing} {children : List Folder}
    (h : Walked disk root scope listings unsupported (directory :: stack) s)
    (hfolder : listing.folder = directory) (hlisted : Listed disk s'.now listing)
    (hnow : s.now ≤ s'.now) (hs' : s' = { s with
      now := s'.now
      totals := { s.totals with completeDirectories := s.totals.completeDirectories + 1 } })
    {s'' : State R} (hgrows : Grows disk root unsupported' s' s'')
    (hentries : ∀ name ∈ listing.names, Accounted disk root unsupported' children s''
      (directory.relative ++ [name]))
    (hchildren : ∀ folder ∈ children, directory ∈ folder.chain) :
    Walked disk root scope (listing :: listings) (unsupported ++ unsupported') (children ++ stack)
      s'' := by
  have hdirectory := h.queued directory List.mem_cons_self
  have hevidence := h.evidence.push (hfolder ▸ hdirectory) hlisted hnow hs'
  have hlater : Extends s s'' := by
    have hpassed : Extends s s' := by
      rw [hs']
      exact ⟨hnow, fun _ h => h, fun _ h => h⟩
    exact ⟨hnow.trans hgrows.now, fun file h => hgrows.delivered file (hpassed.delivered file h),
      fun scope h => hgrows.incomplete scope (hpassed.incomplete scope h)⟩
  have hconsistent : s'.Consistent := by
    rw [hs']
    exact h.consistent
  have hmoved : ∀ folder ∈ directory :: stack ++ listings.map (·.folder),
      folder ∈ children ++ stack ++ (listing :: listings).map (·.folder) := by
    intro folder hmem
    rw [List.map_cons, hfolder]
    simp only [List.cons_append, List.mem_cons, List.mem_append] at hmem ⊢
    tauto
  refine ⟨hevidence.grows hgrows, hgrows.excluded hconsistent, fun folder hmem => ?_, ?_, ?_⟩
  · rcases List.mem_append.mp hmem with hchild | hold
    · exact Folder.chain_trans (hchildren folder hchild) hdirectory
    · exact h.queued folder (List.mem_cons_of_mem _ hold)
  · refine List.forall_mem_cons.mpr ⟨fun name hname => ?_, fun other hother name hname => ?_⟩
    · rw [hfolder]
      exact (hentries name hname).mono (fun _ hpath => List.mem_append_right _ hpath)
        fun _ hchild => by simp [hchild]
    · exact ((h.entries other hother name hname).later hlater).mono
        (fun _ hpath => List.mem_append_left _ hpath) hmoved
  · exact h.entered.imp (hmoved scope) hlater.excludes

theorem walk_ends {anchor : Anchor} {fuel : Nat}
    (h : Walked disk anchor.root.stamp scope listings unsupported stack s) :
    (walk disk anchor scope fuel stack).Ends
      (fun done s' => done = true → ∃ listings unsupported,
        Walked disk anchor.root.stamp scope listings unsupported [] s')
      (fun _ s' => ∃ listings unsupported,
        Evidence disk anchor.root.stamp scope listings unsupported s') s := by
  induction fuel generalizing listings unsupported stack s with
  | zero => simp [walk]
  | succ fuel ih =>
    cases stack with
    | nil => exact fun _ => ⟨listings, unsupported, h⟩
    | cons directory stack =>
      simp only [walk, Halting.ends_bind]
      refine (checkCanceled_ends anchor.root.stamp).mono (fun _ s₁ h₁ => ?_) fun _ s' h' => ?_
      · have hs₁ := h.grows h₁
        refine (list_ends anchor.root.stamp hs₁.consistent).mono (fun result s₂ h₂ => ?_) fun _ s' h' => ?_
        · rcases h₂ with ⟨names, rfl, listing, hfolder, hnames, hlisted, hnow, heq⟩ | ⟨h₂, hexcluded⟩
          · simp only [Halting.ends_bind]
            have hconsistent : s₂.Consistent := by
              rw [heq]
              exact hs₁.consistent
            refine (visitAll_ends hconsistent).mono (fun children s₃ h₃ => ?_) fun _ s' h' => ?_
            · obtain ⟨counted, hgrows, hentries, hchildren⟩ := h₃
              refine ih (hs₁.push hfolder hlisted hnow heq hgrows (fun name hname => ?_) hchildren)
              exact hentries name ((hnames name).mpr hname)
            · obtain ⟨counted, hgrows⟩ := h'
              have hdirectory := hs₁.queued directory List.mem_cons_self
              have hevidence := hs₁.evidence.push (hfolder ▸ hdirectory) hlisted hnow heq
              exact ⟨_, _, hevidence.grows hgrows⟩
          · have hs₂ := (hs₁.grows h₂).drop hexcluded
            cases result with
            | none => exact ih hs₂
            | some names =>
              -- an interrupted listing: its names are visited below an excluded scope
              simp only [Halting.ends_bind]
              refine (visitAll_ends hs₂.consistent).mono (fun children s₃ h₃ => ?_)
                fun _ s' h' => ?_
              · obtain ⟨counted, hgrows, -, hchildren⟩ := h₃
                have hdirectory := h.queued directory List.mem_cons_self
                refine ih ((hs₂.grows hgrows).queue fun folder hfolder => ?_)
                exact Folder.chain_trans (hchildren folder hfolder) hdirectory
              · obtain ⟨counted, hgrows⟩ := h'
                exact ⟨_, _, hs₂.evidence.grows hgrows⟩
        · exact ⟨_, _, hs₁.evidence.grows h'⟩
      · exact ⟨_, _, h.evidence.grows h'⟩

end

/-! ## A scan -/

section

variable {anchor : Anchor} {s : State R}

@[simp] theorem ends_observeRoot {ε : Type} {location : Location} {volumeKind : VolumeKind}
    {Q : Result RootObservation → State R → Prop} {E : ε → State R → Prop} :
    (observeRoot disk location volumeKind).Ends Q E s ↔
      Q (do
        let observed ← disk.observe s.now
        compare location volumeKind observed
        return observed) { s with now := s.now + 1 } := Iff.rfl

theorem finish_ends (root : Stamp) :
    (finish disk anchor).Ends (fun _ s' => Grows disk root [] s s' ∧ s'.pending.files = [])
      (fun _ s' => Grows disk root [] s s') s := by
  have hnow : Grows disk root [] s { s with now := s.now + 1 } := .of_now (Nat.le_succ _)
  simp only [finish, Halting.ends_bind, ends_observeRoot]
  split
  · exact hnow
  · simp only [Halting.ends_bind, Halting.ends_get]
    split
    · next hempty =>
      simp only [Bool.and_eq_true, List.isEmpty_iff] at hempty
      refine (checkRoot_ends root).mono (fun _ s' h => ?_) fun _ s' h => hnow.trans h
      exact ⟨hnow.trans h.1, h.2 ▸ hempty.1⟩
    · refine (flush_ends root).mono (fun _ s' h => ?_) fun _ s' h => hnow.trans h
      exact ⟨hnow.trans h.1, h.2⟩

theorem run_ends {scope : Folder} {fuel : Nat} (h : Walked disk anchor.root.stamp scope [] [] [scope] s) :
    (run disk anchor scope fuel).Ends
      (fun done s' => done = true → s'.pending.files = [] ∧ ∃ listings unsupported,
        Walked disk anchor.root.stamp scope listings unsupported [] s')
      (fun _ s' => ∃ listings unsupported,
        Evidence disk anchor.root.stamp scope listings unsupported s') s := by
  simp only [run, Halting.ends_bind]
  refine (walk_ends h).mono (fun done s₁ h₁ => ?_) fun _ _ h => h
  split
  · next hdone =>
    obtain ⟨listings, unsupported, hwalked⟩ := h₁ hdone
    simp only [Halting.ends_bind, Halting.ends_pure]
    refine (finish_ends anchor.root.stamp).mono (fun _ s' h => ?_) fun _ s' h => ?_
    · exact fun _ => ⟨h.2, _, _, hwalked.grows h.1⟩
    · exact ⟨_, _, hwalked.evidence.grows h⟩
  · exact fun hfalse => absurd hfalse (by simp)

theorem enterScope_ends {root : Stamp} {folder : Folder} {parts : RelPath}
    {E : LibraryError → State R → Prop} (hE : ∀ e s, E e s) :
    (enterScope disk root folder parts).Ends (fun entered s' =>
      entered.relative = folder.relative ++ parts ∧ folder ∈ entered.chain ∧
        ∃ now allocated, s' = { s with now, allocated }) E s := by
  induction parts generalizing folder s with
  | nil => exact ⟨(List.append_nil _).symm, folder.mem_chain, s.now, s.allocated, rfl⟩
  | cons part parts ih =>
    simp only [enterScope, Halting.ends_bind, ends_symlinkMetadata]
    split
    · exact hE _ _
    · split
      · exact hE _ _
      · split
        · exact hE _ _
        · split
          · exact hE _ _
          · simp only [Halting.ends_bind, allocate, Halting.ends_modifyGet]
            refine ih.mono (fun entered s' h => ?_) fun _ _ h => h
            obtain ⟨hrelative, hchain, now, allocated, rfl⟩ := h
            refine ⟨?_, Folder.chain_trans hchain (List.mem_cons_of_mem _ folder.mem_chain), now,
              allocated, rfl⟩
            rw [hrelative, Folder.relative, List.append_assoc, List.singleton_append]

/-- The root a scan is anchored at: observed before the walk, and the registered one. -/
structure Anchored (disk : Disk R) (location : Location) (volumeKind : VolumeKind)
    (observed : RootObservation) : Prop where
  answered : disk.observe 0 = .ok observed
  registered : compare location volumeKind observed = .ok ()

theorem begin_ends {location : Location} {volumeKind : VolumeKind} {scope : RelPath}
    {batchSize : Nat} {E : LibraryError → State R → Prop} (hE : ∀ e s, E e s) :
    (begin disk location volumeKind scope batchSize).Ends (fun begun s' =>
      Anchored disk location volumeKind begun.1.root ∧ begun.1.location = location ∧
      begun.2.relative = scope ∧ (∃ id, .root id begun.1.root.stamp ∈ begun.2.chain) ∧
      Walked disk begun.1.root.stamp begun.2 [] [] [begun.2] s') E (State.start R) := by
  simp only [begin, Halting.ends_bind, ends_observeRoot]
  split
  · exact hE _ _
  · next root hroot =>
    simp only [Halting.ends_bind, allocate, Halting.ends_modifyGet]
    refine (enterScope_ends hE).mono (fun folder s' h => ?_) fun _ _ h => h
    obtain ⟨hrelative, hchain, now, allocated, rfl⟩ := h
    simp only [Result.bind_eq_ok, Result.pure_eq_ok] at hroot
    obtain ⟨observed, hobserved, _, hcompare, rfl⟩ := hroot
    refine ⟨⟨hobserved, hcompare⟩, rfl, hrelative, ⟨_, hchain⟩, ?_⟩
    refine ⟨⟨rfl, rfl, by simp, by simp, by simp⟩, ?_, ?_, by simp, ?_⟩
    · simp [State.Consistent, State.start]
    · rintro other hother
      rw [List.mem_singleton.mp hother]
      exact folder.mem_chain
    · exact .inl (List.mem_append_left _ (List.mem_singleton_self _))

end

/-! ## What the observation says -/

/-- Whether an entry is what a path needs its component to be: a real folder, and a supported
regular file for the last. -/
def Kind.serves (last : Bool) : Kind → Bool
  | .folder _ => !last
  | .file format => last && format ≠ .unsupported
  | .link => false
  | .foreignVolume => false

/-- A listed folder is the path itself, or lacks the path's next component, or has it as something
that does not serve the path. -/
def SeenAbsent (disk : Disk R) (root : Stamp) (ended : Nat) (listings : List FolderListing)
    (path : RelPath) : Prop :=
  ∃ listing ∈ listings, listing.folder.relative = path ∨
    ∃ name rest, path = listing.folder.relative ++ name :: rest ∧
      (name ∉ listing.names ∨ ∃ found, LookedUp disk root ended
        (listing.folder.relative ++ [name]) found ∧ found.serves rest.isEmpty = false)

/-- What the observation says of an entry of a listed folder. -/
inductive Reported (disk : Disk R) (root : Stamp) (scanned : Scanned R)
    (listings : List FolderListing) (unsupported : List RelPath) (path : RelPath) : Prop
  | delivered (file : ∃ file ∈ scanned.observation.files, file.relativePath = path)
  | unsupported (counted : path ∈ unsupported)
  | incomplete (scope : ∃ scope ∈ scanned.observation.incompleteScopes, within path scope = true)
  | listed (folder : ∃ listing ∈ listings, listing.folder.relative = path)
      (found : ∃ stamp, LookedUp disk root scanned.ended path (.folder stamp))

/-- What a scan saw while it ran, as its result says it. -/
structure Seen (disk : Disk R) (root : Stamp) (scanned : Scanned R)
    (listings : List FolderListing) (unsupported : List RelPath) : Prop where
  directories : scanned.progress.completeDirectories = listings.length
  counted : scanned.progress.unsupported = unsupported.length
  lookedUp : ∀ path ∈ unsupported, LookedUp disk root scanned.ended path (.file .unsupported)
  listed : ∀ listing ∈ listings, Listed disk scanned.ended listing
  rooted : ∀ listing ∈ listings, ∃ id, .root id root ∈ listing.folder.chain
  entries : ∀ listing ∈ listings, ∀ name ∈ listing.names,
    Reported disk root scanned listings unsupported (listing.folder.relative ++ [name])
  absent : ∀ path, (∃ scope ∈ scanned.observation.completeScopes, within path scope = true) →
    (∀ scope ∈ scanned.observation.incompleteScopes, within path scope = false) →
    (∀ file ∈ scanned.observation.files, file.relativePath ≠ path) →
    SeenAbsent disk root scanned.ended listings path

section

variable {root : Stamp} {scope : Folder} {listings : List FolderListing}
  {unsupported : List RelPath} {s : State R}

theorem Walked.absent_below (h : Walked disk root scope listings unsupported [] s) {path : RelPath}
    (hexcluded : ¬ s.Excludes path) (hdelivered : ∀ file ∈ s.delivered, file.relativePath ≠ path)
    {rest : RelPath} {listing : FolderListing} (hlisting : listing ∈ listings)
    (hpath : path = listing.folder.relative ++ rest) :
    SeenAbsent disk root s.now listings path := by
  induction rest generalizing listing with
  | nil => exact ⟨listing, hlisting, .inl (by simp [hpath])⟩
  | cons name rest ih =>
    have habsent : ∀ found, LookedUp disk root s.now (listing.folder.relative ++ [name]) found →
        found.serves rest.isEmpty = false → SeenAbsent disk root s.now listings path :=
      fun found hfound hserves =>
        ⟨listing, hlisting, .inr ⟨name, rest, hpath, .inr ⟨found, hfound, hserves⟩⟩⟩
    by_cases hname : name ∈ listing.names
    · cases h.entries listing hlisting name hname with
      | delivered file found =>
        obtain ⟨file, hfile, hat⟩ := file
        obtain ⟨format, hfound⟩ := found
        cases rest with
        | nil => exact absurd (hat.trans hpath.symm) (hdelivered file hfile)
        | cons next rest => exact habsent _ hfound (by simp [Kind.serves])
      | unsupported counted =>
        exact habsent _ (h.evidence.lookedUp _ counted) (by simp [Kind.serves])
      | excluded excluded =>
        refine absurd (excluded.below (within_iff.mpr ?_)) hexcluded
        exact ⟨rest, by simp [hpath]⟩
      | entered folder found =>
        obtain ⟨folder, hfolder, hat⟩ := folder
        obtain ⟨stamp, hfound⟩ := found
        cases rest with
        | nil => exact habsent _ hfound rfl
        | cons next rest =>
          obtain ⟨inner, hinner, rfl⟩ := List.mem_map.mp hfolder
          exact ih hinner (by rw [hat, hpath]; simp)
    · exact ⟨listing, hlisting, .inr ⟨name, rest, hpath, .inl hname⟩⟩

theorem Walked.absent (h : Walked disk root scope listings unsupported [] s) {path : RelPath}
    (hscope : within path scope.relative = true) (hexcluded : ¬ s.Excludes path)
    (hdelivered : ∀ file ∈ s.delivered, file.relativePath ≠ path) :
    SeenAbsent disk root s.now listings path := by
  rcases h.entered with hlisted | hexcluded'
  · obtain ⟨listing, hlisting, rfl⟩ := List.mem_map.mp hlisted
    obtain ⟨rest, hrest⟩ := within_iff.mp hscope
    exact h.absent_below hexcluded hdelivered hlisting hrest.symm
  · exact absurd (hexcluded'.below hscope) hexcluded

theorem Evidence.rooted (h : Evidence disk root scope listings unsupported s)
    (hroot : ∃ id, .root id root ∈ scope.chain) :
    ∀ listing ∈ listings, ∃ id, .root id root ∈ listing.folder.chain := by
  intro listing hlisting
  obtain ⟨id, hid⟩ := hroot
  exact ⟨id, Folder.chain_trans (h.below listing hlisting) hid⟩

theorem Walked.seen {anchor : Anchor} (h : Walked disk root scope listings unsupported [] s)
    (hpending : s.pending.files = []) (hroot : ∃ id, .root id root ∈ scope.chain) :
    Seen disk root (completed anchor scope.relative s) listings unsupported where
  directories := h.evidence.directories
  counted := h.evidence.counted
  lookedUp := h.evidence.lookedUp
  listed := h.evidence.listed
  rooted := h.evidence.rooted hroot
  entries := fun listing hlisting name hname => by
    cases h.entries listing hlisting name hname with
    | delivered file found =>
      simp only [State.delivered, hpending, List.append_nil] at file
      exact .delivered file
    | unsupported counted => exact .unsupported counted
    | excluded excluded => exact .incomplete excluded
    | entered folder found =>
      obtain ⟨folder, hfolder, hat⟩ := folder
      obtain ⟨inner, hinner, rfl⟩ := List.mem_map.mp hfolder
      exact .listed ⟨inner, hinner, hat⟩ found
  absent := fun path hcomplete hincomplete hfiles => by
    obtain ⟨complete, hmem, hwithin⟩ := hcomplete
    rw [List.mem_singleton.mp hmem] at hwithin
    refine h.absent hwithin (fun hexcluded => ?_) fun file hfile => ?_
    · obtain ⟨excluded, hexcluded, hbelow⟩ := hexcluded
      exact absurd hbelow (by rw [hincomplete excluded hexcluded]; simp)
    · simp only [State.delivered, hpending, List.append_nil] at hfile
      exact hfiles file hfile

theorem Evidence.seen {anchor : Anchor} {issues : List ScanIssue} {state : ScanState}
    (h : Evidence disk root scope listings unsupported s)
    (hroot : ∃ id, .root id root ∈ scope.chain) :
    Seen disk root (halted anchor scope.relative s issues state) listings unsupported where
  directories := h.directories
  counted := h.counted
  lookedUp := h.lookedUp
  listed := h.listed
  rooted := h.rooted hroot
  entries := fun listing hlisting name _ => by
    refine .incomplete ⟨scope.relative, List.mem_append_right _ (List.mem_singleton_self _), ?_⟩
    exact within.trans (within_iff.mpr (List.prefix_append _ _))
      (Folder.relative_prefix (h.below listing hlisting))
  absent := fun path hcomplete => by simp [halted] at hcomplete

end

theorem scan_seen {location : Location} {volumeKind : VolumeKind} {scope : Option RelPath}
    {batchSize fuel : Nat} {scanned : Scanned R}
    (h : scan disk location volumeKind scope batchSize fuel = some (.ok scanned)) :
    ∃ observed listings unsupported, Anchored disk location volumeKind observed ∧
      scanned.observation.locationId = location.id ∧
      scanned.observation.rootIdentity = observed.identity ∧
      Seen disk observed.stamp scanned listings unsupported := by
  unfold scan at h
  split at h
  · simp at h
  · next scope _ =>
    have hbegin : (begin disk location volumeKind scope batchSize).Ends _ (fun _ _ => True)
        (State.start R) := begin_ends fun _ _ => trivial
    split at h
    · simp at h
    · next anchor folder s heq =>
      obtain ⟨hanchored, hlocation, rfl, hroot, hwalked⟩ := hbegin.of_ok heq
      have hid : anchor.location.id = location.id := by rw [hlocation]
      have hrun : (run disk anchor folder fuel).Ends _ _ s := run_ends hwalked
      have hhalted : ∀ {e s' issues state}, (run disk anchor folder fuel) s = (.error e, s') →
          scanned = halted anchor folder.relative s' issues state →
          ∃ observed listings unsupported, Anchored disk location volumeKind observed ∧
            scanned.observation.locationId = location.id ∧
            scanned.observation.rootIdentity = observed.identity ∧
            Seen disk observed.stamp scanned listings unsupported := by
        rintro e s' issues state hend rfl
        obtain ⟨listings, unsupported, hevidence⟩ := hrun.of_error hend
        exact ⟨anchor.root, listings, unsupported, hanchored, hid, rfl, hevidence.seen hroot⟩
      split at h
      · cases h
      · next s' hend =>
        cases h
        obtain ⟨hpending, listings, unsupported, hfinished⟩ := hrun.of_ok hend rfl
        exact ⟨anchor.root, listings, unsupported, hanchored, hid, rfl,
          hfinished.seen hpending hroot⟩
      · next s' hend =>
        cases h
        exact hhalted hend rfl
      · next issue s' hend =>
        cases h
        exact hhalted hend rfl
      · cases h
      · cases h

end PlateVault.Inventory
