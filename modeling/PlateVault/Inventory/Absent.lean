import PlateVault.Inventory.Scanned
import PlateVault.Library.Absence
import PlateVault.Library.Decided

/-!
# Missing is what was seen to be absent

A finish marks a record Missing only on an observation that neither delivered nor excluded its path
below a complete scope, and such a path the walk saw to be absent.
-/

namespace PlateVault.Inventory

open Library

variable {R : Reader}

/-- What every scan saw accounts for the entries of the folders it listed, and for each record that
finishing it marks Missing: on the proven root a listed folder is the record's path, or lacks the
path's next component, or has it as what the path has no use for. -/
theorem missing_was_absent {disk : Disk R} {location : Location} {volumeKind : VolumeKind}
    {scope : Option RelPath} {batchSize fuel : Nat} {scanned : Scanned R}
    (hscan : scan disk location volumeKind scope batchSize fuel = some (.ok scanned)) :
    ∃ observed listings unsupported, Anchored disk location volumeKind observed ∧
      Seen disk observed.stamp scanned listings unsupported ∧
      ∀ (calls : List (Call R)) (w w' : World R) (reader : Catalog R) (operationId : Uuid)
        (rootCheck : Location → Result FileIdentity) (opened : RelPath → Result Reading)
        (ids : RelPath → Uuid) (now : Nat), Run World.Passes .start calls w →
        w.Passes (.finishScan reader operationId scanned.observation rootCheck opened ids now) w' →
        ∀ a' ∈ w'.catalog.assets.rows, a'.availability = .missing →
          (∀ a ∈ w.catalog.assets.rows, a.id = a'.id → a.availability ≠ .missing) →
          SeenAbsent disk observed.stamp scanned.ended listings a'.relativePath ∧
            a'.locationId = location.id ∧
            ∃ registered ∈ w.catalog.locations.rows, registered.id = location.id ∧
              rootProven registered.identity observed.identity = true := by
  obtain ⟨observed, listings, unsupported, hanchored, hlocation, hroot, hseen⟩ := scan_seen hscan
  refine ⟨observed, listings, unsupported, hanchored, hseen, ?_⟩
  intro calls w w' reader operationId rootCheck opened ids now hrun hstep a' ha' hmissing hbefore
  have hfinish := hstep.step
  unfold Catalog.Step Catalog.perform at hfinish
  simp only [Result.map_eq_ok] at hfinish
  obtain ⟨committed, hcommitted, hw'⟩ := hfinish
  rw [← hw'] at ha'
  have hmarks := Catalog.finishScan_marks (Catalog.passing_of_run hrun)
    (hstep.reader reader rfl) hcommitted ha' hmissing hbefore
  obtain ⟨registered, hregistered, hid, current, -, -, hproven⟩ := hmarks.proven
  refine ⟨?_, hmarks.locationId.trans hlocation, registered, hregistered, hid.trans hlocation, ?_⟩
  · exact hseen.absent _ hmarks.complete hmarks.incomplete hmarks.files
  · exact hroot ▸ hproven

/-! ## A frame that is gone, and a folder under its name -/

def folderStamp : Stamp := ⟨some 1, some 2, some 3⟩

/-- A card whose root holds these empty folders and nothing else. -/
def cardDisk (folders : List Text) : Disk plainReader where
  metadata := fun _ path =>
    if path = [] ∨ path ∈ folders.map ([·]) then .ok ⟨false, true, false, folderStamp, 0, none⟩
    else .error ⟨.notFound, "no such file"⟩
  readDir := fun _ path => .ok ⟨if path = [] then folders else [], none⟩
  extract := fun _ _ _ => .declined
  fileId := fun _ _ => .ok none
  observe := fun _ => .ok ⟨cardRoot, folderStamp, .localDisk⟩
  canceled := fun _ => false
  deliver := fun _ _ => .ok ()

def scanCard (folders : List Text) : Option (Result (Scanned plainReader)) :=
  scan (cardDisk folders) ⟨1, [], ⟨true, []⟩, cardRoot, .available, .active, 1, none⟩ .localDisk none
    10 5

def noFiles : ScanObservation plainReader := ⟨1, cardRoot, [], [], [[]], [], .completed⟩

/-- Whether a scan returned this observation after some time, and counted no entry unsupported. -/
def foundNoFiles (scanned : Option (Result (Scanned plainReader))) : Bool :=
  match scanned with
  | some (.ok ⟨observation, progress, ended⟩) =>
    observation.locationId = 1 && observation.rootIdentity = cardRoot &&
      observation.files.isEmpty && observation.issues.isEmpty &&
      observation.completeScopes = [[]] && observation.incompleteScopes.isEmpty &&
      observation.state = .completed && progress.unsupported = 0 && 5 < ended
  | _ => false

theorem foundNoFiles_eq {result : Option (Result (Scanned plainReader))}
    (h : foundNoFiles result = true) : ∃ scanned, result = some (.ok scanned) ∧
      scanned.observation = noFiles ∧ scanned.progress.unsupported = 0 ∧ 5 < scanned.ended := by
  unfold foundNoFiles at h
  split at h
  · next observation progress ended =>
    obtain ⟨locationId, rootIdentity, files, issues, complete, incomplete, state⟩ := observation
    simp only [Bool.and_eq_true, decide_eq_true_eq, List.isEmpty_iff] at h
    obtain ⟨⟨⟨⟨⟨⟨⟨⟨rfl, rfl⟩, rfl⟩, rfl⟩, rfl⟩, rfl⟩, rfl⟩, hnone⟩, hended⟩ := h
    exact ⟨_, rfl, rfl, hnone, hended⟩
  · cases h

/-- A frame was found on the card before, and another scan of the card is running. -/
def rescannedCard : List (Catalog plainReader → Call plainReader) :=
  [fun _ => .registerLocation 1 [] ⟨true, []⟩ cardRoot (.ok ()),
    fun _ => .beginScan 2 1 none 0,
    foundFrames 2 ["a.fits"] 1,
    fun _ => .abortScan 2 .canceled "canceled",
    fun _ => .beginScan 5 1 none 10]

def finishEmpty (c : Catalog plainReader) : Call plainReader :=
  .finishScan c 5 noFiles (fun _ => .ok cardRoot) (fun _ => .error (.sourceUnavailable "not read"))
    (fun _ => 9) 11

theorem finishEmpty_marks : ∃ (calls : List (Call plainReader)) (w w' : World plainReader),
    Run World.Passes .start calls w ∧ w.Passes (finishEmpty w.catalog) w' ∧
      ∃ a' ∈ w'.catalog.assets.rows, a'.relativePath = ["a.fits".toList] ∧
        a'.availability = .missing ∧
        ∀ a ∈ w.catalog.assets.rows, a.id = a'.id → a.availability ≠ .missing := by
  have hfollow : ((Catalog.empty.follow rescannedCard).any fun made =>
      match made.2.perform (finishEmpty made.2) with
      | .ok c' => c'.assets.rows.any fun a' => a'.relativePath = ["a.fits".toList] &&
          a'.availability = .missing &&
          made.2.assets.rows.all fun a => a.id ≠ a'.id || a.availability ≠ .missing
      | .error _ => false) = true := by decide
  obtain ⟨⟨made, c⟩, hmade, hany⟩ := (Option.any_eq_true _ _).mp hfollow
  have hcurrent : ∀ call ∈ rescannedCard, ∀ c, (call c).Current c := by
    intro call hcall c
    simp only [rescannedCard, List.mem_cons, List.not_mem_nil, or_false] at hcall
    rcases hcall with rfl | rfl | rfl | rfl | rfl <;>
      constructor <;> simp [Call.reader, Call.files, foundFrames]
  obtain ⟨w, rfl, hrun⟩ := World.run_of_current (Catalog.follow_run hcurrent hmade) [] []
  split at hany
  · next c' hstep =>
    obtain ⟨a', ha', hrow⟩ := List.any_eq_true.mp hany
    simp only [Bool.and_eq_true, decide_eq_true_eq, List.all_eq_true, Bool.or_eq_true] at hrow
    obtain ⟨⟨hpath, hmissing⟩, hbefore⟩ := hrow
    refine ⟨made, w, ⟨c', w.catalog :: w.past, finishEmpty w.catalog :: w.made⟩,
      hrun.mono fun _ _ _ h => h.passes, ⟨hstep, fun reader hreader => ?_, trivial, rfl, rfl⟩, a',
      ha', hpath, hmissing, fun a ha hid => (hbefore a ha).resolve_left fun hne => hne hid⟩
    rw [← Option.some.inj hreader]
    exact List.mem_cons_self
  · cases hany

theorem missing_was_absent_of_a_frame : ∃ (w' : World plainReader) (listings : List FolderListing)
    (ended : Nat), ∃ a' ∈ w'.catalog.assets.rows, a'.availability = .missing ∧
      SeenAbsent (cardDisk []) folderStamp ended listings a'.relativePath := by
  have hfound : foundNoFiles (scanCard []) = true := by decide +kernel
  obtain ⟨scanned, hscan, hobservation, -⟩ := foundNoFiles_eq hfound
  obtain ⟨observed, listings, unsupported, hanchored, -, habsent⟩ := missing_was_absent hscan
  obtain ⟨calls, w, w', hrun, hstep, a', ha', -, hmissing, hbefore⟩ := finishEmpty_marks
  obtain rfl : observed = ⟨cardRoot, folderStamp, .localDisk⟩ :=
    (Except.ok.inj hanchored.answered).symm
  rw [finishEmpty, ← hobservation] at hstep
  obtain ⟨hseen, -⟩ := habsent _ _ _ _ _ _ _ _ _ hrun hstep a' ha' hmissing hbefore
  exact ⟨w', listings, scanned.ended, a', ha', hmissing, hseen⟩

/-- A frame whose name a folder has taken is marked Missing though the listed root holds its next
component as a real folder, an entry that is not delivered, not counted unsupported and in no
incomplete scope. -/
theorem folder_under_frame_name : ∃ (scanned : Scanned plainReader)
    (calls : List (Call plainReader)) (w w' : World plainReader),
    scanCard ["a.fits".toList] = some (.ok scanned) ∧ Run World.Passes .start calls w ∧
      w.Passes (.finishScan w.catalog 5 scanned.observation (fun _ => .ok cardRoot)
        (fun _ => .error (.sourceUnavailable "not read")) (fun _ => 9) 11) w' ∧
      (∃ a' ∈ w'.catalog.assets.rows, a'.availability = .missing ∧
        (∀ a ∈ w.catalog.assets.rows, a.id = a'.id → a.availability ≠ .missing) ∧
        ∀ listing, Listed (cardDisk ["a.fits".toList]) scanned.ended listing →
          ∀ name rest, a'.relativePath = listing.folder.relative ++ name :: rest →
            name ∈ listing.names ∧ ∀ found, LookedUp (cardDisk ["a.fits".toList]) folderStamp
              scanned.ended (listing.folder.relative ++ [name]) found →
              found = .folder folderStamp) ∧
      (∃ listing, Listed (cardDisk ["a.fits".toList]) scanned.ended listing ∧
        listing.folder.relative = [] ∧ "a.fits".toList ∈ listing.names) ∧
      (∀ file ∈ scanned.observation.files, file.relativePath ≠ ["a.fits".toList]) ∧
      scanned.progress.unsupported = 0 ∧ scanned.observation.incompleteScopes = [] := by
  have hfound : foundNoFiles (scanCard ["a.fits".toList]) = true := by decide +kernel
  obtain ⟨scanned, hscan, hobservation, hnone, hended⟩ := foundNoFiles_eq hfound
  obtain ⟨calls, w, w', hrun, hstep, a', ha', hpath, hmissing, hbefore⟩ := finishEmpty_marks
  rw [finishEmpty, ← hobservation] at hstep
  refine ⟨scanned, calls, w, w', hscan, hrun, hstep, ⟨a', ha', hmissing, hbefore, ?_⟩, ?_, ?_, hnone,
    ?_⟩
  · intro listing hlisted name rest hat
    rw [hpath] at hat
    -- only the root is above the frame
    cases hfolder : listing.folder.relative with
    | nil =>
      rw [hfolder, List.nil_append] at hat
      obtain ⟨rfl, -⟩ := List.cons.inj hat
      have hread := hlisted.read
      rw [hfolder] at hread
      have hnames : listing.names = ["a.fits".toList] :=
        (congrArg Listing.names (Except.ok.inj hread)).symm
      refine ⟨hnames ▸ List.mem_singleton_self _, fun found hlooked => ?_⟩
      obtain ⟨time, entry, -, hentry, hkind⟩ := hlooked
      have hfolderEntry : entry = ⟨false, true, false, folderStamp, 0, none⟩ :=
        (Except.ok.inj hentry).symm
      rw [← hkind, hfolderEntry]
      rfl
    | cons part parts =>
      rw [hfolder] at hat
      simp at hat
  · have hstill : ∀ time above, above ∈ (Folder.root 0 folderStamp).chain →
        Still (cardDisk ["a.fits".toList]) above time := by
      intro time above habove
      rw [List.mem_singleton.mp habove]
      exact ⟨⟨false, true, false, folderStamp, 0, none⟩, rfl, rfl, rfl, rfl⟩
    refine ⟨⟨.root 0 folderStamp, ["a.fits".toList], 3⟩, ⟨rfl, ⟨0, fun above habove => ?_⟩,
      fun above habove => ?_⟩, rfl, List.mem_singleton_self _⟩
    · exact ⟨2, by decide, by decide, hstill 2 above habove⟩
    · exact ⟨4, by decide, by omega, hstill 4 above habove⟩
  · rw [hobservation]
    simp [noFiles]
  · rw [hobservation]
    rfl

end PlateVault.Inventory
