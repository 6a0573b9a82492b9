import PlateVault.Roots.Overlap
import Mathlib.Data.List.ReduceOption

/-!
# What an accepted candidate keeps apart from

A search that ends without a find read every folder of the candidate's device below it. A candidate
that passes the plan inside the writer overlaps no root that still resolves, and no recorded folder
of one that does not.
-/

namespace PlateVault.Roots

open Library (Catalog Location Reader rootProven sameVolume)
open Result (bind_eq_ok)

variable {host : Host} {R : Reader}

/-! ## The search -/

section Search

variable {wanted : List Stamp} {late : Nat → Nat → Bool} {root file : List Text}
  {rootStamp stamp : Stamp} {rootId identity : FileIdentity}

theorem searchEntries_grows {device : Nat} {folder : List Text} {left at' : Nat}
    {entries : List (Except Inventory.IoError Text)} {pending pending' : List (List Text)}
    (h : searchEntries host wanted device late folder left at' entries pending = .ok pending') :
    pending ⊆ pending' := by
  induction entries generalizing at' pending with
  | nil =>
    cases h
    exact List.Subset.refl _
  | cons entry entries ih =>
    unfold searchEntries at h
    split at h
    · cases h
    · split at h
      · cases h
      · simp only at h
        split at h
        · cases h
        · exact ih h
        · split at h
          · cases h
          · exact ih h
          · split at h
            · cases h
            · have hrest := ih h
              split at hrest
              · exact List.Subset.trans (List.subset_cons_self _ _) hrest
              · exact hrest

theorem searchEntries_error {device : Nat} {folder : List Text} {left at' : Nat}
    {entries : List (Except Inventory.IoError Text)} {pending : List (List Text)} {outcome : FolderSearch}
    (h : searchEntries host wanted device late folder left at' entries pending = .error outcome) :
    outcome ≠ .absent := by
  induction entries generalizing at' pending with
  | nil => cases h
  | cons entry entries ih =>
    unfold searchEntries at h
    split at h
    · cases h
      exact fun hsame => by cases hsame
    · split at h
      · cases h
        exact fun hsame => by cases hsame
      · simp only at h
        split at h
        · cases h
          exact fun hsame => by cases hsame
        · exact ih h
        · split at h
          · cases h
            exact fun hsame => by cases hsame
          · exact ih h
          · split at h
            · cases h
              exact fun hsame => by cases hsame
            · exact ih h

theorem searchEntries_reaches (hroot : host.entry root = some (.folder rootStamp rootId))
    (hfile : host.entry file = some (.folder stamp identity)) (hwanted : stamp ∈ wanted)
    (hdevice : rootStamp.1 = stamp.1) {folder : List Text} {name : Text} (hfolder : root <+: folder)
    (hbelow : folder ++ [name] <+: file) {left at' : Nat} {entries : List (Except Inventory.IoError Text)}
    (hlisted : .ok name ∈ entries ∨ ∃ error, .error error ∈ entries) {pending pending' : List (List Text)}
    (h : searchEntries host wanted rootStamp.1 late folder left at' entries pending = .ok pending') :
    folder ++ [name] ∈ pending' ∧ folder ++ [name] ≠ file := by
  induction entries generalizing at' pending with
  | nil =>
    rcases hlisted with hname | ⟨error, herror⟩
    · cases hname
    · cases herror
  | cons entry entries ih =>
    unfold searchEntries at h
    split at h
    · cases h
    cases entry with
    | error error => cases h
    | ok own =>
      by_cases hown : own = name
      · subst hown
        obtain ⟨ownStamp, ownId, hentry⟩ := folder_above hbelow hfile
        simp only at h
        split at h
        · cases h
        · rename_i hkind
          exact absurd hkind (host.typed _ _ _ hentry)
        · split at h
          · cases h
          · rename_i hlook
            rw [host.looked _ _ hlook] at hentry
            cases hentry
          · rename_i lookedStamp lookedId hlook
            rw [host.looked _ _ hlook] at hentry
            cases hentry
            split at h
            · cases h
            · rename_i hnone
              have hunwanted : ownStamp ∉ wanted := by simpa using hnone
              have hsame : ownStamp.1 = rootStamp.1 :=
                host.mounted _ _ _ _ _ _ _ _ _ hroot (host.looked _ _ hlook) hfile
                  (hfolder.trans (List.prefix_append _ _)) hbelow hdevice
              rw [if_pos hsame] at h
              refine ⟨searchEntries_grows h List.mem_cons_self, ?_⟩
              rintro rfl
              rw [host.looked _ _ hlook] at hfile
              cases hfile
              exact hunwanted hwanted
      · have hrest : .ok name ∈ entries ∨ ∃ error, .error error ∈ entries := by
          rcases hlisted with hname | ⟨error, herror⟩
          · rcases List.mem_cons.mp hname with hsame | hname
            · exact absurd (Except.ok.inj hsame).symm hown
            · exact .inl hname
          · rcases List.mem_cons.mp herror with hsame | herror
            · cases hsame
            · exact .inr ⟨error, herror⟩
        simp only at h
        split at h
        · cases h
        · exact ih hrest h
        · split at h
          · cases h
          · exact ih hrest h
          · split at h
            · cases h
            · exact ih hrest h

theorem searchPending_absent (hroot : host.entry root = some (.folder rootStamp rootId))
    (hfile : host.entry file = some (.folder stamp identity)) (hwanted : stamp ∈ wanted)
    (hdevice : rootStamp.1 = stamp.1) {left : Nat} {pending : List (List Text)}
    (h : searchPending host wanted rootStamp.1 late left pending = .absent) :
    ∀ folder ∈ pending, root <+: folder → folder <+: file → folder = file := by
  induction left generalizing pending with
  | zero =>
    cases pending with
    | nil => exact fun folder hmem => absurd hmem List.not_mem_nil
    | cons folder pending => cases h
  | succ left ih =>
    cases pending with
    | nil => exact fun folder hmem => absurd hmem List.not_mem_nil
    | cons first pending =>
      unfold searchPending at h
      split at h
      · cases h
      cases hread : host.readDir first with
      | error error =>
        rw [hread] at h
        cases h
      | ok entries =>
        rw [hread] at h
        simp only at h
        split at h
        · rename_i outcome houtcome
          exact absurd h (searchEntries_error houtcome)
        · rename_i pending' hpending'
          intro folder hmem hfolder hbelow
          rcases List.mem_cons.mp hmem with rfl | hmem
          · by_contra hne
            obtain ⟨rest, hrest⟩ := hbelow
            cases rest with
            | nil => exact hne (by simpa using hrest)
            | cons name rest =>
              have hchild : folder ++ [name] <+: file := ⟨rest, by rw [← hrest]; simp⟩
              obtain ⟨childStamp, childId, hentry⟩ := folder_above hchild hfile
              obtain ⟨hleft, hother⟩ := searchEntries_reaches hroot hfile hwanted hdevice hfolder hchild
                (host.listed _ _ _ _ _ hentry hread) hpending'
              exact hother (ih h _ hleft (hfolder.trans (List.prefix_append _ _)) hchild)
          · exact ih h folder (searchEntries_grows hpending' hmem) hfolder hbelow

theorem searchFolders_absent (hroot : host.entry root = some (.folder rootStamp rootId))
    (hfile : host.entry file = some (.folder stamp identity)) (hwanted : stamp ∈ wanted)
    (hdevice : rootStamp.1 = stamp.1) (h : searchFolders host late root wanted = .absent) :
    ¬ root <+: file := by
  intro hbelow
  unfold searchFolders at h
  split at h
  · cases h
  · rename_i own hown
    obtain ⟨ownId, hentry⟩ := realDirectory_ok hown
    rw [hroot] at hentry
    cases hentry
    split at h
    · cases h
    · rename_i hnone
      have hunwanted : rootStamp ∉ wanted := by simpa using hnone
      have hsame := searchPending_absent hroot hfile hwanted hdevice h root (List.mem_singleton_self _)
        (List.prefix_refl _) hbelow
      subst hsame
      rw [hroot] at hfile
      cases hfile
      exact hunwanted hwanted

end Search

/-! ## The plan -/

section Plan

variable {exclude : Option Uuid} {path : PathBuf} {identity : FileIdentity}

/-- What a plan that passes found of one registered root. -/
inductive Cleared (R : Reader) (host : Host) (identity : FileIdentity) (plan : OverlapPlan)
    (mode : StaleRoots) (other : Location) : Prop
  | resolved (root : CanonicalRoot) (hroot : resolve host other.path = .ok root)
      (hapart : root.overlaps R plan.candidate identity.volume = false)
  | stale (error : LibraryError) (herror : resolve host other.path = .error error)
      (habove : plan.candidate.descendsFrom other.identity = false)
      (hsearch : mode = .search → ∃ stale ∈ plan.stale,
        plan.candidate.recordedFolder other.identity = some stale.folder)

structure Planned (R : Reader) (host : Host) (exclude : Option Uuid) (path : PathBuf)
    (identity : FileIdentity) (locations : List Location) (mode : StaleRoots) (plan : OverlapPlan) :
    Prop where
  candidate : resolve host path = .ok plan.candidate
  unproven : ∀ other ∈ onVolume identity locations, some other.id ≠ exclude →
    rootProven other.identity identity = false
  cleared : ∀ other ∈ onVolume identity locations, some other.id ≠ exclude →
    Cleared R host identity plan mode other
  folders : ∀ stale ∈ plan.stale, ∃ recorded, plan.candidate.recordedFolder recorded = some stale.folder

theorem planOverlap_ok {locations : List Location} {mode : StaleRoots} {plan : OverlapPlan}
    (h : planOverlap R host exclude path identity locations mode = .ok plan) :
    Planned R host exclude path identity locations mode plan := by
  obtain ⟨candidate, hcandidate, h₁⟩ := bind_eq_ok.mp h
  obtain ⟨judged, hjudged, h₂⟩ := bind_eq_ok.mp h₁
  cases h₂
  have hjudge : ∀ other ∈ onVolume identity locations, some other.id ≠ exclude →
      rootProven other.identity identity = false ∧
      Cleared R host identity { candidate, stale := judged.reduceOption } mode other := by
    intro other hother hkept
    obtain ⟨verdict, hmem, hverdict⟩ := Result.mapM_of_mem hjudged hother
    unfold judge at hverdict
    simp only [if_neg hkept] at hverdict
    split at hverdict
    · cases hverdict
    · rename_i hproven
      refine ⟨by simpa using hproven, ?_⟩
      split at hverdict
      · rename_i root hroot
        split at hverdict
        · cases hverdict
        · rename_i hapart
          exact .resolved root hroot (by simpa using hapart)
      · rename_i error herror
        split at hverdict
        · cases hverdict
        · rename_i hrecorded
          simp only [Bool.or_eq_true, not_or, Bool.not_eq_true] at hrecorded
          refine .stale error herror hrecorded.1.1 fun hmode => ?_
          simp only [if_pos hmode] at hverdict
          split at hverdict
          · cases hverdict
          · rename_i folder hfolder
            cases hverdict
            exact ⟨_, List.reduceOption_mem_iff.mpr hmem, hfolder⟩
  refine ⟨hcandidate, fun other hother hkept => (hjudge other hother hkept).1,
    fun other hother hkept => (hjudge other hother hkept).2, fun stale hstale => ?_⟩
  obtain ⟨other, -, hverdict⟩ := Result.mem_mapM hjudged (List.reduceOption_mem_iff.mp hstale)
  unfold judge at hverdict
  simp only at hverdict
  split at hverdict
  · cases hverdict
  · split at hverdict
    · cases hverdict
    · split at hverdict
      · split at hverdict
        · cases hverdict
        · cases hverdict
      · split at hverdict
        · cases hverdict
        · split at hverdict
          · split at hverdict
            · cases hverdict
            · rename_i folder hfolder
              cases hverdict
              exact ⟨other.identity, hfolder⟩
          · cases hverdict

end Plan

theorem refuseHeldStaleRoots_ok {search : FolderSearch} {stale : List StaleRoot}
    (h : refuseHeldStaleRoots search stale = .ok ()) : search = .absent := by
  unfold refuseHeldStaleRoots at h
  cases search with
  | absent => rfl
  | found index found =>
    simp only at h
    split at h
    · cases h
    · cases h
  | incomplete reason =>
    simp only at h
    split at h
    · cases h
    · cases h

section Accepted

variable {exclude : Option Uuid} {path : PathBuf} {identity : FileIdentity}
  {late : Nat → Nat → Bool} {locations : List Location} {searched : Searched}

theorem searchStaleRoots_ok
    (h : searchStaleRoots R host exclude path identity late locations = .ok searched) :
    ∀ stamp ∈ searched.absent,
      searchFolders host late searched.candidate.path searched.absent = .absent := by
  obtain ⟨plan, hplan, h₁⟩ := bind_eq_ok.mp h
  simp only at h₁
  split at h₁
  · obtain ⟨_, hsearch, h₂⟩ := bind_eq_ok.mp h₁
    cases h₂
    exact fun _ _ => refuseHeldStaleRoots_ok hsearch
  · rename_i hnone
    cases h₁
    intro stamp hstamp
    rw [ne_eq, not_not] at hnone
    simp only [hnone, List.not_mem_nil] at hstamp

theorem recheckOverlap_ok (h : recheckOverlap R host exclude path identity locations searched = .ok none) :
    ∃ plan, Planned R host exclude path identity locations .search plan ∧
      ∀ stale ∈ plan.stale, plan.candidate = searched.candidate ∧ stale.folder ∈ searched.absent := by
  obtain ⟨plan, hplan, h₁⟩ := bind_eq_ok.mp h
  refine ⟨plan, planOverlap_ok hplan, fun stale hstale => ?_⟩
  have hnone := Option.map_eq_none_iff.mp (Except.ok.inj h₁)
  have hcovered := List.find?_eq_none.mp hnone stale hstale
  simpa using hcovered

/-! ## Apart -/

def Overlap (left right : List Text) : Prop := left <+: right ∨ right <+: left

/-- The folder the path leads to, where it has the identity given for it. -/
def Chosen (host : Host) (path : PathBuf) (identity : FileIdentity) (chosen : List Text) : Prop :=
  ∃ root stamp, resolve host path = .ok root ∧ root.path = chosen ∧
    host.entry chosen = some (.folder stamp identity)

def Records (host : Host) (other : Location) (folder : List Text) : Prop :=
  ∃ stamp identity, host.entry folder = some (.folder stamp identity) ∧
    rootProven other.identity identity = true

def LeadsTo (host : Host) (other : Location) (folder : List Text) : Prop :=
  ∃ root, resolve host other.path = .ok root ∧ root.path = folder

structure Apart (host : Host) (chosen : List Text) (other : Location) : Prop where
  recorded : ∀ folder, Records host other folder → ¬ Overlap chosen folder
  stored : ∀ folder, LeadsTo host other folder → ¬ Overlap chosen folder

/-- The folder a location records, while its stored path resolves to another. -/
def Replaced (host : Host) (other : Location) (folder : List Text) : Prop :=
  Records host other folder ∧ ∃ instead, LeadsTo host other instead ∧ instead ≠ folder

theorem overlaps_of_overlap {own theirs : CanonicalRoot} {ownPath theirPath : PathBuf}
    (hown : Resolves host ownPath own) (htheirs : Resolves host theirPath theirs)
    (h : Overlap theirs.path own.path) (volume : VolumeIdentity) :
    own.overlaps R theirs volume = true := by
  obtain ⟨ownStamp, ownId, hownFound, hownFirst⟩ := hown.first
  obtain ⟨theirStamp, theirId, htheirFound, htheirFirst⟩ := htheirs.first
  unfold CanonicalRoot.overlaps
  simp only [hownFirst, htheirFirst, Bool.or_eq_true, List.contains_iff_mem]
  rcases h with hbelow | habove
  · exact .inl (.inr (hown.ancestor _ hbelow _ _ htheirFound))
  · exact .inl (.inl (htheirs.ancestor _ habove _ _ hownFound))

theorem sameVolume_eq {left right : VolumeIdentity} :
    sameVolume left right = true ↔
      left.filesystem = right.filesystem ∧ left.stableId.isSome ∧ left.stableId = right.stableId := by
  simp [sameVolume, and_assoc]

theorem recordedFolder_eq {root : CanonicalRoot} (hroot : Resolves host path root) {stamp : Stamp}
    (hchosen : host.entry root.path = some (.folder stamp identity)) {other : Location}
    (hvolume : sameVolume other.identity.volume identity.volume = true) {folder : List Text}
    {folderStamp : Stamp} {folderId : FileIdentity}
    (hfolder : host.entry folder = some (.folder folderStamp folderId))
    (hproven : rootProven other.identity folderId = true) :
    root.recordedFolder other.identity = some folderStamp ∧ stamp.1 = folderStamp.1 := by
  unfold rootProven at hproven
  simp only [Bool.and_eq_true, Option.isSome_iff_exists] at hproven
  obtain ⟨⟨⟨hsame, hstable⟩, fileId, hrecorded⟩, hmatch⟩ := hproven
  have hid : folderId.fileId = some fileId := by
    rw [← hrecorded]
    exact (of_decide_eq_true hmatch).symm
  have hdevice : stamp.1 = folderStamp.1 := by
    apply host.device _ _ _ _ _ _ hchosen hfolder
    obtain ⟨hfilesystem, hsome, hstableId⟩ := sameVolume_eq.mp hsame
    obtain ⟨hfilesystem', -, hstableId'⟩ := sameVolume_eq.mp hvolume
    refine sameVolume_eq.mpr ⟨?_, ?_, ?_⟩
    · rw [← hfilesystem', hfilesystem]
    · rw [← hstableId']
      exact hsome
    · rw [← hstableId', hstableId]
  obtain ⟨first, firstId, hfirst, hhead⟩ := hroot.first
  rw [hchosen] at hfirst
  cases hfirst
  refine ⟨?_, hdevice⟩
  unfold CanonicalRoot.recordedFolder
  rw [hhead, hrecorded]
  simp [hstable, host.numbered _ _ _ _ hfolder hid, hdevice]

theorem apart_of_accepted {earlier : List Location}
    (hsearch : searchStaleRoots R host exclude path identity late earlier = .ok searched)
    (hrecheck : recheckOverlap R host exclude path identity locations searched = .ok none)
    {chosen : List Text} (hchosen : Chosen host path identity chosen) {other : Location}
    (hother : other ∈ onVolume identity locations) (hkept : some other.id ≠ exclude)
    (hreplaced : ∀ folder, Replaced host other folder → ¬ Overlap chosen folder) :
    Apart host chosen other := by
  obtain ⟨plan, hplan, hcovered⟩ := recheckOverlap_ok hrecheck
  obtain ⟨root, stamp, hroot, rfl, hfound⟩ := hchosen
  have hcandidate : plan.candidate = root := Except.ok.inj (hplan.candidate.symm.trans hroot)
  have hresolves := resolve_ok hroot
  have hvolume : sameVolume other.identity.volume identity.volume = true := by
    have hfilter := (List.mem_filter.mp hother).2
    rw [Bool.and_eq_true] at hfilter
    exact hfilter.1
  have hstored : ∀ folder, LeadsTo host other folder → ¬ Overlap root.path folder := by
    rintro folder ⟨own, hown, rfl⟩ hoverlap
    cases hplan.cleared other hother hkept with
    | resolved resolved hresolved hapart =>
      rw [hown] at hresolved
      cases hresolved
      rw [hcandidate, overlaps_of_overlap (resolve_ok hown) hresolves hoverlap] at hapart
      cases hapart
    | stale error herror =>
      rw [hown] at herror
      cases herror
  refine ⟨?_, hstored⟩
  intro folder hrecords
  cases hplan.cleared other hother hkept with
  | resolved resolved hresolved hapart =>
    by_cases hsame : resolved.path = folder
    · exact hstored folder ⟨resolved, hresolved, hsame⟩
    · exact hreplaced folder ⟨hrecords, resolved.path, ⟨resolved, hresolved, rfl⟩, hsame⟩
  | stale error herror habove hsearched =>
    obtain ⟨folderStamp, folderId, hfolder, hproven⟩ := hrecords
    obtain ⟨hrecorded, hdevice⟩ := recordedFolder_eq hresolves hfound hvolume hfolder hproven
    obtain ⟨stale, hstale, hstaleFolder⟩ := hsearched rfl
    obtain ⟨hsame, habsent⟩ := hcovered stale hstale
    rw [hcandidate] at hstaleFolder habove hsame
    rw [hrecorded] at hstaleFolder
    cases hstaleFolder
    rintro (hbelow | hinside)
    · have hnone := searchStaleRoots_ok hsearch _ habsent
      rw [← hsame] at hnone
      exact searchFolders_absent hfound hfolder habsent hdevice hnone hbelow
    · have hmem := hresolves.ancestor folder hinside _ _ hfolder
      unfold CanonicalRoot.descendsFrom at habove
      simp [hrecorded, hmem] at habove

end Accepted

end PlateVault.Roots
