import PlateVault.Grouping.Metadata
import PlateVault.Library.Trashed
import PlateVault.Roots.Apart

/-!
# Registrations and remaps over a changing tree

Any number of calls search their candidates outside the writer and commit in it; folders change and
the catalog's other calls run in between. A search over a tree that changed under it may find
anything.
-/

namespace PlateVault.Roots

open Library (Catalog Location Reader RemapFiles RemapReview sameVolume validateVolume)
open Result (bind_eq_ok)

/-! ## Requests -/

def requireRootIdentity (identity : FileIdentity) : Result Unit := do
  validateVolume identity.volume
  Result.require (!(identity.volume.fileIdsStable && identity.fileId.all (·.isEmpty)))
    (.identityConflict "root folder identity is missing on a volume with stable file ids")

def requireAbsolute (path : PathBuf) : Result Unit :=
  Result.require path.absolute (.invalidInput "location root must be absolute")

def validName (name : Text) : Result Text := do
  Result.require (trim name ≠ []) (.invalidInput "display name is empty")
  return trim name

/-- A registration under a new id, or the remap of a review its reader knows. -/
inductive Request (R : Reader)
  | register (id : Uuid) (name : Text) (path : PathBuf) (identity : FileIdentity)
  | remap (reader : Catalog R) (review : RemapReview) (expectedRevision : Nat) (files : RemapFiles)
      (now : Nat) (known : reader.remapReviews.find? review.id = some review)

namespace Request

variable {R : Reader}

def exclude : Request R → Option Uuid
  | .register .. => none
  | .remap _ review .. => some review.locationId

def path : Request R → PathBuf
  | .register _ _ path _ => path
  | .remap _ review .. => review.proposedRoot

def identity : Request R → FileIdentity
  | .register _ _ _ identity => identity
  | .remap _ review .. => review.proposedIdentity

def check : Request R → Result Unit
  | .register _ name path identity => do
    let _ ← validName name
    requireAbsolute path
    requireRootIdentity identity
  | .remap .. => .ok ()

/-- The transaction once the overlap is `overlap`. -/
def commit (c : Catalog R) (overlap : Result Unit) : Request R → Result (Catalog R)
  | .register id name path identity => do
    c.registerLocation id (← validName name) path identity overlap
  | .remap reader review expectedRevision files now _ =>
    c.applyRemap reader review.id expectedRevision files overlap now

end Request

/-! ## Steps -/

/-- A call in progress, and what its last search proved. -/
structure Pending (R : Reader) where
  request : Request R
  attempt : Nat
  searched : Option Searched

structure State (R : Reader) where
  catalog : Catalog R
  host : Host
  calls : Nat → Option (Pending R)

inductive Event (R : Reader)
  | tree (host : Host)
  | begin (call : Nat) (request : Request R)
  | search (call : Nat)
  | searchAmid (call : Nat)
  | accept (call : Nat)
  | again (call : Nat)
  | fail (call : Nat)
  | library (call : Library.Call R)

section Step

variable {R : Reader}

/-- The catalog's other calls; a reselect plans its overlap without a search. -/
def Other (host : Host) (c : Catalog R) : Library.Call R → Prop
  | .registerLocation .. => False
  | .applyRemap .. => False
  | .reselectLocation id _ path identity overlap => overlap =
      (planOverlap R host (some id) path identity c.locations.rows .compare).map fun _ => ()
  | _ => True

def State.search (s : State R) (request : Request R) (late : Nat → Nat → Bool) : Result Searched :=
  searchStaleRoots R s.host request.exclude request.path request.identity late s.catalog.locations.rows

def State.recheck (s : State R) (request : Request R) (searched : Searched) :
    Result (Option Unsearched) :=
  recheckOverlap R s.host request.exclude request.path request.identity s.catalog.locations.rows
    searched

inductive Step : State R → Event R → State R → Prop
  | tree (s : State R) (host : Host) : Step s (.tree host) { s with host }
  | begin {s : State R} {call : Nat} {request : Request R} (hnew : s.calls call = none)
      (hcheck : request.check = .ok ()) :
      Step s (.begin call request) { s with
        calls := Function.update s.calls call
          (some { request, attempt := 1, searched := none }) }
  | search {s : State R} {call attempt : Nat} {request : Request R} {searched : Searched}
      {late : Nat → Nat → Bool} (hcall : s.calls call = some { request, attempt, searched := none })
      (hsearch : s.search request late = .ok searched) :
      Step s (.search call) { s with
        calls := Function.update s.calls call
          (some { request, attempt, searched := some searched }) }
  | searchAmid {s : State R} {call attempt : Nat} {request : Request R}
      (hcall : s.calls call = some { request, attempt, searched := none }) (searched : Searched) :
      Step s (.searchAmid call) { s with
        calls := Function.update s.calls call
          (some { request, attempt, searched := some searched }) }
  | accept {s : State R} {call attempt : Nat} {request : Request R} {searched : Searched}
      {c : Catalog R} (hcall : s.calls call = some { request, attempt, searched := some searched })
      (hrecheck : s.recheck request searched = .ok none)
      (hcommit : request.commit s.catalog (.ok ()) = .ok c) :
      Step s (.accept call) { s with catalog := c, calls := Function.update s.calls call none }
  | again {s : State R} {call attempt : Nat} {request : Request R} {searched : Searched}
      {stale : Unsearched}
      (hcall : s.calls call = some { request, attempt, searched := some searched })
      (hrecheck : s.recheck request searched = .ok (some stale)) (hattempt : attempt < searchAttempts) :
      Step s (.again call) { s with
        calls := Function.update s.calls call
          (some { request, attempt := attempt + 1, searched := none }) }
  | fail (s : State R) (call : Nat) :
      Step s (.fail call) { s with calls := Function.update s.calls call none }
  | library {s : State R} {call : Library.Call R} {c : Catalog R}
      (hother : Other s.host s.catalog call) (hcall : s.catalog.perform call = .ok c) :
      Step s (.library call) { s with catalog := c }

def State.start (host : Host) : State R where
  catalog := .empty
  host := host
  calls := fun _ => none

end Step

abbrev Runs {R : Reader} (host : Host) (trace : List (Event R)) (s : State R) : Prop :=
  Run Step (State.start host) trace s

/-! ## From the last search to the commit -/

variable {R : Reader}

/-- Whatever the call has searched, it searched in this tree. -/
structure SearchedIn (host : Host) (call : Nat) (s : State R) : Prop where
  tree : s.host = host
  search : ∀ pending searched, s.calls call = some pending → pending.searched = some searched →
    ∃ late locations, searchStaleRoots R host pending.request.exclude pending.request.path
      pending.request.identity late locations = .ok searched

/-- A step that neither changes the tree nor searches for the call. -/
def Calm (call : Nat) : Event R → Prop
  | .tree _ => False
  | .search other => other ≠ call
  | .searchAmid other => other ≠ call
  | _ => True

theorem SearchedIn.update {host : Host} {call : Nat} {s : State R} (h : SearchedIn host call s)
    {other : Nat} {pending : Option (Pending R)}
    (hpending : other = call → ∀ p ∈ pending, p.searched = none) (c : Catalog R) :
    SearchedIn host call { s with catalog := c, calls := Function.update s.calls other pending } where
  tree := h.tree
  search := by
    intro p searched hp hsearched
    change Function.update s.calls other pending call = some p at hp
    by_cases hother : other = call
    · subst hother
      rw [Function.update_self] at hp
      rw [hpending rfl p hp] at hsearched
      cases hsearched
    · rw [Function.update_of_ne (Ne.symm hother)] at hp
      exact h.search p searched hp hsearched

theorem searchedIn_step {host : Host} {call : Nat} {s s' : State R} {e : Event R}
    (h : SearchedIn host call s) (hstep : Step s e s') (hcalm : Calm call e) :
    SearchedIn host call s' := by
  cases hstep with
  | tree host' => exact absurd hcalm id
  | begin hnew hcheck =>
    refine h.update (fun _ p hp => ?_) s.catalog
    cases hp
    rfl
  | search hcall hsearch => exact h.update (fun hsame => absurd hsame hcalm) s.catalog
  | searchAmid hcall searched => exact h.update (fun hsame => absurd hsame hcalm) s.catalog
  | accept hcall hrecheck hcommit =>
    refine h.update (fun _ p hp => ?_) _
    cases hp
  | again hcall hrecheck hattempt =>
    refine h.update (fun _ p hp => ?_) s.catalog
    cases hp
    rfl
  | fail =>
    refine h.update (fun _ p hp => ?_) s.catalog
    cases hp
  | library hother hcall => exact ⟨h.tree, h.search⟩

theorem searchedIn_run {host : Host} {call : Nat} {s s' : State R} {trace : List (Event R)}
    (h : SearchedIn host call s) (hrun : Run Step s trace s') (hcalm : ∀ e ∈ trace, Calm call e) :
    SearchedIn host call s' := by
  induction hrun with
  | nil => exact h
  | cons hstep _ ih =>
    exact ih (searchedIn_step h hstep (hcalm _ List.mem_cons_self))
      fun e he => hcalm e (List.mem_cons_of_mem _ he)

theorem searchedIn_search {call : Nat} {s s' : State R} (hstep : Step s (.search call) s') :
    SearchedIn s.host call s' := by
  cases hstep with
  | search hcall hsearch =>
    refine ⟨rfl, fun pending searched hpending hsearched => ?_⟩
    simp only [Function.update_self] at hpending
    cases hpending
    cases hsearched
    exact ⟨_, _, hsearch⟩

/-! ## Every run -/

/-- With the tree unchanged since a call's last search, what it commits is apart from every other
root on the volume exactly where no replaced root's recorded folder overlaps it. -/
theorem roots_apart_iff {start : Host} {front middle : List (Event R)} {call : Nat} {s s' : State R}
    (h : Runs start (front ++ .search call :: middle) s) (hcalm : ∀ e ∈ middle, Calm call e)
    (haccept : Step s (.accept call) s') {pending : Pending R} (hcall : s.calls call = some pending)
    {chosen : List Text} (hchosen : Chosen s.host pending.request.path pending.request.identity chosen) :
    (∀ other ∈ onVolume pending.request.identity s.catalog.locations.rows,
      some other.id ≠ pending.request.exclude → Apart s.host chosen other) ↔
    ∀ other ∈ onVolume pending.request.identity s.catalog.locations.rows,
      some other.id ≠ pending.request.exclude → ∀ folder, Replaced s.host other folder →
        ¬ Overlap chosen folder := by
  constructor
  · intro hapart other hother hkept folder hreplaced
    exact (hapart other hother hkept).recorded folder hreplaced.1
  · intro hreplaced other hother hkept
    obtain ⟨s₁, -, hafter⟩ := h.split
    obtain ⟨s₂, hsearch, hmiddle⟩ := Run.cons_iff.mp hafter
    have hsearched := searchedIn_run (searchedIn_search hsearch) hmiddle hcalm
    cases haccept with
    | accept hpending hrecheck hcommit =>
      rw [hpending] at hcall
      cases hcall
      obtain ⟨late, earlier, hfound⟩ := hsearched.search _ _ hpending rfl
      rw [← hsearched.tree] at hfound
      exact apart_of_accepted hfound hrecheck hchosen hother hkept (hreplaced other hother hkept)

/-! ## A moved root with another folder in its place -/

abbrev Folders := List (List Text × Nat × String)

def Folders.entry (folders : Folders) (path : List Text) : Option Entry :=
  (folders.find? fun folder => folder.1 = path).map fun folder =>
    .folder (1, folder.2.1) ⟨Library.volumeNamed "card", some folder.2.2⟩

def Folders.Tree (folders : Folders) : Prop :=
  (∀ folder ∈ folders, folder.1 = [] ∨ ∃ parent ∈ folders, parent.1 = folder.1.dropLast) ∧
  (∀ left ∈ folders, ∀ right ∈ folders, left.2.1 = right.2.1 → left.1 = right.1) ∧
  ∀ folder ∈ folders, unixInode folder.2.2 = some folder.2.1

def gone : Inventory.IoError := ⟨.notFound, "no such folder"⟩

theorem Folders.mem_of_entry {folders : Folders} {path : List Text} {found : Entry}
    (h : folders.entry path = some found) : ∃ folder ∈ folders, folder.1 = path ∧
      found = .folder (1, folder.2.1) ⟨Library.volumeNamed "card", some folder.2.2⟩ := by
  obtain ⟨folder, hfolder, hfound⟩ := Option.map_eq_some_iff.mp h
  refine ⟨folder, List.mem_of_find?_eq_some hfolder, ?_, hfound.symm⟩
  simpa using List.find?_some hfolder

theorem Folders.entry_of_mem {folders : Folders} {folder : List Text × Nat × String}
    (h : folder ∈ folders) : ∃ stamp identity, folders.entry folder.1 = some (.folder stamp identity) := by
  unfold Folders.entry
  cases hfind : folders.find? fun other => other.1 = folder.1 with
  | none => exact absurd (List.find?_eq_none.mp hfind folder h) (by simp)
  | some found => exact ⟨_, _, rfl⟩

/-- A host with these folders and no others, every one readable. -/
def Folders.host (folders : Folders) (htree : folders.Tree) : Host where
  entry := folders.entry
  canonicalize := fun path =>
    if (folders.entry (names path)).isSome then .ok (names path) else .error gone
  lstat := fun path => (folders.entry path).elim (.error gone) .ok
  readDir := fun folder => .ok ((folders.filter fun other => other.1 ≠ [] ∧ other.1.dropLast = folder).map
    fun other => .ok (other.1.getLast?.getD []))
  isDir := fun _ => .ok true
  looked := by
    intro path found h
    cases hentry : folders.entry path with
    | none =>
      rw [hentry] at h
      cases h
    | some entry =>
      rw [hentry] at h
      cases h
      rfl
  typed := fun _ _ _ _ h => by cases h
  listed := by
    intro folder name stamp identity entries hentry hread
    cases hread
    obtain ⟨found, hfound, hpath, -⟩ := Folders.mem_of_entry hentry
    refine .inl (List.mem_map.mpr ⟨found, List.mem_filter.mpr ⟨hfound, ?_⟩, ?_⟩)
    · simp [hpath]
    · simp [hpath]
  above := by
    intro folder name found hentry
    obtain ⟨own, hown, hpath, -⟩ := Folders.mem_of_entry hentry
    rcases htree.1 own hown with hroot | ⟨parent, hparent, hdrop⟩
    · rw [hpath] at hroot
      simp at hroot
    · rw [hpath, List.dropLast_concat] at hdrop
      rw [← hdrop]
      exact Folders.entry_of_mem hparent
  place := by
    intro left right stamp leftId rightId hleft hright
    obtain ⟨own, hown, rfl, hownFound⟩ := Folders.mem_of_entry hleft
    obtain ⟨other, hother, rfl, hotherFound⟩ := Folders.mem_of_entry hright
    cases hownFound
    obtain ⟨hstamp, -⟩ := Entry.folder.inj hotherFound
    exact htree.2.1 own hown other hother (congrArg Prod.snd hstamp)
  device := by
    intro left right leftStamp rightStamp leftId rightId hleft hright _
    obtain ⟨own, -, -, hownFound⟩ := Folders.mem_of_entry hleft
    obtain ⟨other, -, -, hotherFound⟩ := Folders.mem_of_entry hright
    cases hownFound
    cases hotherFound
    rfl
  mounted := by
    intro outer middle inner outerStamp middleStamp innerStamp outerId middleId innerId houter hmiddle
      _ _ _ _
    obtain ⟨own, -, -, hownFound⟩ := Folders.mem_of_entry houter
    obtain ⟨other, -, -, hotherFound⟩ := Folders.mem_of_entry hmiddle
    cases hownFound
    cases hotherFound
    rfl
  numbered := by
    intro path stamp identity fileId hentry hid
    obtain ⟨folder, hfolder, -, hfound⟩ := Folders.mem_of_entry hentry
    cases hfound
    cases hid
    exact htree.2.2 folder hfolder

def requestA : Request Library.plainReader :=
  .register 1 ['a'] ⟨true, [.normal ['a']]⟩ ⟨Library.volumeNamed "card", some "10"⟩

def requestB : Request Library.plainReader :=
  .register 2 ['b'] ⟨true, [.normal ['b']]⟩ ⟨Library.volumeNamed "card", some "20"⟩

def catalogA : Catalog Library.plainReader :=
  (requestA.commit .empty (.ok ())).toOption.getD .empty

def catalogB : Catalog Library.plainReader :=
  (requestB.commit catalogA (.ok ())).toOption.getD catalogA

def foundA : Searched := ⟨⟨[['a']], [(1, 10), (1, 2)]⟩, []⟩

def foundB : Searched := ⟨⟨[['b']], [(1, 20), (1, 2)]⟩, []⟩

/-- The first folder is registered, the tree may change, and the second is searched. -/
def traceAB (host : Host) : List (Event Library.plainReader) :=
  [.begin 0 requestA, .search 0, .accept 0, .tree host, .begin 1 requestB, .search 1]

theorem runs_traceAB (first second : Host)
    (hsearchA : (State.start first).search requestA (fun _ _ => false) = .ok foundA)
    (hrecheckA : (State.start first).recheck requestA foundA = .ok none)
    (hsearchB : searchStaleRoots Library.plainReader second none requestB.path requestB.identity
      (fun _ _ => false) catalogA.locations.rows = .ok foundB) :
    ∃ calls, Runs first (traceAB second) { catalog := catalogA, host := second, calls } ∧
      calls 1 = some ⟨requestB, 1, some foundB⟩ := by
  have hbegun : Step (State.start first) (.begin 0 requestA) _ := .begin rfl rfl
  have hsearched : Step ⟨.empty, first, Function.update (fun _ => none) 0 (some ⟨requestA, 1, none⟩)⟩
      (.search 0) _ := .search rfl hsearchA
  have haccepted : Step ⟨.empty, first, Function.update (Function.update (fun _ => none) 0
      (some ⟨requestA, 1, none⟩)) 0 (some ⟨requestA, 1, some foundA⟩)⟩ (.accept 0)
      ⟨catalogA, first, _⟩ := .accept rfl hrecheckA rfl
  exact ⟨_, .cons hbegun (.cons hsearched (.cons haccepted (.cons (.tree _ second)
    (.cons (.begin rfl rfl) (.cons (.search rfl hsearchB) (.nil _)))))), rfl⟩

theorem still_tree : Folders.Tree [([], 2, "2"), ([['a']], 10, "10"), ([['b']], 20, "20")] := by
  unfold Folders.Tree
  decide

theorem moved_tree : Folders.Tree
    [([], 2, "2"), ([['a']], 11, "11"), ([['b']], 20, "20"), ([['b'], ['x']], 10, "10")] := by
  unfold Folders.Tree
  decide

def stillHost : Host := Folders.host _ still_tree

/-- The first folder has moved into the second, and another one is in its place. -/
def movedHost : Host := Folders.host _ moved_tree

theorem accept_B {host : Host} {calls : Nat → Option (Pending Library.plainReader)}
    (hcall : calls 1 = some ⟨requestB, 1, some foundB⟩)
    (hrecheck : recheckOverlap Library.plainReader host none requestB.path requestB.identity
      catalogA.locations.rows foundB = .ok none) :
    Step ⟨catalogA, host, calls⟩ (.accept 1) ⟨catalogB, host, Function.update calls 1 none⟩ :=
  .accept hcall hrecheck rfl

/-- Two folders side by side are registered apart. -/
theorem roots_apart_iff_still : ∃ s : State Library.plainReader, Runs stillHost (traceAB stillHost) s ∧
    ((∀ other ∈ onVolume requestB.identity s.catalog.locations.rows,
      some other.id ≠ requestB.exclude → Apart s.host [['b']] other) ↔
    ∀ other ∈ onVolume requestB.identity s.catalog.locations.rows,
      some other.id ≠ requestB.exclude → ∀ folder, Replaced s.host other folder →
        ¬ Overlap [['b']] folder) := by
  obtain ⟨calls, hruns, hcall⟩ := runs_traceAB stillHost stillHost rfl rfl rfl
  have hchosen : Chosen stillHost requestB.path requestB.identity [['b']] :=
    ⟨⟨[['b']], [(1, 20), (1, 2)]⟩, (1, 20), rfl, rfl, rfl⟩
  have hsplit : Runs stillHost ([.begin 0 requestA, .search 0, .accept 0, .tree stillHost,
      .begin 1 requestB] ++ .search 1 :: []) ⟨catalogA, stillHost, calls⟩ := hruns
  exact ⟨_, hruns, roots_apart_iff hsplit (fun _ he => absurd he List.not_mem_nil) (accept_B hcall rfl)
    hcall hchosen⟩

/-- The folder holding a moved root is registered while another folder is in its place. -/
theorem moved_root_is_inside : ¬ ∀ (start : Host) (front middle : List (Event Library.plainReader))
    (call : Nat) (s s' : State Library.plainReader) (pending : Pending Library.plainReader)
    (chosen : List Text), Runs start (front ++ .search call :: middle) s →
    (∀ e ∈ middle, Calm call e) → Step s (.accept call) s' → s.calls call = some pending →
    Chosen s.host pending.request.path pending.request.identity chosen →
    ∀ other ∈ onVolume pending.request.identity s.catalog.locations.rows,
      some other.id ≠ pending.request.exclude → Apart s.host chosen other := by
  intro hall
  obtain ⟨calls, hruns, hcall⟩ := runs_traceAB stillHost movedHost rfl rfl rfl
  have hchosen : Chosen movedHost requestB.path requestB.identity [['b']] :=
    ⟨⟨[['b']], [(1, 20), (1, 2)]⟩, (1, 20), rfl, rfl, rfl⟩
  have hapart := hall stillHost [.begin 0 requestA, .search 0, .accept 0, .tree movedHost,
    .begin 1 requestB] [] 1 _ _ _ [['b']] hruns (fun _ he => absurd he List.not_mem_nil)
    (accept_B hcall rfl) hcall hchosen
  obtain ⟨other, hother, hproven⟩ : ∃ other ∈ onVolume requestB.identity catalogA.locations.rows,
      Library.rootProven other.identity ⟨Library.volumeNamed "card", some "10"⟩ = true := by
    refine ⟨_, List.mem_cons_self, ?_⟩
    decide
  refine (hapart other hother (by exact Option.some_ne_none _)).recorded [['b'], ['x']]
    ⟨(1, 10), _, rfl, hproven⟩ (.inl ⟨[['x']], rfl⟩)

end PlateVault.Roots
