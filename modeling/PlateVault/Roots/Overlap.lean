import PlateVault.Library.Calls
import PlateVault.Roots.Host

/-!
# The overlap of a candidate root

A candidate is compared with the registered roots on its volume by folder identity, canonical path
and recorded path text. One that no longer resolves is searched for in the candidate's folders
before the writer, and matched again with the catalog inside it.
-/

namespace PlateVault.Roots

open Library (Catalog Location Reader rootProven sameVolume)
open Custody (display)

/-! ## Comparing two roots -/

/-- A path's components as `roots_overlap` compares them. -/
def names (path : PathBuf) : List Text :=
  path.parts.filterMap fun
    | .curDir => none
    | .parentDir => some ['.', '.']
    | .normal name => some name

/-- Same, ancestor or descendant roots using the volume's case and normalization rules. -/
def rootsOverlap (R : Reader) (left right : List Text) (volume : VolumeIdentity) : Bool :=
  (left.zip right).all fun pair => R.sameOn [pair.1] [pair.2] volume

namespace CanonicalRoot

/-- Same folder, ancestor or descendant, by folder identity or canonical path. -/
def overlaps (R : Reader) (own other : CanonicalRoot) (volume : VolumeIdentity) : Bool :=
  let byIdentity := match own.ancestry.head?, other.ancestry.head? with
    | some root, some theirRoot => other.ancestry.contains root || own.ancestry.contains theirRoot
    | _, _ => true
  byIdentity || rootsOverlap R own.path other.path volume

/-- The `(device, inode)` the recorded root folder has on this root's device. -/
def recordedFolder (root : CanonicalRoot) (recorded : FileIdentity) : Option Stamp := do
  let (device, _) ← root.ancestry.head?
  if recorded.volume.fileIdsStable then some (device, ← unixInode (← recorded.fileId)) else none

/-- The recorded root folder is this root or one of its ancestors on its volume. -/
def descendsFrom (root : CanonicalRoot) (recorded : FileIdentity) : Bool :=
  (root.recordedFolder recorded).any root.ancestry.contains

end CanonicalRoot

/-! ## The plan -/

/-- How a registered root that no longer resolves is treated. -/
inductive StaleRoots
  | compare
  | search
  deriving DecidableEq, Repr

/-- A registered root on the candidate's volume whose stored path no longer resolves. -/
structure StaleRoot where
  location : Location
  folder : Stamp
  error : LibraryError

structure OverlapPlan where
  candidate : CanonicalRoot
  stale : List StaleRoot

def unprovableStaleRoot (stale : Location) (error : LibraryError) : LibraryError :=
  let name := (String.ofList stale.name).quote
  .identityConflict ("registered location " ++ name ++ " at " ++ display stale.path ++
    " no longer resolves (" ++ error.display ++ "), and without a stable folder identity this " ++
    "folder cannot be proven not to hold it; reselect " ++ name ++ " at its current folder (where " ++
    "it was renamed or moved to, or where its volume is now mounted), or, if it was deleted or will " ++
    "not be verified again, review and confirm Retire location for " ++ name ++ ", then try again")

section Plan

variable (R : Reader) (host : Host) (exclude : Option Uuid) (path : PathBuf) (identity : FileIdentity)

/-- What one registered root on the volume says of the candidate. -/
def judge (mode : StaleRoots) (candidate : CanonicalRoot) (other : Location) :
    Result (Option StaleRoot) :=
  let overlap := .error (.identityConflict ("folder overlaps registered location " ++
    (String.ofList other.name).quote))
  if some other.id = exclude then .ok none
  else if rootProven other.identity identity then overlap
  else match resolve host other.path with
    | .ok resolved =>
      if resolved.overlaps R candidate identity.volume then overlap else .ok none
    | .error error =>
      if candidate.descendsFrom other.identity ||
          rootsOverlap R (names other.path) (names path) identity.volume ||
          rootsOverlap R (names other.path) candidate.path identity.volume then overlap
      else if mode = .search then
        match candidate.recordedFolder other.identity with
        | none => .error (unprovableStaleRoot other error)
        | some folder => .ok (some { location := other, folder, error })
      else .ok none

/-- The active locations on the volume, in the catalog's order. -/
def onVolume (locations : List Location) : List Location :=
  locations.filter fun other => sameVolume other.identity.volume identity.volume &&
    other.lifecycle = .active

/-- Refuse a root that is, contains or lies inside another registered root on the same volume. -/
def planOverlap (locations : List Location) (mode : StaleRoots) : Result OverlapPlan := do
  let candidate ← resolve host path
  let stale ← (onVolume identity locations).mapM (judge R host exclude path identity mode candidate)
  return { candidate, stale := stale.reduceOption }

end Plan

/-! ## Searching the candidate -/

/-- Outcome of searching a root's folders for recorded folder identities. -/
inductive FolderSearch
  | absent
  | found (index : Nat) (path : List Text)
  | incomplete (reason : String)
  deriving DecidableEq, Repr

def searchFoldersBound : Nat := 100000

def searchAttempts : Nat := 3

section Search

variable (host : Host) (wanted : List Stamp) (device : Nat) (late : Nat → Nat → Bool)

def tooSlow : FolderSearch :=
  .incomplete "it took longer than 10 s to search, and the search can be retried"

def unreadable (folder : List Text) (error : String) : FolderSearch :=
  .incomplete (shown folder ++ " cannot be read (" ++ error ++ ")")

/-- The entries of one folder: the folders still to read, or how the search ends; `late` answers each
look at the clock. -/
def searchEntries (folder : List Text) (left : Nat) :
    Nat → List (Except Inventory.IoError Text) → List (List Text) → Except FolderSearch (List (List Text))
  | _, [], pending => .ok pending
  | at', entry :: entries, pending =>
    if late left (at' + 1) then .error tooSlow
    else match entry with
    | .error error => .error (unreadable folder error.message)
    | .ok name =>
      let path := folder ++ [name]
      match host.isDir path with
      | .error error => .error (unreadable path error.message)
      | .ok false => searchEntries folder left (at' + 1) entries pending
      | .ok true =>
        match host.lstat path with
        | .error error => .error (unreadable path error.message)
        | .ok .other => searchEntries folder left (at' + 1) entries pending
        | .ok (.folder stamp _) =>
          match wanted.idxOf? stamp with
          | some index => .error (.found index path)
          | none => searchEntries folder left (at' + 1) entries
              (if stamp.1 = device then path :: pending else pending)

/-- Read the pending folders, the last one found first, at most `left` more of them. -/
def searchPending : Nat → List (List Text) → FolderSearch
  | _, [] => .absent
  | 0, _ :: _ => .incomplete ("it holds more than " ++ String.ofList (decimal searchFoldersBound) ++
      " folders")
  | left + 1, folder :: pending =>
    if late left 0 then tooSlow
    else match host.readDir folder with
    | .error error => unreadable folder error.message
    | .ok entries =>
      match searchEntries host wanted device late folder left 0 entries pending with
      | .error outcome => outcome
      | .ok pending => searchPending left pending

end Search

/-- Search `root` and the real folders below it on its own device for any `wanted` folder. -/
def searchFolders (host : Host) (late : Nat → Nat → Bool) (root : List Text) (wanted : List Stamp) :
    FolderSearch :=
  match realDirectory host root with
  | .error error => unreadable root error.display
  | .ok stamp =>
    match wanted.idxOf? stamp with
    | some index => .found index root
    | none => searchPending host wanted stamp.1 late searchFoldersBound [root]

/-- Refuse a candidate whose folders hold a stale root's recorded folder, or could not all be searched
for it. -/
def refuseHeldStaleRoots (search : FolderSearch) (stale : List StaleRoot) : Result Unit :=
  let gone (held : StaleRoot) := "registered location " ++ (String.ofList held.location.name).quote ++
    " at " ++ display held.location.path ++ " no longer resolves (" ++ held.error.display ++ ")"
  match search with
  | .absent => .ok ()
  | .found index found =>
    match stale[index]? with
    | some held => .error (.identityConflict (gone held ++ "; its folder is now " ++ shown found ++
        ", inside this folder, so reselect it there first"))
    | none => .error (.persistenceFailure "the stale root found is not one of those searched for")
  | .incomplete reason =>
    match stale.head? with
    | some held =>
      let name := (String.ofList held.location.name).quote
      .error (.identityConflict (gone held ++ ", and this folder cannot be searched for it: " ++
        reason ++ "; reselect " ++ name ++ " at its current folder first, review and confirm Retire " ++
        "location for " ++ name ++ " if it was deleted, or choose a folder that can be searched " ++
        "completely"))
    | none => .error (.persistenceFailure "no stale root was searched for")

/-! ## Before and inside the writer -/

/-- A candidate folder as it was searched, with the stale roots' folders proved absent from it. -/
structure Searched where
  candidate : CanonicalRoot
  absent : List Stamp

/-- A stale root the writer transaction found that the search did not cover. -/
structure Unsearched where
  id : Uuid
  revision : Nat

section Register

variable (R : Reader) (host : Host) (exclude : Option Uuid) (path : PathBuf) (identity : FileIdentity)

/-- Plan the overlap on a reader snapshot, then search for every stale root. -/
def searchStaleRoots (late : Nat → Nat → Bool) (locations : List Location) : Result Searched := do
  let plan ← planOverlap R host exclude path identity locations .search
  let absent := plan.stale.map (·.folder)
  if absent ≠ [] then
    refuseHeldStaleRoots (searchFolders host late plan.candidate.path absent) plan.stale
    return { candidate := plan.candidate, absent }
  else return { candidate := plan.candidate, absent }

/-- Inside the writer transaction: the first stale root that `searched` did not prove absent from this
same candidate. -/
def recheckOverlap (locations : List Location) (searched : Searched) : Result (Option Unsearched) := do
  let plan ← planOverlap R host exclude path identity locations .search
  let sameFolder : Bool := plan.candidate = searched.candidate
  return (plan.stale.find? fun stale => !sameFolder || !searched.absent.contains stale.folder).map
    fun stale => { id := stale.location.id, revision := stale.location.decisionRevision }

end Register

end PlateVault.Roots
