import PlateVault.Custody.Checks

/-!
# The folders of a host

A host's folder tree by canonical path, and what its calls answer about it. A folder is one
`(device, inode)` in one place, and a volume is one device, mounted in one place; any call may fail
at any path.
-/

namespace PlateVault.Roots

open Library (sameVolume)
open Custody (display fromIo)
open Result (bind_eq_ok)

/-- `(device, inode)`. -/
abbrev Stamp := Nat × Nat

inductive Entry
  | folder (stamp : Stamp) (identity : FileIdentity)
  | other
  deriving DecidableEq, Repr

/-- `u64::from_str`. -/
def parseU64 (text : Text) : Option Nat :=
  let digits := if text.head? = some '+' then text.tail else text
  if digits ≠ [] ∧ digits.all (·.isDigit) then
    some (Nat.ofDigitChars 10 digits 0) |>.filter (· < 2 ^ 64)
  else none

def unixInode (fileId : String) : Option Nat :=
  parseU64 (fileId.toList.takeWhile (· ≠ ':'))

structure Host where
  /-- What there is at a canonical path. -/
  entry : List Text → Option Entry
  canonicalize : PathBuf → Except Inventory.IoError (List Text)
  lstat : List Text → Except Inventory.IoError Entry
  readDir : List Text → Except Inventory.IoError (List (Except Inventory.IoError Text))
  /-- Whether a listed entry is a folder, by its own type. -/
  isDir : List Text → Except Inventory.IoError Bool
  looked : ∀ path found, lstat path = .ok found → entry path = some found
  typed : ∀ path stamp identity, entry path = some (.folder stamp identity) → isDir path ≠ .ok false
  listed : ∀ folder name stamp identity entries,
    entry (folder ++ [name]) = some (.folder stamp identity) → readDir folder = .ok entries →
    .ok name ∈ entries ∨ ∃ error, .error error ∈ entries
  above : ∀ folder name found, entry (folder ++ [name]) = some found →
    ∃ stamp identity, entry folder = some (.folder stamp identity)
  /-- A folder has one place. -/
  place : ∀ left right stamp leftId rightId, entry left = some (.folder stamp leftId) →
    entry right = some (.folder stamp rightId) → left = right
  /-- A volume is one device. -/
  device : ∀ left right leftStamp rightStamp leftId rightId,
    entry left = some (.folder leftStamp leftId) → entry right = some (.folder rightStamp rightId) →
    sameVolume leftId.volume rightId.volume = true → leftStamp.1 = rightStamp.1
  /-- A device is mounted in one place. -/
  mounted : ∀ outer middle inner outerStamp middleStamp innerStamp outerId middleId innerId,
    entry outer = some (.folder outerStamp outerId) → entry middle = some (.folder middleStamp middleId) →
    entry inner = some (.folder innerStamp innerId) → outer <+: middle → middle <+: inner →
    outerStamp.1 = innerStamp.1 → middleStamp.1 = outerStamp.1
  /-- A folder's file ID names its inode. -/
  numbered : ∀ path stamp identity fileId, entry path = some (.folder stamp identity) →
    identity.fileId = some fileId → unixInode fileId = some stamp.2

/-! ## Resolving a root -/

section Resolve

variable (host : Host)

def shown (path : List Text) : String := display ⟨true, path.map .normal⟩

def realDirectory (path : List Text) : Result Stamp :=
  match host.lstat path with
  | .error error => .error (fromIo error)
  | .ok .other =>
    .error (.identityConflict "a folder on the source path is a link or not a directory")
  | .ok (.folder stamp _) => .ok stamp

def folderAncestry (canonical : List Text) : Result (List Stamp) :=
  canonical.inits.reverse.mapM (realDirectory host)

/-- A root resolved through every link to its canonical folder. -/
structure CanonicalRoot where
  path : List Text
  ancestry : List Stamp
  deriving DecidableEq, Repr

def resolve (root : PathBuf) : Result CanonicalRoot := do
  let canonical ← (host.canonicalize root).mapError fromIo
  return { path := canonical, ancestry := ← folderAncestry host canonical }

end Resolve

/-! ## What resolving tells -/

variable {host : Host}

theorem realDirectory_ok {path : List Text} {stamp : Stamp} (h : realDirectory host path = .ok stamp) :
    ∃ identity, host.entry path = some (.folder stamp identity) := by
  unfold realDirectory at h
  cases hlook : host.lstat path with
  | error error =>
    rw [hlook] at h
    cases h
  | ok found =>
    rw [hlook] at h
    cases found with
    | other => cases h
    | folder own identity =>
      cases h
      exact ⟨identity, host.looked _ _ hlook⟩

theorem folder_above {outer inner : List Text} {stamp : Stamp} {identity : FileIdentity}
    (hbelow : outer <+: inner) (hfound : host.entry inner = some (.folder stamp identity)) :
    ∃ stamp identity, host.entry outer = some (.folder stamp identity) := by
  obtain ⟨rest, rfl⟩ := hbelow
  induction rest using List.reverseRecOn generalizing stamp identity with
  | nil =>
    rw [List.append_nil] at hfound
    exact ⟨stamp, identity, hfound⟩
  | append_singleton rest name ih =>
    rw [← List.append_assoc] at hfound
    obtain ⟨stamp, identity, hparent⟩ := host.above _ _ _ hfound
    exact ih hparent

theorem inits_reverse_eq (path : List Text) : ∃ rest, path.inits.reverse = path :: rest := by
  induction path using List.reverseRecOn with
  | nil => exact ⟨[], rfl⟩
  | append_singleton path name ih => exact ⟨path.inits.reverse, by simp [List.inits_append]⟩

structure Resolves (host : Host) (path : PathBuf) (root : CanonicalRoot) : Prop where
  canonical : host.canonicalize path = .ok root.path
  first : ∃ stamp identity, host.entry root.path = some (.folder stamp identity) ∧
    root.ancestry.head? = some stamp
  ancestor : ∀ folder, folder <+: root.path → ∀ stamp identity,
    host.entry folder = some (.folder stamp identity) → stamp ∈ root.ancestry

theorem resolve_ok {path : PathBuf} {root : CanonicalRoot} (h : resolve host path = .ok root) :
    Resolves host path root := by
  obtain ⟨canonical, hcanonical, h₁⟩ := bind_eq_ok.mp h
  obtain ⟨ancestry, hancestry, h₂⟩ := bind_eq_ok.mp h₁
  cases h₂
  refine ⟨?_, ?_, ?_⟩
  · cases hanswer : host.canonicalize path with
    | error error =>
      rw [hanswer] at hcanonical
      cases hcanonical
    | ok names =>
      rw [hanswer] at hcanonical
      cases hcanonical
      rfl
  · obtain ⟨rest, hrest⟩ := inits_reverse_eq canonical
    unfold folderAncestry at hancestry
    rw [hrest, List.mapM_cons] at hancestry
    obtain ⟨stamp, hstamp, h₃⟩ := bind_eq_ok.mp hancestry
    obtain ⟨stamps, -, h₄⟩ := bind_eq_ok.mp h₃
    cases h₄
    obtain ⟨identity, hfound⟩ := realDirectory_ok hstamp
    exact ⟨stamp, identity, hfound, rfl⟩
  · intro folder hfolder stamp identity hfound
    have hmem : folder ∈ canonical.inits.reverse := by simpa using hfolder
    obtain ⟨own, hown, hstamp⟩ := Result.mapM_of_mem hancestry hmem
    obtain ⟨ownId, hentry⟩ := realDirectory_ok hstamp
    rw [hfound] at hentry
    cases hentry
    exact hown

end PlateVault.Roots
