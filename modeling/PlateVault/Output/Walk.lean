import PlateVault.Inventory.Walk
import PlateVault.Lib.Ordered
import PlateVault.Output.Records
import Mathlib.Data.Char
import Mathlib.Data.List.Lex

/-!
# The walk of Output

One pass lists the folders below `Output/` and looks up each entry and fingerprint once; what each of
these calls answers is arbitrary. Clutter and links are passed over, and what cannot be read is
listed as unreadable.
-/

namespace PlateVault.Output

open Inventory (IoKind Metadata)

/-! ## What the system answers -/

def ValidName (name : Text) : Prop :=
  name ≠ [] ∧ '/' ∉ name ∧ '\x00' ∉ name ∧ name ≠ ['.'] ∧ name ≠ ['.', '.']

/-- The answers of one pass, by the path below `Output/`. -/
structure Answers where
  project : Except Inventory.IoError Metadata
  lstat : List Text → Except Inventory.IoError Metadata
  readDir : List Text → Except Inventory.IoError (List (Except Inventory.IoError Text))
  probe : List Text → Option ObservationFingerprint
  valid : ∀ folder entries, readDir folder = .ok entries → ∀ name, .ok name ∈ entries → ValidName name

/-! ## The walk -/

structure Found where
  path : List Text
  sizeBytes : Nat
  fingerprint : Option ObservationFingerprint

structure Walked where
  files : List Found
  unreadable : List (List Text)

inductive Tree
  | walked (walked : Walked)
  | absent
  | unreadable

def asciiLower (text : Text) : Text := text.map Char.toLower

/-- Folder clutter the operating system writes, and the partial files of a copy in flight. -/
def clutter (name : Text) : Bool :=
  name.head? = some '.' || asciiLower name = "thumbs.db".toList ||
    asciiLower name = "desktop.ini".toList

def realFolder (metadata : Metadata) : Bool := metadata.isDir && !metadata.link

section Walk

variable (look : Answers)

/-- One entry of a folder: what is found so far, and the folders still to list. -/
def walkEntry (folder : List Text) (state : Walked × List (List Text)) (entry : Except Inventory.IoError Text) :
    Walked × List (List Text) :=
  let (walked, pending) := state
  match entry with
  | .error _ => ({ walked with unreadable := walked.unreadable ++ [folder] }, pending)
  | .ok name =>
    if clutter name then (walked, pending)
    else
      let path := folder ++ [name]
      match look.lstat path with
      | .error error =>
        if error.kind = .notFound then (walked, pending)
        else ({ walked with unreadable := walked.unreadable ++ [path] }, pending)
      | .ok metadata =>
        if metadata.link then (walked, pending)
        else if metadata.isDir then (walked, path :: pending)
        else if metadata.isFile then
          ({ walked with files := walked.files ++
              [{ path, sizeBytes := metadata.len, fingerprint := look.probe path }] }, pending)
        else (walked, pending)

/-- List the pending folders, the last one found first; `none` where there are more than `rounds`. -/
def walkFolders : Nat → Walked → List (List Text) → Option Tree
  | _, walked, [] => some (.walked walked)
  | 0, _, _ :: _ => none
  | rounds + 1, walked, folder :: pending =>
    match look.readDir folder with
    | .error _ =>
      if folder = [] then some .unreadable
      else walkFolders rounds { walked with unreadable := walked.unreadable ++ [folder] } pending
    | .ok entries =>
      let (walked, pending) := entries.foldl (walkEntry look folder) (walked, pending)
      walkFolders rounds walked pending

/-- Every regular file below `Output/`, never following a link. -/
def walk (rounds : Nat) : Option Tree :=
  match look.lstat [] with
  | .error error => some (if error.kind = .notFound then .absent else .unreadable)
  | .ok metadata =>
    if realFolder metadata then
      (walkFolders look rounds { files := [], unreadable := [] } [[]]).map fun
        | .walked walked => .walked { walked with files := Ordered.sortBy (·.path) walked.files }
        | tree => tree
    else some .unreadable

/-- `Output/` as one pass reads it: unreadable while its Project folder is. -/
def walkOutput (rounds : Nat) : Option Tree :=
  match look.project with
  | .ok metadata => if realFolder metadata then walk look rounds else some .unreadable
  | .error _ => some .unreadable

end Walk

/-! ## What a pass records -/

/-- The panel group whose `Output/Panels/<folder>/` holds the file. -/
def panelOf (panels : List (Uuid × Text)) : List Text → Option Uuid
  | first :: folder :: _ :: _ =>
    if first = outputPanels then (panels.find? fun panel => panel.2 = folder).map (·.1) else none
  | _ => none

/-- Settled once the file kept its fingerprint, as `steady` tells. -/
def stateOf (steady : Found → Bool) (found : Found) : OutputState :=
  if found.fingerprint.isSome && steady found then .settled else .settling

def scannedFile (panels : List (Uuid × Text)) (steady : Found → Bool) (found : Found) :
    ScannedOutput where
  path := fromPath found.path
  panelGroupId := panelOf panels found.path
  state := stateOf steady found
  sizeBytes := found.sizeBytes
  fingerprint := found.fingerprint

/-- `Output/` as the pass records it. -/
def scanned (panels : List (Uuid × Text)) (steady : Found → Bool) : Tree → OutputFolder
  | .walked walked =>
    .walked (walked.files.map (scannedFile panels steady)) (walked.unreadable.map fromPath)
  | .absent => .absent
  | .unreadable => .unreadable

end PlateVault.Output
