import PlateVault.Custody.Proven
import PlateVault.Lib.Ordered
import PlateVault.View.Basis
import Mathlib.Data.Char
import Mathlib.Data.List.Destutter
import Mathlib.Data.List.Lex

/-!
# Retiring the View an Apply replaced

`retire` goes through the manifest of the replaced View and removes from `View (previous)/` each
entry that is still PlateVault's own, then names what a walk of the folder finds left and removes
the folders that list nothing.
-/

namespace PlateVault.View.Previous

open Custody (Look Looks Log IsCheck Folder Listed Unentered see observe verifySource ReadAs SourceSeen
  Observed)
open Inventory (IoKind Listing Metadata)
open Prog (Logs Warranted)

/-- `VIEW_PREVIOUS_FOLDER`. -/
def viewPreviousFolder : PathBuf := { absolute := false, parts := [.normal "View (previous)".toList] }

/-! ## The walk -/

structure Walked where
  files : List PathBuf
  unreadable : List (PathBuf × ItemReason)

def Walked.empty : Walked := { files := [], unreadable := [] }

def unreadable (path : PathBuf) : PathBuf × ItemReason :=
  (path, { code := .sourceUnavailable, detail := Custody.display path ++ " can't be read" })

def notAFolder (path : PathBuf) : PathBuf × ItemReason :=
  (path, {
    code := .sourceUnavailable
    detail := Custody.display path ++ " is a link or not a folder; nothing below it is read" })

/-- `Path` of a name below a folder. -/
def name (name : Text) : PathBuf := { absolute := false, parts := [.normal name] }

/-- The `AppleDouble` header's magic number, big-endian. -/
def appleDouble : List Nat := [0x00, 0x05, 0x16, 0x07]

/-- The entry an `AppleDouble` companion's name is beside. -/
def companionOf : Text → Option Text
  | '.' :: '_' :: base => if base = [] then none else some base
  | _ => none

/-- A file that is no companion of an entry listed beside it. -/
def walkFile (folder : Folder) (listed : List Listed) (entry : Listed) (walked : Walked) :
    Looks Walked := do
  let found : Walked :=
    { walked with files := walked.files ++ [folder.path.join (name entry.name)] }
  if (companionOf entry.name).any fun base => listed.any fun other => other.name = base then
    if ← see (.fileStartsWith folder entry.name appleDouble) then return walked else return found
  else return found

def walkChild (below : Folder → Walked → Looks (Option Walked)) (folder : Folder) (entry : Listed)
    (walked : Walked) : Looks (Option Walked) := do
  let path := folder.path.join (name entry.name)
  match ← see (.childFolder folder entry.name) with
  | .ok handle => below { handle, path } walked
  | .error .notAFolder => return some { walked with files := walked.files ++ [path] }
  | .error (.io error) =>
    if error.kind = .notFound then return some walked
    else return some { walked with unreadable := walked.unreadable ++ [unreadable path] }

def walkEntries (below : Folder → Walked → Looks (Option Walked)) (folder : Folder)
    (listed : List Listed) : List Listed → Walked → Looks (Option Walked)
  | [], walked => return some walked
  | entry :: rest, walked =>
    if entry.folder then do
      match ← walkChild below folder entry walked with
      | none => return none
      | some walked => walkEntries below folder listed rest walked
    else do walkEntries below folder listed rest (← walkFile folder listed entry walked)

/-- Every file and link below a folder, for folders at most `depth` deep. -/
def walkBelow : Nat → Folder → Walked → Looks (Option Walked)
  | 0, _, _ => return none
  | depth + 1, folder, walked => do
    match ← see (.listFolder folder) with
    | .error _ =>
      return some { walked with unreadable := walked.unreadable ++ [unreadable folder.path] }
    | .ok listed => walkEntries (walkBelow depth) folder listed listed walked

/-- The order of `Path`. -/
def pathKey (path : PathBuf) : List (Nat ×ₗ Text) :=
  (if path.absolute then [toLex (0, [])] else []) ++ path.parts.map fun
    | .curDir => toLex (1, [])
    | .parentDir => toLex (2, [])
    | .normal name => toLex (3, name)

/-- Every file and link below `root`, never following a link. -/
def walk (depth : Nat) (root : PathBuf) : Looks (Option Walked) := do
  let walked ← match ← see (.openFolder root) with
    | .ok handle => walkBelow depth { handle, path := root } .empty
    | .error .notAFolder => pure (some { Walked.empty with unreadable := [notAFolder root] })
    | .error (.io error) =>
      pure (some (if error.kind = .notFound then .empty
        else { Walked.empty with unreadable := [unreadable root] }))
  return walked.map fun walked => {
    files := Ordered.sortBy pathKey walked.files
    unreadable := (Ordered.sortBy (fun refused => pathKey refused.1) walked.unreadable).destutter
      fun left right => left.1 ≠ right.1 }

/-! ## Empty folders -/

def realFolder : Except Inventory.IoError Metadata → Bool
  | .ok metadata => metadata.isDir && !metadata.link
  | .error _ => false

def subfolders (folder : PathBuf) : List Text → Looks (List PathBuf)
  | [] => return []
  | entry :: rest => do
    let path := folder.join (name entry)
    let found := realFolder (← see (.symlinkMetadata path))
    let others ← subfolders folder rest
    return if found then path :: others else others

/-- Every folder reached, the last one first; `none` where there are more than `rounds`. -/
def foldersBelow : Nat → List PathBuf → List PathBuf → Looks (Option (List PathBuf))
  | _, reached, [] => return some reached
  | 0, _, _ :: _ => return none
  | rounds + 1, reached, folder :: queue => do
    let found ← match ← see (.readDir folder) with
      | .ok listing => subfolders folder listing.names
      | .error _ => pure []
    foldersBelow rounds (folder :: reached) (queue ++ found)

def listsNothing : Except Inventory.IoError Listing → Bool
  | .ok listing => listing.names = [] && listing.interrupted = none
  | .error _ => false

def removeFolders : List PathBuf → Looks Unit
  | [] => return ()
  | folder :: rest => do
    if listsNothing (← see (.readDir folder)) then
      let _ ← see (.removeDir folder)
      removeFolders rest
    else removeFolders rest

/-- Remove `root` and every folder below it that holds nothing, deepest first. -/
def removeEmptyFolders (rounds : Nat) (root : PathBuf) : Looks (Option Unit) := do
  if realFolder (← see (.symlinkMetadata root)) then
    match ← foldersBelow rounds [] [root] with
    | none => return none
    | some folders => do
      removeFolders folders
      return some ()
  else return some ()

/-! ## The retirement -/

/-- One entry of a View, relative to `View/`, with the source snapshot it must match and, once
written, the identity it was written with. -/
structure ManifestEntry where
  path : NativePath
  source : EntrySource
  placement : EntryPlacement
  sourceSha256 : Text
  sourceFingerprint : ObservationFingerprint
  written : Option FileIdentity
  patchedSha256 : Option Text

/-- The SHA-256 a Copy or Clone entry holds: its proven patched digest, else its original's. -/
def ManifestEntry.copySha256 (entry : ManifestEntry) : Text :=
  entry.patchedSha256.getD entry.sourceSha256

structure Original where
  root : NativePath
  path : NativePath

/-- What this original must still be for a copy the entry placed to go. -/
def Original.asPlacedBy (original : Original) (entry : ManifestEntry) : EntryEvidence where
  path := original.path
  root := some original.root
  kind := .file
  fingerprint := { entry.sourceFingerprint with contentSha256 := none }
  sha256 := some entry.sourceSha256

inductive PreviousItemReason
  | changedCopy
  | unverifiedCopy
  | untickedFile
  | unverifiedLink
  deriving DecidableEq, Repr

inductive PreviousItemReview
  | pending
  | kept
  | moved
  | trashed
  deriving DecidableEq, Repr

structure PreviousItem where
  path : NativePath
  reason : PreviousItemReason
  evidence : EntryEvidence
  review : PreviousItemReview

/-- What retiring `View (previous)/` left for review, and whether the folder is gone. -/
structure Retired where
  leftovers : List PreviousItem
  gone : Bool

def unverified (entry : ManifestEntry) : PreviousItemReason :=
  match entry.placement with
  | .symlink => .unverifiedLink
  | _ => .unverifiedCopy

/-- Whether the evidence is a link reading `path`. -/
def linkReads (evidence : EntryEvidence) (path : PathBuf) : Bool :=
  match evidence.kind with
  | .link target => target.toPathBuf.toOption = some path
  | .file => false

def writtenAs (entry : ManifestEntry) (identity : FileIdentity) : Bool :=
  entry.written.any fun written => sameIdentity identity written

section Retire

variable (digest : Text → Text)

/-- An old link goes once it is still the link PlateVault placed, by its own identity, and points
at its original's current path. -/
def oldLink (path : PathBuf) (entry : ManifestEntry) (original : Option Original) :
    Looks (Except PreviousItemReason Unit) := do
  match ← ExceptT.run (observe digest path none) with
  | .error _ => return .error .unverifiedLink
  | .ok link =>
    let ours := writtenAs entry link.fingerprint.identity
    let points := (original.bind fun original => original.path.toPathBuf.toOption).any fun original =>
      linkReads link original
    return if ours && points then .ok () else .error .unverifiedLink

/-- Whether `path` still holds the copy the entry placed. -/
def holdsPlacedCopy (path : PathBuf) (entry : ManifestEntry) : Looks Bool := do
  match ← ExceptT.run (observe digest path none) with
  | .error _ => return false
  | .ok copy =>
    return copy.kind = .file && writtenAs entry copy.fingerprint.identity &&
      copy.sha256 = some entry.copySha256

/-- An old copy goes once it still holds the bytes PlateVault placed and its original still holds
those its snapshot recorded. -/
def oldCopy (path : PathBuf) (entry : ManifestEntry) (original : Option Original) :
    Looks (Except PreviousItemReason Unit) := do
  if ← holdsPlacedCopy digest path entry then
    match original with
    | none => return .error .unverifiedCopy
    | some original =>
      match ← verifySource digest (original.asPlacedBy entry) with
      | .ok () => return .ok ()
      | .error _ => return .error .unverifiedCopy
  else return .error .changedCopy

def verdict (path : PathBuf) (entry : ManifestEntry) (original : Option Original) :
    Looks (Except PreviousItemReason Unit) :=
  match entry.placement with
  | .symlink => oldLink digest path entry original
  | .copy | .clone => oldCopy digest path entry original

abbrev Reasons := List (PathBuf × PreviousItemReason)

def Reasons.insert (reasons : Reasons) (path : PathBuf) (why : PreviousItemReason) : Reasons :=
  (path, why) :: reasons.filter fun reason => reason.1 ≠ path

def retireEntry (previous : PathBuf) (sources : Uuid → Option Original) (entry : ManifestEntry)
    (reasons : Reasons) : Looks Reasons :=
  match entry.path.relativePath with
  | .error _ => return reasons
  | .ok relative => do
    let path := previous.join relative
    match ← see (.symlinkMetadata path) with
    | .error _ => return reasons
    | .ok _ =>
      match ← verdict digest path entry (sources entry.source.sourceId) with
      | .error why => return reasons.insert relative why
      | .ok () =>
        match ← see (.removeFile path) with
        | .ok () => return reasons
        | .error _ => return reasons.insert relative (unverified entry)

def retireEntries (previous : PathBuf) (sources : Uuid → Option Original) :
    List ManifestEntry → Reasons → Looks Reasons
  | [], reasons => return reasons
  | entry :: rest, reasons => do
    retireEntries previous sources rest (← retireEntry digest previous sources entry reasons)

/-- `Path::strip_prefix`. -/
def stripPrefix (root path : PathBuf) : Option PathBuf :=
  if path.absolute = root.absolute && root.parts.isPrefixOf path.parts then
    some { absolute := false, parts := path.parts.drop root.parts.length }
  else none

def nameLeft (previous : PathBuf) : List PathBuf → Reasons → Looks (List PreviousItem)
  | [], _ => return []
  | path :: rest, reasons =>
    match stripPrefix previous path with
    | none => nameLeft previous rest reasons
    | some relative => do
      let reason := (reasons.lookup relative).getD .untickedFile
      let reasons := reasons.filter fun reason => reason.1 ≠ relative
      match ← ExceptT.run (observe digest path (some (.fromPath previous))) with
      | .error _ => nameLeft previous rest reasons
      | .ok evidence => do
        let others ← nameLeft previous rest reasons
        return { path := .fromPath (viewPreviousFolder.join relative), reason, evidence,
                 review := .pending } :: others

/-- Retire the replaced View in `View (previous)/`; `none` where its folders are more or deeper than
`rounds`. -/
def retire (rounds : Nat) (project : PathBuf) (entries : List ManifestEntry)
    (sources : Uuid → Option Original) : Looks (Option Retired) := do
  let previous := project.join viewPreviousFolder
  let reasons ← retireEntries digest previous sources entries []
  match ← walk rounds previous with
  | none => return none
  | some walked => do
    let leftovers ← nameLeft digest previous walked.files reasons
    match ← removeEmptyFolders rounds previous with
    | none => return none
    | some () =>
      let left ← see (.symlinkMetadata previous)
      return some { leftovers, gone := !left.isOk }

end Retire

/-! ## What only looks -/

section Looking

theorem all_see {e : Look} (he : IsCheck e) : (see e).All IsCheck := ⟨he, fun _ => trivial⟩

theorem all_walkFile (folder : Folder) (listed : List Listed) (entry : Listed) (walked : Walked) :
    (walkFile folder listed entry walked).All IsCheck := by
  unfold walkFile
  simp only
  split
  · refine Prog.All.bind (all_see rfl) fun companion => ?_
    split
    · exact trivial
    · exact trivial
  · exact trivial

theorem all_walkChild {below : Folder → Walked → Looks (Option Walked)}
    (hbelow : ∀ folder walked, (below folder walked).All IsCheck) (folder : Folder) (entry : Listed)
    (walked : Walked) : (walkChild below folder entry walked).All IsCheck := by
  refine Prog.All.bind (all_see rfl) fun answer => ?_
  match answer with
  | .ok handle => exact hbelow _ _
  | .error .notAFolder => exact trivial
  | .error (.io error) =>
    simp only
    split
    · exact trivial
    · exact trivial

theorem all_walkEntries {below : Folder → Walked → Looks (Option Walked)}
    (hbelow : ∀ folder walked, (below folder walked).All IsCheck) (folder : Folder)
    (listed rest : List Listed) (walked : Walked) :
    (walkEntries below folder listed rest walked).All IsCheck := by
  induction rest generalizing walked with
  | nil => exact trivial
  | cons entry rest ih =>
    unfold walkEntries
    split
    · refine Prog.All.bind (all_walkChild hbelow folder entry walked) fun found => ?_
      cases found with
      | none => exact trivial
      | some walked => exact ih walked
    · exact Prog.All.bind (all_walkFile folder listed entry walked) ih

theorem all_walkBelow (depth : Nat) (folder : Folder) (walked : Walked) :
    (walkBelow depth folder walked).All IsCheck := by
  induction depth generalizing folder walked with
  | zero => exact trivial
  | succ depth ih =>
    refine Prog.All.bind (all_see rfl) fun answer => ?_
    cases answer with
    | error _ => exact trivial
    | ok listed => exact all_walkEntries ih folder listed listed walked

theorem all_walk (depth : Nat) (root : PathBuf) : (walk depth root).All IsCheck := by
  refine Prog.All.bind (all_see rfl) fun answer => ?_
  match answer with
  | .ok handle => exact Prog.All.bind (all_walkBelow depth _ _) fun _ => trivial
  | .error .notAFolder => exact trivial
  | .error (.io error) => exact trivial

theorem all_subfolders (folder : PathBuf) (names : List Text) :
    (subfolders folder names).All IsCheck := by
  induction names with
  | nil => exact trivial
  | cons entry rest ih => exact Prog.All.bind (all_see rfl) fun _ => Prog.All.bind ih fun _ => trivial

theorem all_foldersBelow (rounds : Nat) (reached queue : List PathBuf) :
    (foldersBelow rounds reached queue).All IsCheck := by
  induction rounds generalizing reached queue with
  | zero =>
    cases queue with
    | nil => exact trivial
    | cons folder queue => exact trivial
  | succ rounds ih =>
    cases queue with
    | nil => exact trivial
    | cons folder queue =>
      refine Prog.All.bind (all_see rfl) fun answer => ?_
      cases answer with
      | error _ => exact ih _ _
      | ok listing => exact Prog.All.bind (all_subfolders folder listing.names) fun _ => ih _ _

variable (digest : Text → Text) (path : PathBuf) (entry : ManifestEntry) (original : Option Original)

theorem all_observing (root : Option NativePath) {α : Type} {f : Result EntryEvidence → Looks α}
    (hf : ∀ found, (f found).All IsCheck) :
    (ExceptT.run (observe digest path root) >>= f).All IsCheck :=
  Prog.All.bind (Custody.all_observe digest path root) hf

theorem all_oldLink : (oldLink digest path entry original).All IsCheck := by
  refine all_observing digest path none fun found => ?_
  cases found with
  | error _ => exact trivial
  | ok link => exact trivial

theorem all_oldCopy : (oldCopy digest path entry original).All IsCheck := by
  have hplaced : (holdsPlacedCopy digest path entry).All IsCheck := by
    refine all_observing digest path none fun found => ?_
    cases found with
    | error _ => exact trivial
    | ok copy => exact trivial
  refine Prog.All.bind hplaced fun held => ?_
  cases held with
  | false => exact trivial
  | true =>
    cases original with
    | none => exact trivial
    | some original =>
      refine Prog.All.bind (Custody.all_verifySource digest _) fun found => ?_
      match found with
      | .ok () => exact trivial
      | .error _ => exact trivial

theorem all_verdict : (verdict digest path entry original).All IsCheck := by
  unfold verdict
  split
  · exact all_oldLink digest path entry original
  · exact all_oldCopy digest path entry original
  · exact all_oldCopy digest path entry original

theorem all_nameLeft (previous : PathBuf) (files : List PathBuf) (reasons : Reasons) :
    (nameLeft digest previous files reasons).All IsCheck := by
  induction files generalizing reasons with
  | nil => exact trivial
  | cons path rest ih =>
    unfold nameLeft
    split
    · exact ih reasons
    · refine all_observing digest path _ fun found => ?_
      cases found with
      | error _ => exact ih _
      | ok evidence => exact Prog.All.bind (ih _) fun _ => trivial

end Looking

/-! ## What is removed -/

section Removed

variable {digest : Text → Text}

/-- The link was seen with its recorded identity, pointing at its original's current path. -/
def LinkProven (path : PathBuf) (entry : ManifestEntry) (original : Option Original) (own : Log) :
    Prop :=
  ∃ fingerprint target source current,
    ⟨.linkFingerprint path, .ok (fingerprint, target)⟩ ∈ own ∧
    writtenAs entry fingerprint.identity = true ∧ original = some source ∧
    source.path.toPathBuf = .ok current ∧ target.toPathBuf = .ok current

/-- The copy was read as the file that was written, to the bytes placed, and its original to those
its snapshot recorded. -/
def CopyProven (digest : Text → Text) (path : PathBuf) (entry : ManifestEntry)
    (original : Option Original) (own : Log) : Prop :=
  ∃ fingerprint source current,
    ReadAs digest path (Custody.Expect.recorded fingerprint) own entry.copySha256 ∧
    writtenAs entry fingerprint.identity = true ∧ original = some source ∧
    Custody.pathOf source.path = .ok current ∧
    SourceSeen digest (source.asPlacedBy entry) current own

def Proven (digest : Text → Text) (path : PathBuf) (entry : ManifestEntry)
    (original : Option Original) (own : Log) : Prop :=
  match entry.placement with
  | .symlink => LinkProven path entry original own
  | .copy | .clone => CopyProven digest path entry original own

/-- What may be asked for after the calls so far: to remove an entry's file right after it was
proven, and a folder right after it listed nothing. -/
def Warrant (digest : Text → Text) (previous : PathBuf) (entries : List ManifestEntry)
    (sources : Uuid → Option Original) (before : Log) : Look → Prop
  | .removeFile path => ∃ entry ∈ entries, ∃ relative own,
      entry.path.relativePath = .ok relative ∧ path = previous.join relative ∧ own <:+ before ∧
      Proven digest path entry (sources entry.source.sourceId) own
  | .removeDir path =>
      [⟨.readDir path, .ok { names := [], interrupted := none }⟩] <:+ before
  | .moveToTrash _ => False
  | _ => True

theorem oldLink_ok {path : PathBuf} {entry : ManifestEntry} {original : Option Original} {log : Log}
    (h : Logs (oldLink digest path entry original) log (.ok ())) :
    LinkProven path entry original log := by
  obtain ⟨front, back, found, rfl, hfront, h₁⟩ := Prog.logs_bind.mp h
  cases found with
  | error _ => cases h₁
  | ok link =>
    obtain ⟨rfl, hverdict⟩ := Prog.logs_pure.mp h₁
    rw [List.append_nil]
    have hobserved := Custody.observe_ok hfront
    by_cases hboth : (writtenAs entry link.fingerprint.identity &&
        (original.bind fun original => original.path.toPathBuf.toOption).any fun original =>
          linkReads link original) = true
    · obtain ⟨hwritten, hpoints⟩ := Bool.and_eq_true_iff.mp hboth
      obtain ⟨current, hcurrent, hreads⟩ := (Option.any_eq_true ..).mp hpoints
      obtain ⟨source, rfl, hpath⟩ := Option.bind_eq_some_iff.mp hcurrent
      unfold linkReads at hreads
      unfold Observed at hobserved
      cases hkind : link.kind with
      | file =>
        rw [hkind] at hreads
        cases hreads
      | link target =>
        rw [hkind] at hreads hobserved
        exact ⟨link.fingerprint, target, source, current, hobserved, hwritten, rfl,
          Result.toOption_eq_some.mp hpath, Result.toOption_eq_some.mp (of_decide_eq_true hreads)⟩
    · rw [if_neg hboth] at hverdict
      cases hverdict

theorem verifySource_of_ok {source : EntryEvidence} {log : Log} {u : Unit}
    (h : Logs (verifySource digest source) log (.ok u)) :
    ∃ path, Custody.pathOf source.path = .ok path ∧ SourceSeen digest source path log := by
  cases hpath : Custody.pathOf source.path with
  | error reason =>
    unfold verifySource at h
    rw [hpath] at h
    cases h
  | ok path => exact ⟨path, rfl, Custody.verifySource_ok hpath h⟩

theorem SourceSeen.mono {source : EntryEvidence} {path : PathBuf} {log log' : Log}
    (hsub : log ⊆ log') (h : SourceSeen digest source path log) : SourceSeen digest source path log' := by
  unfold SourceSeen at h ⊢
  cases hkind : source.kind with
  | file =>
    rw [hkind] at h
    obtain ⟨found, hread, hsha⟩ := h
    exact ⟨found, hread.mono hsub, hsha⟩
  | link target =>
    rw [hkind] at h
    obtain ⟨observed, hmem, hequivalent⟩ := h
    exact ⟨observed, hsub hmem, hequivalent⟩

theorem holdsPlacedCopy_true {path : PathBuf} {entry : ManifestEntry} {log : Log}
    (h : Logs (holdsPlacedCopy digest path entry) log true) :
    ∃ fingerprint, ReadAs digest path (Custody.Expect.recorded fingerprint) log entry.copySha256 ∧
      writtenAs entry fingerprint.identity = true := by
  obtain ⟨front, back, found, rfl, hfront, h₁⟩ := Prog.logs_bind.mp h
  cases found with
  | error _ => cases h₁
  | ok copy =>
    obtain ⟨rfl, hheld⟩ := Prog.logs_pure.mp h₁
    simp only [Bool.and_eq_true, decide_eq_true_eq, Bool.true_eq] at hheld
    obtain ⟨⟨hkind, hwritten⟩, hsha⟩ := hheld
    have hobserved := Custody.observe_ok hfront
    unfold Observed at hobserved
    rw [hkind] at hobserved
    obtain ⟨found, hfound, hread⟩ := hobserved
    rw [hsha] at hfound
    cases hfound
    exact ⟨copy.fingerprint, hread.mono (List.subset_append_left ..), hwritten⟩

theorem oldCopy_ok {path : PathBuf} {entry : ManifestEntry} {original : Option Original} {log : Log}
    (h : Logs (oldCopy digest path entry original) log (.ok ())) :
    CopyProven digest path entry original log := by
  obtain ⟨front, back, held, rfl, hfront, h₁⟩ := Prog.logs_bind.mp h
  cases held with
  | false => cases h₁
  | true =>
    obtain ⟨fingerprint, hread, hwritten⟩ := holdsPlacedCopy_true hfront
    cases original with
    | none => cases h₁
    | some source =>
      obtain ⟨own, last, found, rfl, hown, h₂⟩ := Prog.logs_bind.mp h₁
      match found with
      | .error _ => cases h₂
      | .ok () =>
        obtain ⟨current, hcurrent, hseen⟩ := verifySource_of_ok hown
        refine ⟨fingerprint, source, current, hread.mono (List.subset_append_left ..), hwritten, rfl,
          hcurrent, SourceSeen.mono (fun call hcall => ?_) hseen⟩
        exact List.mem_append_right _ (List.mem_append_left _ hcall)

theorem verdict_ok {path : PathBuf} {entry : ManifestEntry} {original : Option Original} {log : Log}
    (h : Logs (verdict digest path entry original) log (.ok ())) :
    Proven digest path entry original log := by
  unfold verdict at h
  unfold Proven
  cases hplacement : entry.placement with
  | symlink =>
    rw [hplacement] at h
    exact oldLink_ok h
  | copy =>
    rw [hplacement] at h
    exact oldCopy_ok h
  | clone =>
    rw [hplacement] at h
    exact oldCopy_ok h

variable {previous : PathBuf} {entries : List ManifestEntry} {sources : Uuid → Option Original}

theorem Warrant.of_check {before : Log} {e : Look} (he : IsCheck e) :
    Warrant digest previous entries sources before e := by
  cases e <;> first | exact trivial | cases he

theorem Warrant.after (front : Log) {before : Log} {e : Look}
    (h : Warrant digest previous entries sources before e) :
    Warrant digest previous entries sources (front ++ before) e := by
  cases e with
  | removeFile path =>
    obtain ⟨entry, hentry, relative, own, hrelative, hpath, hsuffix, hproven⟩ := h
    exact ⟨entry, hentry, relative, own, hrelative, hpath, hsuffix.trans (List.suffix_append ..),
      hproven⟩
  | removeDir path => exact List.IsSuffix.trans h (List.suffix_append ..)
  | moveToTrash path => exact h
  | _ => exact trivial

theorem warranted_of_check {α : Type} {p : Looks α} (hp : p.All IsCheck) {log : Log} {a : α}
    (h : Logs p log a) : Warranted (Warrant digest previous entries sources) log :=
  .of_all (fun _ _ => .of_check) (h.of_all hp)

theorem warranted_pure {α : Type} {log : Log} {a b : α} (h : Logs (pure b : Looks α) log a) :
    Warranted (Warrant digest previous entries sources) log :=
  warranted_of_check (Prog.all_pure b) h

theorem warranted_look {e : Look} (he : IsCheck e) (answer : e.Answer) :
    Warranted (Warrant digest previous entries sources) [⟨e, answer⟩] :=
  warranted_of_check (all_see he) (.perform (.pure answer))

theorem warranted_append {log log' : Log}
    (h : Warranted (Warrant digest previous entries sources) log)
    (h' : Warranted (Warrant digest previous entries sources) log') :
    Warranted (Warrant digest previous entries sources) (log ++ log') :=
  h.append (fun front _ _ => Warrant.after front) h'

theorem retireEntry_warranted {entry : ManifestEntry} (hentry : entry ∈ entries) {reasons : Reasons}
    {log : Log} {found : Reasons}
    (h : Logs (retireEntry digest previous sources entry reasons) log found) :
    Warranted (Warrant digest previous entries sources) log := by
  unfold retireEntry at h
  cases hrelative : entry.path.relativePath with
  | error e =>
    rw [hrelative] at h
    exact warranted_pure h
  | ok relative =>
    rw [hrelative] at h
    obtain ⟨answer, rest, rfl, h₁⟩ := Prog.logs_act_bind.mp h
    have hlook : Warranted (Warrant digest previous entries sources)
        [⟨.symlinkMetadata (previous.join relative), answer⟩] :=
      warranted_look (by rfl) answer
    refine warranted_append hlook ?_
    cases answer with
    | error _ => exact warranted_pure h₁
    | ok metadata =>
      obtain ⟨own, last, verdict, rfl, hown, h₂⟩ := Prog.logs_bind.mp h₁
      have hchecked : Warranted (Warrant digest previous entries sources) own :=
        warranted_of_check (all_verdict digest _ entry _) hown
      match verdict with
      | .error why => exact warranted_append hchecked (warranted_pure h₂)
      | .ok () =>
        obtain ⟨removed, rest, rfl, h₃⟩ := Prog.logs_act_bind.mp h₂
        have hremoved : Warranted (Warrant digest previous entries sources)
            (own ++ [⟨.removeFile (previous.join relative), removed⟩]) :=
          hchecked.concat ⟨entry, hentry, relative, own, hrelative, rfl, List.suffix_rfl, verdict_ok hown⟩
        rw [← List.singleton_append, ← List.append_assoc]
        refine warranted_append hremoved ?_
        cases removed with
        | ok u => exact warranted_pure h₃
        | error _ => exact warranted_pure h₃

theorem retireEntries_warranted {rest : List ManifestEntry} (hrest : rest ⊆ entries)
    {reasons : Reasons} {log : Log} {found : Reasons}
    (h : Logs (retireEntries digest previous sources rest reasons) log found) :
    Warranted (Warrant digest previous entries sources) log := by
  induction rest generalizing reasons log with
  | nil => exact warranted_pure h
  | cons entry rest ih =>
    obtain ⟨hentry, hrest⟩ := List.cons_subset.mp hrest
    obtain ⟨front, back, reasons, rfl, hfront, hback⟩ := Prog.logs_bind.mp h
    exact warranted_append (retireEntry_warranted hentry hfront) (ih hrest hback)

theorem listsNothing_eq_true {answer : Except Inventory.IoError Listing} (h : listsNothing answer = true) :
    answer = .ok { names := [], interrupted := none } := by
  cases answer with
  | error _ => cases h
  | ok listing =>
    obtain ⟨hnames, hinterrupted⟩ := Bool.and_eq_true_iff.mp h
    cases listing
    cases of_decide_eq_true hnames
    cases of_decide_eq_true hinterrupted
    rfl

theorem removeFolders_warranted {folders : List PathBuf} {log : Log} {u : Unit}
    (h : Logs (removeFolders folders) log u) :
    Warranted (Warrant digest previous entries sources) log := by
  induction folders generalizing log with
  | nil => exact warranted_pure h
  | cons folder rest ih =>
    obtain ⟨answer, back, rfl, h₁⟩ := Prog.logs_act_bind.mp h
    have hlook : Warranted (Warrant digest previous entries sources) [⟨.readDir folder, answer⟩] :=
      warranted_look (by rfl) answer
    by_cases hnothing : listsNothing answer = true
    · rw [if_pos hnothing] at h₁
      obtain ⟨removed, last, rfl, h₂⟩ := Prog.logs_act_bind.mp h₁
      cases listsNothing_eq_true hnothing
      exact warranted_append (hlook.concat (r := removed) (List.suffix_rfl)) (ih h₂)
    · rw [if_neg hnothing] at h₁
      exact warranted_append hlook (ih h₁)

theorem removeEmptyFolders_warranted {rounds : Nat} {root : PathBuf} {log : Log} {r : Option Unit}
    (h : Logs (removeEmptyFolders rounds root) log r) :
    Warranted (Warrant digest previous entries sources) log := by
  obtain ⟨answer, back, rfl, h₁⟩ := Prog.logs_act_bind.mp h
  refine warranted_append (warranted_look (by rfl) answer) ?_
  split at h₁
  · obtain ⟨front, rest, folders, rfl, hfront, h₂⟩ := Prog.logs_bind.mp h₁
    refine warranted_append (warranted_of_check (all_foldersBelow _ _ _) hfront) ?_
    cases folders with
    | none => exact warranted_pure h₂
    | some folders =>
      obtain ⟨own, last, _, rfl, hown, h₃⟩ := Prog.logs_bind.mp h₂
      exact warranted_append (removeFolders_warranted hown) (warranted_pure h₃)
  · exact warranted_pure h₁

end Removed

/-! ## What is named -/

section Named

/-- The listed entry is the `AppleDouble` companion of one listed beside it. -/
def Companion (log : Log) (folder : Folder) (listed : List Listed) (entry : Listed) : Prop :=
  (∃ base other, companionOf entry.name = some base ∧ other ∈ listed ∧ other.name = base) ∧
    ⟨.fileStartsWith folder entry.name appleDouble, true⟩ ∈ log

/-- `path` is `root` or below it. -/
def Below (root path : PathBuf) : Prop := path.absolute = root.absolute ∧ root.parts <+: path.parts

theorem Below.trans {root path path' : PathBuf} (h : Below root path) (h' : Below path path') :
    Below root path' :=
  ⟨h'.1.trans h.1, h.2.trans h'.2⟩

theorem below_join_name (root : PathBuf) (text : Text) : Below root (root.join (name text)) := by
  unfold PathBuf.join name
  cases hparts : root.parts with
  | nil => exact ⟨by simp, by simp [hparts]⟩
  | cons part rest => exact ⟨rfl, by simp [hparts]⟩

/-- What a part of the walk below `folder` adds: every file it lists and every entry that is no
folder any more, but no companion, all of them below the folder. -/
structure Walks (folder : Folder) (log : Log) (before after : Walked) : Prop where
  kept : before.files ⊆ after.files
  listed : ∀ at' listed, ⟨.listFolder at', .ok listed⟩ ∈ log → ∀ entry ∈ listed, entry.folder = false →
    at'.path.join (name entry.name) ∈ after.files ∨ Companion log at' listed entry
  entered : ∀ at' text, ⟨.childFolder at' text, .error .notAFolder⟩ ∈ log →
    at'.path.join (name text) ∈ after.files
  below : ∀ path ∈ after.files, path ∈ before.files ∨ Below folder.path path

theorem Companion.mono {log log' : Log} (hsub : log ⊆ log') {folder : Folder} {listed : List Listed}
    {entry : Listed} (h : Companion log folder listed entry) : Companion log' folder listed entry :=
  ⟨h.1, hsub h.2⟩

theorem Walks.nil (folder : Folder) (walked : Walked) : Walks folder [] walked walked where
  kept := fun _ => id
  listed := fun _ _ hmem => absurd hmem List.not_mem_nil
  entered := fun _ _ hmem => absurd hmem List.not_mem_nil
  below := fun _ => .inl

theorem Walks.append {folder : Folder} {log log' : Log} {first middle last : Walked}
    (h : Walks folder log first middle) (h' : Walks folder log' middle last) :
    Walks folder (log ++ log') first last where
  kept := fun _ hpath => h'.kept (h.kept hpath)
  listed := by
    intro at' listed hmem entry hentry hfile
    rcases List.mem_append.mp hmem with hmem | hmem
    · rcases h.listed at' listed hmem entry hentry hfile with hfound | hcompanion
      · exact .inl (h'.kept hfound)
      · exact .inr (hcompanion.mono (List.subset_append_left ..))
    · rcases h'.listed at' listed hmem entry hentry hfile with hfound | hcompanion
      · exact .inl hfound
      · exact .inr (hcompanion.mono (List.subset_append_right ..))
  entered := by
    intro at' text hmem
    rcases List.mem_append.mp hmem with hmem | hmem
    · exact h'.kept (h.entered at' text hmem)
    · exact h'.entered at' text hmem
  below := by
    intro path hpath
    rcases h'.below path hpath with hmiddle | hbelow
    · exact h.below path hmiddle
    · exact .inr hbelow

theorem Walks.up {folder child : Folder} (hchild : Below folder.path child.path) {log : Log}
    {before after : Walked} (h : Walks child log before after) : Walks folder log before after where
  kept := h.kept
  listed := h.listed
  entered := h.entered
  below := fun path hpath => (h.below path hpath).imp_right hchild.trans

def Walked.found (walked : Walked) (folder : Folder) (text : Text) : Walked :=
  { walked with files := walked.files ++ [folder.path.join (name text)] }

theorem mem_found (walked : Walked) (folder : Folder) (text : Text) :
    folder.path.join (name text) ∈ (walked.found folder text).files :=
  List.mem_append_right _ List.mem_cons_self

theorem Walks.file {folder : Folder} {text : Text} {walked : Walked} {log : Log}
    (hlist : ∀ at' listed, ⟨.listFolder at', .ok listed⟩ ∉ log)
    (henter : ∀ at' text', ⟨.childFolder at' text', .error .notAFolder⟩ ∈ log →
      at' = folder ∧ text' = text) :
    Walks folder log walked (walked.found folder text) where
  kept := List.subset_append_left ..
  listed := fun at' listed hmem => absurd hmem (hlist at' listed)
  entered := by
    intro at' text' hmem
    obtain ⟨rfl, rfl⟩ := henter at' text' hmem
    exact mem_found walked at' text'
  below := by
    intro path hpath
    rcases List.mem_append.mp hpath with hpath | hpath
    · exact .inl hpath
    · rw [List.mem_singleton.mp hpath]
      exact .inr (below_join_name folder.path text)

theorem Walks.none {folder : Folder} {before after : Walked} {log : Log}
    (hfiles : after.files = before.files)
    (hlist : ∀ at' listed, ⟨.listFolder at', .ok listed⟩ ∉ log)
    (henter : ∀ at' text, ⟨.childFolder at' text, .error .notAFolder⟩ ∉ log) :
    Walks folder log before after where
  kept := hfiles ▸ fun _ => id
  listed := fun at' listed hmem => absurd hmem (hlist at' listed)
  entered := fun at' text hmem => absurd hmem (henter at' text)
  below := fun _ hpath => .inl (hfiles ▸ hpath)

theorem walkFile_walks {folder : Folder} {listed : List Listed} {entry : Listed}
    {before after : Walked} {log : Log}
    (h : Logs (walkFile folder listed entry before) log after) :
    Walks folder log before after ∧ (folder.path.join (name entry.name) ∈ after.files ∨
      Companion log folder listed entry) := by
  unfold walkFile at h
  simp only at h
  by_cases hbeside : ((companionOf entry.name).any fun base =>
      listed.any fun other => decide (other.name = base)) = true
  · rw [if_pos hbeside] at h
    obtain ⟨companion, rest, rfl, h₁⟩ := Prog.logs_act_bind.mp h
    cases companion with
    | true =>
      obtain ⟨rfl, rfl⟩ := Prog.logs_pure.mp h₁
      obtain ⟨base, hbase, hany⟩ := (Option.any_eq_true ..).mp hbeside
      obtain ⟨other, hother, hname⟩ := List.any_eq_true.mp hany
      exact ⟨.none rfl (by simp) (by simp),
        .inr ⟨⟨base, other, hbase, hother, of_decide_eq_true hname⟩, List.mem_cons_self⟩⟩
    | false =>
      obtain ⟨rfl, rfl⟩ := Prog.logs_pure.mp h₁
      exact ⟨.file (by simp) (by simp), .inl (mem_found before folder entry.name)⟩
  · rw [if_neg hbeside] at h
    obtain ⟨rfl, rfl⟩ := Prog.logs_pure.mp h
    exact ⟨.file (by simp) (by simp), .inl (mem_found before folder entry.name)⟩

theorem walkChild_walks {below : Folder → Walked → Looks (Option Walked)}
    (hbelow : ∀ folder before log after, Logs (below folder before) log (some after) →
      Walks folder log before after)
    {folder : Folder} {entry : Listed} {before after : Walked} {log : Log}
    (h : Logs (walkChild below folder entry before) log (some after)) :
    Walks folder log before after := by
  unfold walkChild at h
  simp only at h
  obtain ⟨answer, rest, rfl, h₁⟩ := Prog.logs_act_bind.mp h
  match answer with
  | .ok handle =>
    have hentered : Walks folder [⟨.childFolder folder entry.name, .ok handle⟩] before before :=
      .none rfl (by simp) (by simp)
    exact hentered.append ((hbelow _ _ _ _ h₁).up (below_join_name folder.path entry.name))
  | .error .notAFolder =>
    obtain ⟨rfl, hafter⟩ := Prog.logs_pure.mp h₁
    cases hafter
    refine .file (by simp) fun at' text' hmem => ?_
    cases List.mem_singleton.mp hmem
    exact ⟨rfl, rfl⟩
  | .error (.io error) =>
    simp only at h₁
    split at h₁
    · obtain ⟨rfl, hafter⟩ := Prog.logs_pure.mp h₁
      cases hafter
      exact .none rfl (by simp) (by simp)
    · obtain ⟨rfl, hafter⟩ := Prog.logs_pure.mp h₁
      cases hafter
      exact .none rfl (by simp) (by simp)

theorem walkEntries_walks {below : Folder → Walked → Looks (Option Walked)}
    (hbelow : ∀ folder before log after, Logs (below folder before) log (some after) →
      Walks folder log before after)
    {folder : Folder} {listed rest : List Listed} {before after : Walked} {log : Log}
    (h : Logs (walkEntries below folder listed rest before) log (some after)) :
    Walks folder log before after ∧ ∀ entry ∈ rest, entry.folder = false →
      folder.path.join (name entry.name) ∈ after.files ∨ Companion log folder listed entry := by
  induction rest generalizing before log with
  | nil =>
    obtain ⟨rfl, hafter⟩ := Prog.logs_pure.mp h
    cases hafter
    exact ⟨.nil folder _, fun entry hentry => absurd hentry List.not_mem_nil⟩
  | cons entry rest ih =>
    unfold walkEntries at h
    cases hfolder : entry.folder with
    | true =>
      rw [if_pos hfolder] at h
      obtain ⟨front, back, found, rfl, hfront, h₁⟩ := Prog.logs_bind.mp h
      cases found with
      | none => cases (Prog.logs_pure.mp h₁).2
      | some middle =>
        obtain ⟨hrest, hnamed⟩ := ih h₁
        refine ⟨(walkChild_walks hbelow hfront).append hrest, fun other hother hfile => ?_⟩
        rcases List.mem_cons.mp hother with rfl | hother
        · rw [hfolder] at hfile
          cases hfile
        · exact (hnamed other hother hfile).imp_right (·.mono (List.subset_append_right ..))
    | false =>
      rw [if_neg (by rw [hfolder]; simp)] at h
      obtain ⟨front, back, middle, rfl, hfront, h₁⟩ := Prog.logs_bind.mp h
      obtain ⟨hown, hentry⟩ := walkFile_walks hfront
      obtain ⟨hrest, hnamed⟩ := ih h₁
      refine ⟨hown.append hrest, fun other hother hfile => ?_⟩
      rcases List.mem_cons.mp hother with rfl | hother
      · rcases hentry with hfound | hcompanion
        · exact .inl (hrest.kept hfound)
        · exact .inr (hcompanion.mono (List.subset_append_left ..))
      · exact (hnamed other hother hfile).imp_right (·.mono (List.subset_append_right ..))

theorem walkBelow_walks (depth : Nat) (folder : Folder) (before : Walked) (log : Log)
    (after : Walked) (h : Logs (walkBelow depth folder before) log (some after)) :
    Walks folder log before after := by
  induction depth generalizing folder before log after with
  | zero => cases (Prog.logs_pure.mp h).2
  | succ depth ih =>
    obtain ⟨answer, rest, rfl, h₁⟩ := Prog.logs_act_bind.mp h
    cases answer with
    | error _ =>
      obtain ⟨rfl, hafter⟩ := Prog.logs_pure.mp h₁
      cases hafter
      exact .none rfl (by simp) (by simp)
    | ok listed =>
      obtain ⟨hrest, hnamed⟩ := walkEntries_walks ih h₁
      refine ⟨hrest.kept, fun at' listed' hmem entry hentry hfile => ?_, fun at' text hmem => ?_,
        hrest.below⟩
      · rcases List.mem_cons.mp hmem with hsame | hmem
        · cases hsame
          exact (hnamed entry hentry hfile).imp_right (·.mono (List.subset_cons_self ..))
        · exact (hrest.listed at' listed' hmem entry hentry hfile).imp_right
            (·.mono (List.subset_cons_self ..))
      · rcases List.mem_cons.mp hmem with hsame | hmem
        · cases hsame
        · exact hrest.entered at' text hmem

/-- What the walk of `root` accounts for. -/
structure WalkedFrom (root : PathBuf) (log : Log) (files : List PathBuf) : Prop where
  listed : ∀ folder listed, ⟨.listFolder folder, .ok listed⟩ ∈ log → ∀ entry ∈ listed,
    entry.folder = false →
    folder.path.join (name entry.name) ∈ files ∨ Companion log folder listed entry
  entered : ∀ folder text, ⟨.childFolder folder text, .error .notAFolder⟩ ∈ log →
    folder.path.join (name text) ∈ files
  below : ∀ path ∈ files, Below root path

theorem walk_walkedFrom {depth : Nat} {root : PathBuf} {log : Log} {walked : Walked}
    (h : Logs (walk depth root) log (some walked)) : WalkedFrom root log walked.files := by
  obtain ⟨answer, rest, rfl, h₁⟩ := Prog.logs_act_bind.mp h
  match answer with
  | .ok handle =>
    obtain ⟨front, back, found, rfl, hfront, h₂⟩ := Prog.logs_bind.mp h₁
    obtain ⟨rfl, hwalked⟩ := Prog.logs_pure.mp h₂
    cases found with
    | none => cases hwalked
    | some found =>
      cases hwalked
      have hwalks := walkBelow_walks depth { handle, path := root } .empty front found hfront
      refine ⟨fun folder listed hmem entry hentry hfile => ?_, fun folder text hmem => ?_, ?_⟩
      · have hmem' : ⟨.listFolder folder, .ok listed⟩ ∈ front := by simpa using hmem
        refine (hwalks.listed folder listed hmem' entry hentry hfile).imp Ordered.mem_sortBy.mpr ?_
        exact (·.mono fun call hcall => by simp [hcall])
      · have hmem' : ⟨.childFolder folder text, .error .notAFolder⟩ ∈ front := by simpa using hmem
        exact Ordered.mem_sortBy.mpr (hwalks.entered folder text hmem')
      · intro path hpath
        rcases hwalks.below path (Ordered.mem_sortBy.mp hpath) with hempty | hbelow
        · cases hempty
        · exact hbelow
  | .error refused =>
    have hnone : rest = [] ∧ walked.files = Ordered.sortBy pathKey [] := by
      match refused with
      | .notAFolder =>
        obtain ⟨rfl, hwalked⟩ := Prog.logs_pure.mp h₁
        cases hwalked
        exact ⟨rfl, rfl⟩
      | .io error =>
        obtain ⟨rfl, hwalked⟩ := Prog.logs_pure.mp h₁
        cases hwalked
        by_cases hgone : error.kind = .notFound
        · rw [if_pos hgone]
          exact ⟨rfl, rfl⟩
        · rw [if_neg hgone]
          exact ⟨rfl, rfl⟩
    obtain ⟨rfl, hfiles⟩ := hnone
    refine ⟨by simp, by simp, fun path hpath => ?_⟩
    rw [hfiles] at hpath
    cases Ordered.mem_sortBy.mp hpath

theorem stripPrefix_of_below {root path : PathBuf} (h : Below root path) :
    stripPrefix root path =
      some { absolute := false, parts := path.parts.drop root.parts.length } := by
  unfold stripPrefix
  rw [if_pos]
  exact Bool.and_eq_true_iff.mpr ⟨decide_eq_true h.1, List.isPrefixOf_iff_prefix.mpr h.2⟩

/-- A leftover names the file at `path`. -/
def Names (previous path : PathBuf) (items : List PreviousItem) : Prop :=
  ∃ relative, stripPrefix previous path = some relative ∧
    ∃ item ∈ items, item.path = .fromPath (viewPreviousFolder.join relative)

/-- The file at `path` was looked at and could not be observed. -/
def Unobserved (digest : Text → Text) (previous path : PathBuf) (log : Log) : Prop :=
  ∃ front own back error, log = front ++ (own ++ back) ∧
    Logs (ExceptT.run (observe digest path (some (.fromPath previous)))) own (.error error)

theorem Unobserved.after {digest : Text → Text} {previous path : PathBuf} {log : Log} (before : Log)
    (h : Unobserved digest previous path log) : Unobserved digest previous path (before ++ log) := by
  obtain ⟨front, own, back, error, rfl, hown⟩ := h
  exact ⟨before ++ front, own, back, error, by simp, hown⟩

theorem Unobserved.before {digest : Text → Text} {previous path : PathBuf} {log : Log} (after : Log)
    (h : Unobserved digest previous path log) : Unobserved digest previous path (log ++ after) := by
  obtain ⟨front, own, back, error, rfl, hown⟩ := h
  exact ⟨front, own, back ++ after, error, by simp, hown⟩

theorem Names.cons {previous path : PathBuf} {items : List PreviousItem} (item : PreviousItem)
    (h : Names previous path items) : Names previous path (item :: items) := by
  obtain ⟨relative, hstrip, found, hfound, hnamed⟩ := h
  exact ⟨relative, hstrip, found, List.mem_cons_of_mem _ hfound, hnamed⟩

theorem nameLeft_names {digest : Text → Text} {previous : PathBuf} {files : List PathBuf}
    {reasons : Reasons} {log : Log} {items : List PreviousItem}
    (h : Logs (nameLeft digest previous files reasons) log items)
    (hbelow : ∀ path ∈ files, Below previous path) :
    ∀ path ∈ files, Names previous path items ∨ Unobserved digest previous path log := by
  induction files generalizing reasons log items with
  | nil => exact fun path hpath => absurd hpath List.not_mem_nil
  | cons first rest ih =>
    have hrest : ∀ path ∈ rest, Below previous path := fun path hpath =>
      hbelow path (List.mem_cons_of_mem _ hpath)
    have hstrip := stripPrefix_of_below (hbelow first List.mem_cons_self)
    unfold nameLeft at h
    rw [hstrip] at h
    simp only at h
    obtain ⟨front, back, found, rfl, hfront, h₁⟩ := Prog.logs_bind.mp h
    cases found with
    | error error =>
      intro path hpath
      rcases List.mem_cons.mp hpath with rfl | hpath
      · exact .inr ⟨[], front, back, error, rfl, hfront⟩
      · exact (ih h₁ hrest path hpath).imp_right (·.after front)
    | ok evidence =>
      obtain ⟨own, last, others, rfl, hown, h₂⟩ := Prog.logs_bind.mp h₁
      obtain ⟨rfl, rfl⟩ := Prog.logs_pure.mp h₂
      intro path hpath
      rcases List.mem_cons.mp hpath with rfl | hpath
      · exact .inl ⟨_, hstrip, _, List.mem_cons_self, rfl⟩
      · refine (ih hown hrest path hpath).imp (·.cons _) fun hunobserved => ?_
        rw [List.append_nil]
        exact hunobserved.after front

end Named

/-! ## The whole retirement -/

/-- What the walk listed and did not pass over is named, or could not be observed. -/
structure Accounted (digest : Text → Text) (previous : PathBuf) (log walked : Log)
    (items : List PreviousItem) : Prop where
  listed : ∀ folder listed, ⟨.listFolder folder, .ok listed⟩ ∈ walked → ∀ entry ∈ listed,
    entry.folder = false →
    Names previous (folder.path.join (name entry.name)) items ∨
      Unobserved digest previous (folder.path.join (name entry.name)) log ∨
      Companion log folder listed entry
  entered : ∀ folder text, ⟨.childFolder folder text, .error .notAFolder⟩ ∈ walked →
    Names previous (folder.path.join (name text)) items ∨
      Unobserved digest previous (folder.path.join (name text)) log

theorem retire_warranted {digest : Text → Text} {rounds : Nat} {project : PathBuf}
    {entries : List ManifestEntry} {sources : Uuid → Option Original} {log : Log}
    {result : Option Retired} (h : Logs (retire digest rounds project entries sources) log result) :
    Warranted (Warrant digest (project.join viewPreviousFolder) entries sources) log := by
  obtain ⟨first, rest, reasons, rfl, hfirst, h₁⟩ := Prog.logs_bind.mp h
  refine warranted_append (retireEntries_warranted (List.Subset.refl _) hfirst) ?_
  obtain ⟨walkLog, rest, walked, rfl, hwalk, h₂⟩ := Prog.logs_bind.mp h₁
  refine warranted_append (warranted_of_check (all_walk _ _) hwalk) ?_
  cases walked with
  | none => exact warranted_pure h₂
  | some walked =>
    obtain ⟨named, rest, items, rfl, hnamed, h₃⟩ := Prog.logs_bind.mp h₂
    refine warranted_append (warranted_of_check (all_nameLeft digest _ _ _) hnamed) ?_
    obtain ⟨emptied, rest, removed, rfl, hemptied, h₄⟩ := Prog.logs_bind.mp h₃
    refine warranted_append (removeEmptyFolders_warranted hemptied) ?_
    match removed with
    | none => exact warranted_pure h₄
    | some () =>
      obtain ⟨left, rest, rfl, h₅⟩ := Prog.logs_act_bind.mp h₄
      exact warranted_append (warranted_look (by rfl) left) (warranted_pure h₅)

theorem retire_accounted {digest : Text → Text} {rounds : Nat} {project : PathBuf}
    {entries : List ManifestEntry} {sources : Uuid → Option Original} {log : Log} {retired : Retired}
    (h : Logs (retire digest rounds project entries sources) log (some retired)) :
    ∃ front walked back found left,
      log = front ++ (walked ++ (back ++
        [⟨.symlinkMetadata (project.join viewPreviousFolder), left⟩])) ∧
      Logs (walk rounds (project.join viewPreviousFolder)) walked (some found) ∧
      Accounted digest (project.join viewPreviousFolder) log walked retired.leftovers ∧
      retired.gone = !left.isOk := by
  obtain ⟨first, rest, reasons, rfl, hfirst, h₁⟩ := Prog.logs_bind.mp h
  obtain ⟨walkLog, rest, walked, rfl, hwalk, h₂⟩ := Prog.logs_bind.mp h₁
  cases walked with
  | none => cases (Prog.logs_pure.mp h₂).2
  | some walked =>
    obtain ⟨named, rest, items, rfl, hnamed, h₃⟩ := Prog.logs_bind.mp h₂
    obtain ⟨emptied, rest, removed, rfl, hemptied, h₄⟩ := Prog.logs_bind.mp h₃
    match removed with
    | none => cases (Prog.logs_pure.mp h₄).2
    | some () =>
      obtain ⟨left, rest, rfl, h₅⟩ := Prog.logs_act_bind.mp h₄
      obtain ⟨rfl, hretired⟩ := Prog.logs_pure.mp h₅
      cases hretired
      have hwalked := walk_walkedFrom hwalk
      have hnames := nameLeft_names hnamed hwalked.below
      have hlift : ∀ path, Names (project.join viewPreviousFolder) path items ∨
          Unobserved digest (project.join viewPreviousFolder) path named →
          Names (project.join viewPreviousFolder) path items ∨
          Unobserved digest (project.join viewPreviousFolder) path (first ++ (walkLog ++ (named ++
            (emptied ++ [⟨.symlinkMetadata (project.join viewPreviousFolder), left⟩])))) :=
        fun path => Or.imp_right fun hun => ((hun.before _).after walkLog).after first
      refine ⟨first, walkLog, named ++ emptied, walked, left, by simp, hwalk, ⟨?_, ?_⟩, rfl⟩
      · intro folder listed hmem entry hentry hfile
        rcases hwalked.listed folder listed hmem entry hentry hfile with hfound | hcompanion
        · exact (hlift _ (hnames _ hfound)).imp_right .inl
        · exact .inr (.inr (hcompanion.mono fun call hcall =>
            List.mem_append_right _ (List.mem_append_left _ hcall)))
      · intro folder text hmem
        exact hlift _ (hnames _ (hwalked.entered folder text hmem))

/-! ## A link and a pipe -/

def project : PathBuf := { absolute := true, parts := [.normal "p".toList] }

def previous : PathBuf := project.join viewPreviousFolder

def linkPath : PathBuf := previous.join (name "a.fits".toList)

def pipePath : PathBuf := previous.join (name "pipe".toList)

def original : Original where
  root := .host { absolute := true, parts := [.normal "d".toList] }
  path := .host { absolute := true, parts := [.normal "d".toList, .normal "a.fits".toList] }

def placedLink : ObservationFingerprint where
  identity := {
    volume := {
      filesystem := "ext4"
      stableId := some "vol"
      fileIdsStable := true
      case := .sensitive
      normalization := .sensitive }
    fileId := some "7" }
  sizeBytes := 9
  modifiedNs := 1
  contentSha256 := none

def linkEntry : ManifestEntry where
  path := .host (name "a.fits".toList)
  source := .light 1 2
  placement := .symlink
  sourceSha256 := List.replicate 64 'a'
  sourceFingerprint := placedLink
  written := some placedLink.identity
  patchedSha256 := none

/-- The metadata of a link, of a folder and, with neither, of a pipe. -/
def metadataOf (link isDir : Bool) : Metadata where
  link
  isDir
  isFile := false
  stamp := { device := some 1, file := some 7, created := none }
  len := 9
  modified := some 1

def pipeListed : Listed := { name := "pipe".toList, folder := false }

def previousFolder : Folder := { handle := 1, path := previous }

def retireLog : Log :=
  [⟨.symlinkMetadata linkPath, .ok (metadataOf true false)⟩,
    ⟨.symlinkMetadata linkPath, .ok (metadataOf true false)⟩,
    ⟨.linkFingerprint linkPath, .ok (placedLink, original.path)⟩,
    ⟨.removeFile linkPath, .ok ()⟩,
    ⟨.openFolder previous, .ok 1⟩,
    ⟨.listFolder previousFolder, .ok [pipeListed]⟩,
    ⟨.enter previous pipePath, .ok 2⟩,
    ⟨.symlinkMetadata pipePath, .ok (metadataOf false false)⟩,
    ⟨.holdsPath 2, true⟩,
    ⟨.probeFingerprint pipePath, .error (.invalidInput "not a regular file; links are not followed")⟩,
    ⟨.symlinkMetadata previous, .ok (metadataOf false true)⟩,
    ⟨.readDir previous, .ok { names := ["pipe".toList], interrupted := none }⟩,
    ⟨.symlinkMetadata pipePath, .ok (metadataOf false false)⟩,
    ⟨.readDir previous, .ok { names := ["pipe".toList], interrupted := none }⟩,
    ⟨.symlinkMetadata previous, .ok (metadataOf false true)⟩]

theorem retireLog_logs : Logs (retire id 2 project [linkEntry] fun _ => some original) retireLog
    (some { leftovers := [], gone := false }) := by
  repeat (first | exact .pure _ | apply Logs.perform)

end PlateVault.View.Previous
