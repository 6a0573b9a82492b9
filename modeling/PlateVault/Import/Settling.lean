import PlateVault.Import.Items
import PlateVault.Lib.Prog

/-!
# Settle checks

A source is listed and each of its files looked at, at once where an earlier look is old enough, else
again when the interval since the start of the checks is over. A file whose looks agree is reviewed:
hashed, and its header read between two more looks. Times are nanoseconds, the system clock's
readings milliseconds.
-/

namespace PlateVault.Import

variable {P : Platform}

/-- How far apart the two settle checks of a source file are, at least. -/
def defaultSettleInterval : Nat := 2 * 10 ^ 9

/-! ## Effects -/

/-- What the settle checks ask of the disk and the clocks. The system clock is read for a file. -/
inductive SettleEffect
  | listFrames (root : PathBuf)
  | instant
  | sleep (duration : Nat)
  | probeFingerprint (path : NativePath)
  | nowMs (path : NativePath)
  | reviewStorageEntry (path : NativePath)
  | readHeader (path : NativePath)

/-- What each effect answers. A look, a review or a header may fail within its answer. -/
def SettleAnswer (P : Platform) : SettleEffect → Type
  | .listFrames _ => List PathBuf
  | .instant => Nat
  | .sleep _ => Unit
  | .probeFingerprint _ => Result ObservationFingerprint
  | .nowMs _ => Int
  | .reviewStorageEntry _ => Result EntryEvidence
  | .readHeader _ => Except String (CaptureMetadata P)

abbrev Settle (P : Platform) := Prog.Trying SettleEffect LibraryError (SettleAnswer P)

namespace Settle

def listFrames (root : PathBuf) : Settle P (List PathBuf) := Prog.ask (SettleEffect.listFrames root)
def instant : Settle P Nat := Prog.ask SettleEffect.instant
def sleep (duration : Nat) : Settle P Unit := Prog.ask (SettleEffect.sleep duration)

def probeFingerprint (path : NativePath) : Settle P (Result ObservationFingerprint) :=
  Prog.ask (SettleEffect.probeFingerprint path)

def nowMs (path : NativePath) : Settle P Int := Prog.ask (SettleEffect.nowMs path)

def reviewStorageEntry (path : NativePath) : Settle P (Result EntryEvidence) :=
  Prog.ask (SettleEffect.reviewStorageEntry path)

def readHeader (path : NativePath) : Settle P (Except String (CaptureMetadata P)) :=
  Prog.ask (SettleEffect.readHeader path)

end Settle

/-! ## Records -/

def sameObservation (left right : ObservationFingerprint) : Bool :=
  left.identity = right.identity && left.sizeBytes = right.sizeBytes &&
    left.modifiedNs = right.modifiedNs

def newRecord (seq : Nat) (sourcePath relativePath : NativePath) : ImportItemRecord P where
  item :=
    { seq, sourcePath, relativePath, sizeBytes := 0, sha256 := none, imageType := none
      classification := none, userType := none, targetId := none, excluded := false, role := none
      destinationLocationId := none, destinationPath := none, fallbacks := [], rig := none
      unknownFilter := none, phase := .settling, duplicate := none, block := none, landed := false }
  observation := none
  evidence := none
  metadata := none

/-- Drop what a file's earlier review established; it settles again. -/
def forgetEvidence (record : ImportItemRecord P) : ImportItemRecord P :=
  { record with
    evidence := none
    metadata := none
    item := { record.item with
      sha256 := none
      imageType := none
      classification := none
      block := none } }

def intakeFailure (record : ImportItemRecord P) (error : LibraryError) : ImportItemRecord P :=
  let record := forgetEvidence record
  match error with
  | .notFound _ => { record with item := { record.item with block := some .sourceMissing } }
  -- Changed while it was read: it settles again.
  | .identityConflict _ => { record with observation := none }
  | other =>
    { record with item := { record.item with block := some (.unreadable other.display) } }

def hold (record : ImportItemRecord P) (block : ImportBlock) : ImportItemRecord P :=
  { record with item := { record.item with block := some block } }

/-! ## Checks -/

/-- Observe a listed file; a failure is recorded on the item. -/
def probe (record : ImportItemRecord P) :
    Settle P (Option ObservationFingerprint × ImportItemRecord P) := do
  match ← Settle.probeFingerprint record.item.sourcePath with
  | .ok observed =>
    return (some observed, { record with item := { record.item with block := none } })
  | .error error => return (none, intakeFailure record error)

def observe (record : ImportItemRecord P) (fingerprint : ObservationFingerprint) :
    Settle P (ImportItemRecord P) := do
  let checkedAtMs ← Settle.nowMs record.item.sourcePath
  return { record with observation := some ⟨fingerprint, checkedAtMs⟩ }

def ImportItemRecord.held (record : ImportItemRecord P) (observed : ObservationFingerprint) : Bool :=
  record.observation.any fun previous => sameObservation previous.fingerprint observed

variable (classify : CaptureMetadata P → NativePath → Option Naming.NamingFrameType)

def reviewed (record : ImportItemRecord P) (evidence : EntryEvidence)
    (metadata : CaptureMetadata P) : ImportItemRecord P :=
  { record with
    item := { record.item with
      sizeBytes := evidence.fingerprint.sizeBytes
      sha256 := evidence.sha256
      imageType := metadata.imageType
      classification := classify metadata record.item.relativePath
      block := none }
    evidence := some evidence
    metadata := some metadata }

/-- Review a settled file and read its header; any change while it was read leaves it settling. -/
def capture (record : ImportItemRecord P) : Settle P (ImportItemRecord P) := do
  match ← Settle.reviewStorageEntry record.item.sourcePath with
  | .error error => return intakeFailure record error
  | .ok evidence =>
    if evidence.kind ≠ .file then return hold record (.unreadable "not a regular file")
    else if record.held evidence.fingerprint then do
      let header ← Settle.readHeader record.item.sourcePath
      match ← Settle.probeFingerprint record.item.sourcePath with
      | .error error => return intakeFailure record error
      | .ok after =>
        if sameObservation after evidence.fingerprint then
          match header with
          | .error detail => return hold record (.unreadable detail)
          | .ok metadata => return reviewed classify record evidence metadata
        else observe record after
    else observe record evidence.fingerprint

/-- Whether the reviewed evidence is of the file as it is now. -/
def ImportItemRecord.proven (record : ImportItemRecord P) (observed : ObservationFingerprint) :
    Bool :=
  (record.evidence.any fun evidence => sameObservation evidence.fingerprint observed) &&
    record.metadata.isSome

/-- Look at a file first; whether it needs a second check in this call. -/
def firstCheck (intervalMs : Nat) (record : ImportItemRecord P) :
    Settle P (Bool × ImportItemRecord P) := do
  let (observed, record) ← probe record
  match observed with
  | none => return (false, record)
  | some observed =>
    let record := { record with item := { record.item with sizeBytes := observed.sizeBytes } }
    if record.proven observed then
      return (false, { record with item := { record.item with block := none } })
    else
      let record := forgetEvidence record
      match record.observation with
      | some previous =>
        if sameObservation previous.fingerprint observed then do
          let now ← Settle.nowMs record.item.sourcePath
          if (intervalMs : Int) ≤ now - previous.checkedAtMs then do
            let record ← capture classify record
            return (false, record)
          else return (true, record)
        else do
          let record ← observe record observed
          return (true, record)
      | none => do
        let record ← observe record observed
        return (true, record)

def secondCheck (record : ImportItemRecord P) : Settle P (ImportItemRecord P) := do
  let (observed, record) ← probe record
  match observed with
  | none => return record
  | some observed => if record.held observed then capture classify record else observe record observed

/-! ## A source -/

/-- The items with a new one for every listed file that is not `known`. -/
def withListed (root : PathBuf) (known : List NativePath) :
    List PathBuf → List (ImportItemRecord P) → Result (List (ImportItemRecord P))
  | [], items => .ok items
  | relative :: listed, items =>
    let sourcePath := NativePath.fromPath (root.join relative)
    if sourcePath ∈ known then withListed root known listed items
    else if 2 ^ 32 ≤ items.length then .error (.invalidInput "too many source files")
    else withListed root known listed
      (items ++ [newRecord items.length sourcePath (.fromPath relative)])

def checkListed (intervalMs : Nat) (listed : NativePath → Bool) (record : ImportItemRecord P) :
    Settle P (Bool × ImportItemRecord P) :=
  if listed record.item.sourcePath then firstCheck classify intervalMs record
  else return (false, hold (forgetEvidence record) .sourceMissing)

def firstChecks (intervalMs : Nat) (listed : NativePath → Bool) :
    List (ImportItemRecord P) → Settle P (List (Bool × ImportItemRecord P))
  | [] => return []
  | record :: records => do
    let checked ← checkListed classify intervalMs listed record
    let rest ← firstChecks intervalMs listed records
    return checked :: rest

def checkAgain : Bool × ImportItemRecord P → Settle P (ImportItemRecord P)
  | (true, record) => secondCheck classify record
  | (false, record) => return record

def secondChecks : List (Bool × ImportItemRecord P) → Settle P (List (ImportItemRecord P))
  | [] => return []
  | checked :: more => do
    let record ← checkAgain classify checked
    let rest ← secondChecks more
    return record :: rest

/-- List the source and run the settle checks; the interval is in nanoseconds. -/
def settleSource (interval : Nat) (root : PathBuf) (items : List (ImportItemRecord P)) :
    Settle P (List (ImportItemRecord P)) := do
  let listed ← Settle.listFrames root
  let items ← liftM (withListed root (items.map (·.item.sourcePath)) listed items)
  let started ← Settle.instant
  let checked ← firstChecks classify (interval / 10 ^ 6)
    (fun path => listed.any fun relative => .fromPath (root.join relative) = path) items
  if checked.any (·.1) then do
    let now ← Settle.instant
    let _ ← Settle.sleep (interval - (now - started))
    secondChecks classify checked
  else return checked.map (·.2)

end PlateVault.Import
