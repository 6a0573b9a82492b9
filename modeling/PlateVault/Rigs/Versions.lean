import PlateVault.Reminders.Records
import PlateVault.Sessions.Runs

/-!
# Rig versions

A rig's versions, each from a date, and the version each session recorded. A confirmation records
the version of the session's night, an added version is recorded by the sessions still waiting for
one, and a regroup's new session takes over what its frames' sessions agree on. The records are
written beside the session tables, inside the transactions that write those.
-/

namespace PlateVault.Rigs

open Library

variable {P : Platform} {R : Reader}

/-- `time::Date` as a day number, with its text as `[year]-[month]-[day]`. -/
structure Dates where
  parse : Text → Option Int
  format : Int → String

/-! ## Versions -/

structure OpticsSignature where
  cameraId : Option Uuid
  focalLengthMm : Option Text
  reducer : Option Text
  deriving DecidableEq, Repr

/-- `OpticsSignature::validate`; `canonical` is whether a text is a positive length as the model
writes it. -/
def OpticsSignature.validate (canonical : Text → Bool) (optics : OpticsSignature) : Result Unit := do
  Result.require (optics.focalLengthMm.all canonical)
    (.invalidField "focalLengthMm" ("focal length " ++
      String.ofList (optics.focalLengthMm.getD []) ++ " mm is not a positive length"))
  Result.require (optics.reducer.all fun reducer => !reducer.isEmpty && trim reducer = reducer)
    (.invalidField "reducer" "the reducer is blank")

inductive RotatorPresence
  | present
  | absent
  | unknown
  deriving DecidableEq, Repr

/-- A row of `rig_versions`. -/
structure RigVersion where
  id : Uuid
  rigId : Uuid
  validFrom : Int
  optics : OpticsSignature
  rotator : RotatorPresence
  deriving DecidableEq, Repr

/-- The version of a rig a capture on `night` was taken with: the latest from that night or before,
or else the first. An unknown night reads a rig's only version. -/
def RigVersion.forNight (versions : List RigVersion) (night : Option Int) : Option RigVersion :=
  match night with
  | none =>
    match versions with
    | [only] => some only
    | _ => none
  | some night =>
    (Ordered.maxBy (compareOn RigVersion.validFrom) (versions.filter (·.validFrom ≤ night))).or
      (Ordered.minBy (compareOn RigVersion.validFrom) versions)

/-! ## The tables -/

/-- `rig_versions` and `session_rig_versions`. -/
structure Versions where
  rows : Table Uuid RigVersion RigVersion.id
  recorded : Uuid → Option Uuid

/-- The night of a session's capture key, where it records a usable one. -/
def sessionNight (dates : Dates) (key : Text) : Option Int :=
  (nightOf key).bind fun night => dates.parse (night.takeWhile (· ≠ '@'))

/-- `confirmed_equipment`. -/
def confirmedEquipment (s : Sessions P) (session : Uuid) : Option Uuid :=
  (s.loadAssociations session).findSome? fun association =>
    if association.kind = .equipment ∧ association.state = .confirmed then association.subjectId
    else none

namespace Versions

def empty : Versions := ⟨.empty, fun _ => none⟩

/-! ## Reads -/

def loadRigVersions (s : Versions) (rig : Uuid) : List RigVersion :=
  Ordered.sortBy RigVersion.validFrom (s.rows.rows.filter (·.rigId = rig))

def loadSessionRigVersion (s : Versions) (session : Uuid) : Option RigVersion :=
  (s.recorded session).bind s.rows.find?

/-- Current sessions confirmed to a rig that recorded no version of it. -/
def unversionedSessions (s : Versions) (sessions : Sessions P) (rig : Uuid) : List Uuid :=
  Ordered.ascending ((sessions.rows.rows.filter fun row =>
    row.supersededBy.isNone && (s.recorded row.id).isNone &&
      (sessions.associations row.id .equipment).any fun association =>
        association.state = .confirmed && association.subjectId = some rig).map SessionRow.id)

/-- The one version of `rig` every predecessor recorded, if they agree. -/
def sharedVersion (s : Versions) (rig : Uuid) (shared : Option Uuid) : List Uuid → Option Uuid
  | [] => shared
  | predecessor :: predecessors =>
    match s.loadSessionRigVersion predecessor with
    | some version =>
      if version.rigId = rig ∧ shared.all (· = version.id) then
        s.sharedVersion rig (some version.id) predecessors
      else none
    | none => none

/-! ## Writes -/

def writeSessionRigVersion (s : Versions) (session version : Uuid) : Versions :=
  { s with recorded := fun id => if id = session then some version else s.recorded id }

def deleteSessionRigVersion (s : Versions) (session : Uuid) : Versions :=
  { s with recorded := fun id => if id = session then none else s.recorded id }

/-- Record the version of `rig` a session confirmed to it was captured with. A version of this rig
is kept; one of another is replaced by this rig's for the session's night, or removed. -/
def recordSessionRigVersion (s : Versions) (night : Uuid → Option Int) (rig session : Uuid) :
    Versions :=
  let recorded := s.loadSessionRigVersion session
  if recorded.any (·.rigId = rig) then s
  else
    match RigVersion.forNight (s.loadRigVersions rig) (night session) with
    | some version => s.writeSessionRigVersion session version.id
    | none => if recorded.isSome then s.deleteSessionRigVersion session else s

/-- The records a confirmation or an added version makes, session by session. -/
def recordSessions (s : Versions) (night : Uuid → Option Int) (rig : Uuid)
    (sessions : List Uuid) : Versions :=
  sessions.foldl (·.recordSessionRigVersion night rig) s

/-- `inherit_successor` of a rig version; `frameSessions` names, per frame, the session it came
from. -/
def inheritSuccessor (s : Versions) (night : Uuid → Option Int) (confirmed : Option Uuid)
    (successor : Uuid) (frameSessions : List (Option Uuid)) : Versions :=
  if frameSessions.all Option.isNone then s
  else
    match confirmed with
    | none => s
    | some rig =>
      match (frameSessions.mapM id).bind fun predecessors =>
          s.sharedVersion rig none (Ordered.ascending predecessors) with
      | some version => s.writeSessionRigVersion successor version
      | none => s.recordSessionRigVersion night rig successor

/-- What adding a version reads beside its own tables: the rig's name, the camera, how a length is
written, and the calibration matched again of a session that recorded the version. -/
structure Surroundings where
  canonical : Text → Bool
  rig : Uuid → Result String
  camera : Uuid → Result Unit
  rigRecorded : Uuid → Result Unit

def addRigVersion (s : Versions) (sessions : Sessions P) (dates : Dates) (night : Uuid → Option Int)
    (around : Surroundings) (version : RigVersion) : Result (Versions × RigVersion) := do
  (version.optics.validate around.canonical).mapError (Reminders.withinField "optics")
  let name ← around.rig version.rigId
  version.optics.cameraId.elim (.ok ()) around.camera
  match s.rows.find? version.id with
  | some saved =>
    if saved = version then return (s, saved)
    else .error (.invalidInput ("rig version " ++ version.id.hyphenated ++
      " is already saved with other components"))
  | none =>
    Result.require (!(s.loadRigVersions version.rigId).any (·.validFrom = version.validFrom))
      (.invalidInput (name ++ " already has a version from " ++ dates.format version.validFrom))
    let rows ← Result.orElse (s.rows.insert? version)
      (.persistenceFailure "UNIQUE constraint failed: rig_versions.id")
    let added : Versions := { s with rows }
    let unversioned := added.unversionedSessions sessions version.rigId
    unversioned.forM around.rigRecorded
    return (added.recordSessions night version.rigId unversioned, version)

end Versions

/-! ## Beside the session tables -/

def nightIn (dates : Dates) (s : Sessions P) (session : Uuid) : Option Int :=
  (s.rows.find? session).bind fun row => sessionNight dates row.key

/-- The sessions a transaction on `s` created, with the session each of their frames came from. -/
def createdSessions (s s' : Sessions P) : List (Uuid × List (Option Uuid)) :=
  (s'.rows.rows.filter fun row => (s.rows.find? row.id).isNone).map fun row =>
    (row.id, (s'.membersOf row.id).map s.sessionOf)

namespace Versions

/-- What `record_new_session` writes for each session created. -/
def inheritSuccessors (v : Versions) (dates : Dates) (s s' : Sessions P) : Versions :=
  (createdSessions s s').foldl (fun v created =>
    v.inheritSuccessor (nightIn dates s') (confirmedEquipment s' created.1) created.1 created.2) v

/-- The records a call on the vault makes beside its session tables. -/
def recordCall (v : Versions) (dates : Dates) (s s' : Sessions P) : VaultCall P R → Versions
  | .catalog .. => v.inheritSuccessors dates s s'
  | .confirm expected .equipment subject _ _ =>
    v.recordSessions (nightIn dates s) subject (expected.map ExpectedSession.sessionId)
  | _ => v

end Versions

/-! ## Calls -/

structure RigVault (P : Platform) (R : Reader) where
  watched : Watched P R
  versions : Versions

inductive RigCall (P : Platform) (R : Reader)
  | vault (call : VaultCall P R)
  | addRigVersion (around : Versions.Surroundings) (version : RigVersion)

namespace RigVault

def empty : RigVault P R := ⟨.empty, .empty⟩

inductive Step (dates : Dates) : RigVault P R → RigCall P R → RigVault P R → Prop
  | vault {l : RigVault P R} {call : VaultCall P R} {w : Watched P R} (hstep : l.watched.Step call w) :
      Step dates l (.vault call)
        ⟨w, l.versions.recordCall dates l.watched.vault.sessions w.vault.sessions call⟩
  | addRigVersion {l : RigVault P R} {around : Versions.Surroundings} {version added : RigVersion}
      {versions : Versions}
      (hadd : l.versions.addRigVersion l.watched.vault.sessions dates
        (nightIn dates l.watched.vault.sessions) around version = .ok (versions, added)) :
      Step dates l (.addRigVersion around version) { l with versions }

def Reachable (dates : Dates) (l : RigVault P R) : Prop := ∃ calls, Run (Step dates) empty calls l

end RigVault

end PlateVault.Rigs
