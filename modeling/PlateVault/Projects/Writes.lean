import PlateVault.Projects.Rows

/-!
# A Project's writes

Every write is one transaction over the Project's rows: it returns the new ones, or fails and leaves
them as they are. Fresh ids come with the write.
-/

namespace PlateVault.Projects

open View (Host)
open Reminders (withinField)

/-! ## Columns and keys -/

/-- `coalesce(max(position) + 1, 0)`. -/
def endOf (positions : List Nat) : Nat := positions.foldr (fun position next => max (position + 1) next) 0

/-- A value of an integer column. A sum past 64 bits is a real, which the column refuses. -/
def column (value : Nat) : Result Nat :=
  if value < 2 ^ 63 then .ok value else .error (refused "an integer column")

variable {P : Platform}

def insertGoal (goals : List (GoalRow P)) (row : GoalRow P) : Result (List (GoalRow P)) :=
  if goals.any (·.id = row.id) then .error (refused "goals") else .ok (goals ++ [row])

def byPosition (left right : GoalRow P) : Bool := left.position ≤ right.position

/-! ## Hidden goals -/

/-- Whether a goal's group, if it has one, is a panel of the Project. -/
def panelGroup (groups : List (GroupRow P)) : Option Uuid → Bool
  | none => true
  | some id => groups.any fun group => group.id = id && group.panel

/-- Move the goals of a subject into the hidden goals of its Target, with their ids. -/
def hideGoals (s : Rows P) (subject target : Uuid) : Result (Rows P) := do
  let hidden ← (s.goals.filter (·.owner = subject)).foldlM
    (fun hidden row => insertGoal hidden { row with owner := target }) s.hidden
  .ok { s with hidden, goals := s.goals.filter (·.owner ≠ subject) }

/-- Give a Target's subject the goals it had when it was removed, after the Project's goals and in
their order; a panel goal whose group is gone or no longer a panel is dropped. -/
def restoreHiddenGoals (s : Rows P) (target : Uuid) : Result (Rows P) := do
  let next ← column (endOf (s.goals.map (·.position)))
  let goals ← match s.subjects.find? (·.targetId = target) with
    | none => .ok s.goals
    | some subject =>
      ((s.hidden.filter fun row => row.owner = target && panelGroup s.groups row.groupId).mergeSort
        byPosition).foldlM (fun goals row => do
          let position ← column (next + row.position)
          insertGoal goals { row with owner := subject.id, position }) s.goals
  .ok { s with goals, hidden := s.hidden.filter (·.owner ≠ target) }

/-! ## Subjects and rigs -/

def removeSubject (L : LibraryReads P) (s : Rows P) (row : SubjectRow) : Result (Rows P) := do
  let held := s.sessions.countP (·.targetId = row.targetId)
  if held > 0 then do
    let designation ← L.target row.targetId
    .error (.invalidInput ("subject " ++ String.ofList designation ++ " holds " ++
      String.ofList (decimal held) ++ " session" ++ (if held = 1 then "" else "s") ++
      " of this Project; remove them from the Project first"))
  else do
    let s ← hideGoals s row.id row.targetId
    .ok { s with subjects := s.subjects.filter (·.id ≠ row.id) }

def insertSubject (s : Rows P) (row : SubjectRow) : Result (Rows P) :=
  if s.subjects.any fun other => other.id = row.id || other.targetId = row.targetId then
    .error (refused "project_subjects")
  else .ok { s with subjects := s.subjects ++ [row] }

/-- Write a listed subject at its place: the stored one, or a new one with its hidden goals. -/
def putSubject (fresh : Uuid → Uuid) (stored : List SubjectRow) (s : Rows P)
    (listed : SubjectInput × Nat) : Result (Rows P) :=
  let (subject, position) := listed
  match stored.find? (·.targetId = subject.targetId) with
  | some row => .ok { s with subjects := s.subjects.map fun other =>
      if other.id = row.id then { other with name := subject.label, position } else other }
  | none => do
    let s ← insertSubject s ⟨fresh subject.targetId, subject.targetId, subject.label, position⟩
    restoreHiddenGoals s subject.targetId

/-- Keep each listed Target's subject and remove the rest, keeping their goals hidden; a Target
listed again gets its hidden goals back. -/
def writeSubjects (L : LibraryReads P) (fresh : Uuid → Uuid) (s : Rows P)
    (subjects : List SubjectInput) : Result (Rows P) := do
  subjects.forM fun subject => do let _ ← L.target subject.targetId
  let stored := s.subjects
  let listed := subjects.map (·.targetId)
  let s ← (stored.filter (·.targetId ∉ listed)).foldlM (removeSubject L) s
  subjects.zipIdx.foldlM (putSubject fresh stored) s

def removeRig (L : LibraryReads P) (s : Rows P) (rig : Uuid) : Result (Rows P) := do
  let groups := (s.groups.filter (·.rigId = rig)).mergeSort fun a b => a.position ≤ b.position
  if groups ≠ [] then do
    let name ← L.equipment rig
    .error (.invalidInput ("rig " ++ String.ofList name ++ " has groups in this Project (" ++
      String.intercalate ", " (groups.map fun group => String.ofList group.name.text) ++
      "); remove them first"))
  else .ok { s with rigs := s.rigs.filter (·.equipmentId ≠ rig) }

def putRig (s : Rows P) (listed : Uuid × Nat) : Rows P :=
  let (rig, position) := listed
  if s.rigs.any (·.equipmentId = rig) then
    { s with rigs := s.rigs.map fun row =>
      if row.equipmentId = rig then { row with position } else row }
  else { s with rigs := s.rigs ++ [⟨rig, position⟩] }

def writeRigs (L : LibraryReads P) (s : Rows P) (rigs : List Uuid) : Result (Rows P) := do
  rigs.forM fun rig => do let _ ← L.equipment rig
  let removed := (s.rigs.map (·.equipmentId)).filter (· ∉ rigs)
  let s ← removed.foldlM (removeRig L) s
  .ok (rigs.zipIdx.foldl putRig s)

/-! ## Goals -/

def goalRows (s : Rows P) : List (GoalRow P × Uuid) :=
  (s.goals.mergeSort byPosition).filterMap fun row =>
    (s.subjects.find? (·.id = row.owner)).map fun subject => (row, subject.targetId)

def goalInputs (s : Rows P) : List (GoalInput P) :=
  (goalRows s).map fun (row, target) => ⟨target, row.groupId, row.goal⟩

def requirePanelGroup (s : Rows P) : Option Uuid → Result Unit
  | none => .ok ()
  | some group => match s.groups.find? (·.id = group) with
  | none => .error (.notFound
    ("group " ++ group.hyphenated ++ " of project " ++ s.id.hyphenated))
  | some row => Result.require row.panel (.invalidInput
    ("group " ++ group.hyphenated ++
      " is not a mosaic panel; only a panel group has its own goals"))

def GoalRow.key (row : GoalRow P) : Uuid × Option Uuid × GoalIdentity :=
  (row.owner, row.groupId, row.goal.identity)

def dbCount (value : Nat) : Result Unit :=
  Result.require (value < 2 ^ 63)
    (.invalidInput ("goal " ++ String.ofList (decimal value) ++ " out of range"))

def GoalSpec.dbCounts : GoalSpec P → Result Unit
  | .integration _ seconds => dbCount seconds
  | .frameCount _ frames => dbCount frames
  | .qualityBar _ => .ok ()

/-- A goal to set as the row it is written as: under the id of the stored goal of its key. -/
def resolveGoal (fresh : Nat → Uuid) (s : Rows P) (listed : GoalInput P × Nat) :
    Result (GoalRow P) := do
  let (item, position) := listed
  let subject ← Result.orElse (s.subjects.find? (·.targetId = item.targetId))
    (.notFound ("Target " ++ item.targetId.hyphenated ++ " is not a subject of project " ++
      s.id.hyphenated))
  requirePanelGroup s item.groupId
  let goal := item.goal.normalized
  let key := (subject.id, item.groupId, goal.identity)
  -- of rows with one key the map keeps the last
  let stored := (s.goals.mergeSort byPosition).reverse.find? (·.key = key)
  let id := match stored with
    | some row => row.id
    | none => fresh position
  .ok ⟨id, subject.id, item.groupId, goal, position⟩

/-- Replace the goal list, keeping the id of each goal whose key stays. -/
def writeGoals (fresh : Nat → Uuid) (s : Rows P) (goals : List (GoalInput P)) :
    Result (Rows P) := do
  let resolved ← goals.zipIdx.mapM (resolveGoal fresh s)
  let goals ← resolved.foldlM (fun goals row => do
    row.goal.dbCounts
    insertGoal goals row) []
  .ok { s with goals }

/-! ## Groups -/

section Groups

variable (H : Host)

def requireGroup (s : Rows P) (group : Uuid) : Result Uuid :=
  match s.groups.find? (·.id = group) with
  | some row => .ok row.rigId
  | none => .error (.notFound ("group " ++ group.hyphenated ++ " of project " ++ s.id.hyphenated))

def requireHeld (s : Rows P) (session : Uuid) : Result Uuid :=
  match s.sessions.find? (·.sessionId = session) with
  | some row => .ok row.groupId
  | none => .error (.notFound
    ("session " ++ session.hyphenated ++ " is not in project " ++ s.id.hyphenated))

def requireFreeName (s : Rows P) (name : GroupName) (except : Option Uuid) : Result Unit :=
  Result.require (!s.groups.any fun row => row.name.key H = name.key H && some row.id ≠ except)
    (.invalidInput ("another group of the Project is already named " ++ String.ofList name.text))

def validateGroup (L : LibraryReads P) (group : NewGroup P) : Result Unit := do
  L.validOptics group.optics
  match group.framing with
  | some framing => L.validFraming framing
  | none => .ok ()

def insertGroup (L : LibraryReads P) (s : Rows P) (group : NewGroup P) : Result (Rows P) := do
  validateGroup L group
  requireFreeName H s group.name none
  Result.require (!s.groups.any (·.id = group.id)) (refused "project_groups")
  .ok { s with groups := s.groups ++ [⟨group.id, group.rigId, group.name, false, group.origin,
    group.optics, group.framing, endOf (s.groups.map (·.position))⟩] }

def Rows.updateGroup (s : Rows P) (group : Uuid) (f : GroupRow P → GroupRow P) : Rows P :=
  { s with groups := s.groups.map fun row => if row.id = group then f row else row }

def rename (s : Rows P) (group : Uuid) (name : GroupName) : Result (Rows P) := do
  requireFreeName H s name (some group)
  .ok (s.updateGroup group fun row => { row with name })

def moveSession (group rig : Uuid) (s : Rows P) (session : Uuid) : Result (Rows P) := do
  let source ← requireHeld s session
  let sourceRig ← requireGroup s source
  Result.require (sourceRig = rig) (.invalidInput ("session " ++ session.hyphenated ++
    " is on rig " ++ sourceRig.hyphenated ++ "; group " ++ group.hyphenated ++ " holds rig " ++
    rig.hyphenated ++ " only"))
  .ok { s with sessions := s.sessions.map fun row =>
    if row.sessionId = session then { row with groupId := group, placement := .user } else row }

def moveSessions (s : Rows P) (sessions : List Uuid) (group : Uuid) : Result (Rows P) := do
  let rig ← requireGroup s group
  sessions.foldlM (moveSession group rig) s

/-- A framing group without sessions goes, unless it carries goals. -/
def dropEmptyFramingGroups (s : Rows P) : Rows P :=
  { s with groups := s.groups.filter fun row =>
    !(row.origin = .framing && !s.sessions.any (·.groupId = row.id) &&
      !s.goals.any (·.groupId = some row.id)) }

def hasGoals (s : Rows P) (group : Uuid) : Bool := s.goals.any (·.groupId = some group)

def deleteMember (s : Rows P) (session : Uuid) : Rows P :=
  { s with
    sessions := s.sessions.filter (·.sessionId ≠ session)
    captures := s.captures.filter (·.sessionId ≠ session) }

end Groups

/-! ## Adding sessions -/

def requireDistinct (what : String) (seen : List Uuid) : List Uuid → Result Unit
  | [] => .ok ()
  | id :: ids => do
    Result.require (id ∉ seen) (.invalidInput (what ++ " " ++ id.hyphenated ++ " is listed twice"))
    requireDistinct what (id :: seen) ids

/-- The rig a session brings that the Project lacks, if it is saved. -/
def addedRig (L : LibraryReads P) (s : Rows P) (rig : Option Uuid) : Result (Option Uuid) :=
  match rig.filter fun rig => !s.rigs.any (·.equipmentId = rig) with
  | some rig => do
    let _ ← L.equipment rig
    .ok (some rig)
  | none => .ok none

/-- Append a Target as the last subject unless it is one, with its hidden goals. -/
def appendTarget (fresh : Uuid → Uuid) (s : Rows P) (target : Uuid) : Result (Rows P) :=
  if s.subjects.any (·.targetId = target) then .ok s
  else do
    let s ← insertSubject s ⟨fresh target, target, none, endOf (s.subjects.map (·.position))⟩
    restoreHiddenGoals s target

def appendRig (s : Rows P) (rig : Option Uuid) : Rows P :=
  { s with rigs := s.rigs ++ rig.toList.map fun rig =>
    ⟨rig, endOf (s.rigs.map (·.position))⟩ }

/-- Append the session's Target and its rig where the Project lacks them: the Target. -/
def appendTargetAndRig (L : LibraryReads P) (fresh : Uuid → Uuid) (s : Rows P) (session : Uuid) :
    Result (Rows P × Uuid) := do
  let basis ← L.basis session
  let added ← addedRig L s basis.2
  let s ← appendTarget fresh s basis.1
  .ok (appendRig s added, basis.1)

def requireAdmission (L : LibraryReads P) (s : Rows P) (group session : Uuid)
    (expected : Option AdmissionBasis) : Result AdmissionBasis := do
  let rig ← requireGroup s group
  L.admission rig session expected

def insertMember (s : Rows P) (member : MemberRow) : Rows P :=
  { s with sessions := s.sessions ++ [member] }

/-- Whether a held capture has one of the copies or the key. -/
def ProjectCapture.holds (key : Uuid) (ids : List Uuid) (held : ProjectCapture) : Bool :=
  held.copies.any fun copy => copy.assetId ∈ ids || held.captureKey = key

/-- One capture and its copies; each is held once per Project. -/
def insertCapture (s : Rows P) (capture : ProjectCapture) : Result (Rows P) :=
  let ids := capture.copies.map (·.assetId)
  match s.captures.find? (ProjectCapture.holds capture.captureKey ids) with
  | some holder => .error (.invalidInput ("capture " ++ capture.captureKey.hyphenated ++
      " is already held through session " ++ holder.sessionId.hyphenated ++
      "; a frame enters a Project once"))
  | none => do
    Result.require (!s.captures.any (·.captureKey = capture.captureKey)) (refused "project_captures")
    Result.require (ids.Nodup && ids.all (capture.captureKey ≤ ·)) (refused "project_capture_copies")
    .ok { s with captures := s.captures ++ [capture] }

/-- Add one whole session: admission, its Target and rig, the session row, its captures. -/
def addSession (L : LibraryReads P) (fresh : Uuid → Uuid) (s : Rows P) (add : SessionAdd) :
    Result (Rows P) := do
  Result.require (!s.sessions.any (·.sessionId = add.sessionId)) (.invalidInput
    ("session " ++ add.sessionId.hyphenated ++ " is already in project " ++ s.id.hyphenated))
  let basis ← requireAdmission L s add.groupId add.sessionId add.expected
  let joined ← appendTargetAndRig L fresh s add.sessionId
  let s := insertMember joined.1 ⟨add.sessionId, add.groupId, add.placement, joined.2, basis⟩
  let captures ← L.captures add.sessionId
  captures.foldlM insertCapture s

def requireUsed (groups : List (NewGroup P)) (adds : List SessionAdd) : Result Unit :=
  match groups.find? fun group => adds.all (·.groupId ≠ group.id) with
  | some group => .error (.invalidInput
    ("new group " ++ String.ofList group.name.text ++ " gets no session"))
  | none => .ok ()

def addMembers (H : Host) (L : LibraryReads P) (fresh : Uuid → Uuid) (s : Rows P)
    (groups : List (NewGroup P)) (adds : List SessionAdd) : Result (Rows P) := do
  Result.require (!adds.isEmpty) (.invalidInput "no session to add")
  requireDistinct "session" [] (adds.map (·.sessionId))
  requireUsed groups adds
  let s ← groups.foldlM (insertGroup H L) s
  adds.foldlM (addSession L fresh) s

/-! ## Writes -/

/-- A write of an open Project, with the ids it gives new rows. -/
inductive Write (P : Platform)
  | setSubjects (subjects : List SubjectInput) (fresh : Uuid → Uuid)
  | setGoals (goals : List (GoalInput P)) (fresh : Nat → Uuid)
  | applyTemplate (template : List (GoalSpec P)) (targetId : Uuid) (groupId : Option Uuid)
      (fresh : Nat → Uuid)
  | addSessions (groups : List (NewGroup P)) (adds : List SessionAdd) (fresh : Uuid → Uuid)
  | removeSessions (sessions : List Uuid)
  | moveSessions (sessions : List Uuid) (groupId : Uuid)
  | createGroup (group : NewGroup P) (sessions : List Uuid)
  | removeGroup (groupId : Uuid)
  | renameGroup (groupId : Uuid) (name : GroupName)
  | setPanel (groupId : Uuid) (panel : Bool) (name : Option GroupName)

/-- A template's goal over the goals there are: in place of the same goal, or at the end. -/
def mergeGoal (goals : List (GoalInput P)) (item : GoalInput P) : List (GoalInput P) :=
  let same (existing : GoalInput P) : Bool := existing.targetId = item.targetId &&
    existing.groupId = item.groupId && existing.goal.identity = item.goal.identity
  match goals.findIdx? same with
  | some i => goals.set i item
  | none => goals ++ [item]

def removeMember (s : Rows P) (session : Uuid) : Result (Rows P) := do
  let _ ← requireHeld s session
  .ok (deleteMember s session)

/-- What a write's arguments are refused for before anything is read. -/
def Write.validate : Write P → Result Unit
  | .setSubjects subjects _ => validateSubjects subjects
  | .setGoals goals _ => validateGoals goals
  | .removeSessions sessions | .moveSessions sessions _ | .createGroup _ sessions =>
    requireDistinct "session" [] sessions
  | _ => .ok ()

def Write.perform (H : Host) (L : LibraryReads P) (s : Rows P) : Write P → Result (Rows P)
  | .setSubjects subjects fresh => writeSubjects L fresh s subjects
  | .setGoals goals fresh => writeGoals fresh s goals
  | .applyTemplate template targetId groupId fresh => do
    Result.require (s.subjects.any (·.targetId = targetId)) (.notFound ("Target " ++
      targetId.hyphenated ++ " is not a subject of project " ++ s.id.hyphenated))
    let goals := template.foldl
      (fun goals goal => mergeGoal goals ⟨targetId, groupId, goal.normalized⟩) (goalInputs s)
    validateGoals goals
    writeGoals fresh s goals
  | .addSessions groups adds fresh => addMembers H L fresh s groups adds
  | .removeSessions sessions => do
    let s ← sessions.foldlM removeMember s
    .ok (dropEmptyFramingGroups s)
  | .moveSessions sessions groupId => do
    let s ← Projects.moveSessions s sessions groupId
    .ok (dropEmptyFramingGroups s)
  | .createGroup group sessions => do
    let s ← insertGroup H L s group
    let s ← Projects.moveSessions s sessions group.id
    .ok (dropEmptyFramingGroups s)
  | .removeGroup groupId => do
    let _ ← requireGroup s groupId
    let sessions := s.sessions.countP (·.groupId = groupId)
    Result.require (sessions = 0) (.invalidInput ("group " ++ groupId.hyphenated ++
      " still holds " ++ String.ofList (decimal sessions) ++
      " sessions; move or remove them first"))
    Result.require (!hasGoals s groupId) (.invalidInput
      ("group " ++ groupId.hyphenated ++ " still has goals; remove them first"))
    .ok { s with groups := s.groups.filter (·.id ≠ groupId) }
  | .renameGroup groupId name => do
    let _ ← requireGroup s groupId
    rename H s groupId name
  | .setPanel groupId panel name => do
    let _ ← requireGroup s groupId
    Result.require (panel || !hasGoals s groupId) (.invalidInput ("group " ++
      groupId.hyphenated ++ " has panel goals and stays a panel; remove them first"))
    let s := s.updateGroup groupId fun row => { row with panel }
    match name with
    | some name => rename H s groupId name
    | none => .ok s

/-- A write at the revision its caller saw; it commits the next. -/
def Write.commit (H : Host) (L : LibraryReads P) (s : Rows P) (expected : Nat) (write : Write P) :
    Result (Rows P) := do
  write.validate
  Result.require (s.revision = expected) (.conflict s.id s.revision)
  let s' ← write.perform H L s
  .ok { s' with revision := s.revision + 1 }

/-! ## A new Project -/

structure ProjectInput (P : Platform) where
  name : Text
  subjects : List SubjectInput
  rigIds : List Uuid
  goals : List (GoalInput P)

def validateProjectName (name : Text) : Result Unit :=
  Result.require (trim name ≠ []) (.invalidField "name" "project name is empty")

def validateRigsFrom (seen : List Uuid) (index : Nat) : List Uuid → Result Unit
  | [] => .ok ()
  | rig :: rigs => do
    Result.require (rig ∉ seen) (.invalidField (String.ofList (decimal index))
      ("rig " ++ rig.hyphenated ++ " is listed twice"))
    validateRigsFrom (rig :: seen) (index + 1) rigs

def validateRigs (rigs : List Uuid) : Result Unit := do
  Result.require (!rigs.isEmpty) (.invalidInput "a Project needs at least one rig")
  validateRigsFrom [] 0 rigs

def ProjectInput.validate (input : ProjectInput P) : Result Unit := do
  validateProjectName input.name
  (validateSubjects input.subjects).mapError (withinField "subjects")
  (validateRigs input.rigIds).mapError (withinField "rigIds")
  (validateGoals input.goals).mapError (withinField "goals")

def newRows (P : Platform) (id : Uuid) : Rows P := ⟨id, 1, [], [], [], [], [], [], []⟩

/-- A new open Project at revision 1 with the input's subjects, rigs and goals. -/
def insertProject (L : LibraryReads P) (id : Uuid) (freshSubject : Uuid → Uuid)
    (freshGoal : Nat → Uuid) (input : ProjectInput P) : Result (Rows P) := do
  input.validate
  let s ← writeSubjects L freshSubject (newRows P id) input.subjects
  let s ← writeRigs L s input.rigIds
  writeGoals freshGoal s input.goals

end PlateVault.Projects
