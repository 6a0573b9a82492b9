import PlateVault.Output.Listed
import PlateVault.Projects.Writes

/-!
# Output beside the Project's groups

A listed file and a planned copy keep the panel group whose folder they lie in. Triggers look at it
again on every write that names the column, whatever became of the group since: a write they refuse
leaves nothing. Edits of the open Project interleave with the steps of its Output.
-/

namespace PlateVault.Output

open Projects (Rows GroupRow LibraryReads Write panelGroup)
open PlateVault.View (Host)
open Result (bind_eq_ok require_eq_ok)

/-! ## The triggers -/

inductive ScanNames (outputs : Text → Option OutputObservation) : OutputFolder → Option Uuid → Prop
  | unreadable {path : Text} {row : OutputObservation} (hrow : outputs path = some row)
      (hstate : row.state ≠ .unreadable) : ScanNames outputs .unreadable row.panelGroupId
  | found {files : List ScannedOutput} {unreadable : List Text} {file : ScannedOutput}
      (hfile : file ∈ files) (hnew : outputs file.path ≠ some (observed (outputs file.path) file)) :
      ScanNames outputs (.walked files unreadable) file.panelGroupId
  | missed {files : List ScannedOutput} {unreadable : List Text} {unknown : List (List Component)}
      {path : Text} {row kept : OutputObservation} (hrow : outputs path = some row)
      (hmissing : ∀ file ∈ files, file.path ≠ path) (hunknown : unreadable.mapM relativePath = .ok unknown)
      (hkept : missed unknown row = some kept) (hstate : row.state ≠ .unreadable) :
      ScanNames outputs (.walked files unreadable) row.panelGroupId

inductive Names (s : State) : Event → Option Uuid → Prop
  | scan {pass : Nat} {look : Answers} {folder : OutputFolder} {panel : Option Uuid}
      (hscan : ScanNames s.catalog.outputs folder panel) : Names s (.record pass look folder .recorded) panel
  | details {path : Text} {kind : Option OutputKind} {channel : Option Text} {row : OutputObservation}
      (hrow : s.catalog.outputs path = some row) : Names s (.details path kind channel) row.panelGroupId
  | listed {id : Uuid} {observation : OutputObservation} :
      Names s (.finish id (some observation)) observation.panelGroupId

variable {H : Host}

/-- `project_outputs_panel_insert` and `project_outputs_panel_update`: the panel of every row written
is a panel group of the Project. -/
def PanelsHold (groups : List (GroupRow H.toPlatform)) (s : State) (e : Event) : Prop :=
  ∀ panel, Names s e panel → panelGroup groups panel = true

/-! ## The system -/

structure Board (H : Host) where
  rows : Rows H.toPlatform
  output : State

def Board.start (rows : Rows H.toPlatform) : Board H := ⟨rows, .start⟩

inductive BoardEvent
  | edit
  | discard
  | output (e : Event)

inductive BoardStep : Board H → BoardEvent → Board H → Prop
  | edit {b : Board H} {L : LibraryReads H.toPlatform} {write : Write H.toPlatform} {expected : Nat}
      {rows : Rows H.toPlatform} (hwrite : write.commit H L b.rows expected = .ok rows) :
      BoardStep b .edit { b with rows }
  /-- The Project's pending edits are discarded for the rows of its View. -/
  | discard (b : Board H) (rows : Rows H.toPlatform) : BoardStep b .discard { b with rows }
  | output {b : Board H} {e : Event} {output : State} (hstep : Step b.output e output)
      (hopen : ∀ lifecycle, e ≠ .lifecycle lifecycle) (hpanels : PanelsHold b.rows.groups b.output e) :
      BoardStep b (.output e) { b with output }

abbrev BoardRuns (rows : Rows H.toPlatform) (trace : List BoardEvent) (b : Board H) : Prop :=
  Run BoardStep (Board.start rows) trace b

/-- A listed file or a copy in flight lies in this panel group's folder. -/
def InUse (s : State) (panel : Option Uuid) : Prop :=
  (∃ path row, s.catalog.outputs path = some row ∧ row.panelGroupId = panel) ∨
    ∃ copy ∈ s.catalog.copies, copy.planned.panelGroupId = panel

/-- An edit leaves every group in use a panel, and the panel group a new copy lies in is one still. -/
def Spares (b : Board H) : BoardEvent → Board H → Prop
  | .edit, b' | .discard, b' => ∀ panel, InUse b.output panel → panelGroup b'.rows.groups panel = true
  | .output (.begin ..), b' => ∀ copy ∈ b'.output.catalog.copies,
      panelGroup b.rows.groups copy.planned.panelGroupId = true
  | .output _, _ => True

abbrev SparingRuns (rows : Rows H.toPlatform) (trace : List BoardEvent) (b : Board H) : Prop :=
  Run (fun b e b' => BoardStep b e b' ∧ Spares b e b') (Board.start rows) trace b

/-! ## What no group edit may block -/

/-- Every file a pass found lies in the folder of a panel group, or in none. -/
def FoundInPanels (groups : List (GroupRow H.toPlatform)) : OutputFolder → Prop
  | .walked files _ => ∀ file ∈ files, panelGroup groups file.panelGroupId = true
  | .absent | .unreadable => True

/-- Details are refused for an unlisted path or a blank Channel alone, a settled copy is finished and
releases the Project, and a pass over panels of the Project is recorded. -/
structure Unblocked (b : Board H) : Prop where
  details : ∀ path row kind channel, b.output.catalog.outputs path = some row →
    (∀ text, channel = some text → trim text ≠ []) →
    ∃ b', BoardStep b (.output (.details path kind channel)) b'
  finish : ∀ copy ∈ b.output.catalog.copies, ∀ outcome,
    b.output.catalog.storage copy.storageOperationId = some (some outcome) →
    ∀ installed : Option ObservationFingerprint, (outcome = .copied → installed.isSome = true) →
    ∃ c listed, b.output.catalog.finishOutputCopy copy.operationId installed = .ok (c, listed) ∧
      BoardStep b (.output (.finish copy.operationId listed)) { b with
        output := { b.output with catalog := c } } ∧
      c.copies = [] ∧ ∀ operation ∈ c.operations, operation.active = false
  record : ∀ pass copies walk, b.output.passes pass = some { copies, walked := some walk } →
    FoundInPanels b.rows.groups walk.folder →
    ∃ record b', BoardStep b (.output (.record pass walk.look walk.folder record)) b'

/-- The listed files and the copies that verified lie in panel groups, or in none. -/
structure Settled (b : Board H) : Prop where
  rows : ∀ path row, b.output.catalog.outputs path = some row →
    panelGroup b.rows.groups row.panelGroupId = true
  copies : ∀ copy ∈ b.output.catalog.copies,
    b.output.catalog.storage copy.storageOperationId = some (some .copied) →
    panelGroup b.rows.groups copy.planned.panelGroupId = true

/-! ## Valid records -/

theorem validate_iff {row : OutputObservation} : row.validate = .ok () ↔
    (∃ parts, relativeParts "an Output path" row.path = .ok parts ∧
      (row.panelGroupId.isSome = true → 3 ≤ parts.length ∧ parts.head? = some outputPanels)) ∧
    (row.origin = .copied → row.sha256.isSome = true) ∧
    (∀ sha, row.sha256 = some sha → View.requireSha256 "an Output digest" sha = .ok ()) ∧
    ∀ text, row.channel = some text → trim text ≠ [] := by
  unfold OutputObservation.validate
  have hplace (parts : List Text) :
      (!(row.panelGroupId.isSome && (parts.length < 3 || parts.head? ≠ some outputPanels))) = true ↔
        (row.panelGroupId.isSome = true → 3 ≤ parts.length ∧ parts.head? = some outputPanels) := by
    cases row.panelGroupId <;> simp
  have hdigest : (!(row.origin = .copied && row.sha256.isNone)) = true ↔
      (row.origin = .copied → row.sha256.isSome = true) := by
    cases row.sha256 <;> simp
  have hchannel : (!row.channel.any fun channel => trim channel = []) = true ↔
      ∀ text, row.channel = some text → trim text ≠ [] := by
    cases row.channel <;> simp
  rw [← hdigest, ← hchannel]
  simp only [bind_eq_ok, require_eq_ok, ← hplace]
  cases hsha : row.sha256 with
  | none =>
    simp only [bind_eq_ok, require_eq_ok]
    constructor
    · rintro ⟨parts, hparts, _, hpanel, _, hcopied, _, _, hblank⟩
      exact ⟨⟨parts, hparts, hpanel⟩, hcopied, fun _ hsome => (by cases hsome), hblank⟩
    · rintro ⟨⟨parts, hparts, hpanel⟩, hcopied, -, hblank⟩
      exact ⟨parts, hparts, (), hpanel, (), hcopied, (), trivial, hblank⟩
  | some sha =>
    simp only [bind_eq_ok, require_eq_ok]
    constructor
    · rintro ⟨parts, hparts, _, hpanel, _, hcopied, _, hvalid, hblank⟩
      refine ⟨⟨parts, hparts, hpanel⟩, hcopied, fun other hsome => ?_, hblank⟩
      cases hsome
      exact hvalid
    · rintro ⟨⟨parts, hparts, hpanel⟩, hcopied, hvalid, hblank⟩
      exact ⟨parts, hparts, (), hpanel, (), hcopied, (), hvalid sha rfl, hblank⟩

end PlateVault.Output
