import PlateVault.Custody.Executor
import PlateVault.Custody.Proven

/-!
# Retiring an entry to the OS Trash

`retire` looks before and after it asks the OS Trash to move an entry. What it answers is read from
its log: the calls of the system in their order, whatever each of them answered.
-/

namespace PlateVault.Custody

open Inventory (IoKind Metadata)
open Prog (Logs)

def TrashUnsupported.debug : TrashUnsupported → String
  | .deletesImmediately => "DeletesImmediately"
  | .noTrash => "NoTrash"
  | .readOnly => "ReadOnly"
  | .unqualified => "Unqualified"

def trashFailed (detail : String) : ItemReason := { code := .trashFailed, detail }

section Retire

variable (digest : Text → Text)

def verifyAllKept : List KeptCopy → Looks (Except ItemReason Unit)
  | [] => return .ok ()
  | kept :: rest => do
    match ← verifyKept digest kept with
    | .error reason => return .error reason
    | .ok () => verifyAllKept rest

def gone : Except Inventory.IoError Metadata → Bool
  | .error error => error.kind = .notFound
  | .ok _ => false

/-- What the OS Trash's answer and the look after it prove. -/
def settleMove (source : EntryEvidence) (answer : Except String Unit) (left : Bool) :
    Looks Retirement :=
  match answer, left with
  | .ok (), true => return .moved
  | .error refusal, false => do
    if ← inPlace source then return .blocked (trashFailed ("the OS Trash refused: " ++ refusal))
    else return .uncertain (trashFailed
      ("the OS Trash refused (" ++ refusal ++ ") but the entry is no longer in place"))
  | .ok (), false => do
    if ← inPlace source then
      return .blocked (trashFailed
        "the OS Trash reported the move but the entry is still in place")
    else return .uncertain (trashFailed "another entry appeared at the path after the move")
  | .error refusal, true =>
    return .uncertain (trashFailed
      ("the OS Trash refused (" ++ refusal ++ ") but the entry is no longer in place"))

/-- Ask the OS Trash to move the entry, and look whether it left. -/
def moveEntry (source : EntryEvidence) (path : PathBuf) : Looks Retirement := do
  let answer ← see (.moveToTrash path)
  let after ← see (.symlinkMetadata path)
  settleMove source answer (gone after)

def retireChecked (source : EntryEvidence) (reliedOn : List KeptCopy) (path : PathBuf) :
    Looks Retirement := do
  match ← see .beforeMove with
  | .error reason => return .blocked reason
  | .ok () =>
    match ← verifyAllKept digest reliedOn with
    | .error reason => return .blocked reason
    | .ok () =>
      match ← verifySource digest source with
      | .error reason => return .blocked reason
      | .ok () => moveEntry source path

def retireEntry (source : EntryEvidence) (reliedOn : List KeptCopy) : Looks Retirement :=
  match pathOf source.path with
  | .error reason => return .blocked reason
  | .ok path => do
    match ← see (.support path source.fingerprint.sizeBytes) with
    | .unsupported reason detail =>
      return .unsupported {
        code := .trashUnsupported
        detail := detail ++ " (" ++ TrashUnsupported.debug reason ++ "); " ++ display path ++
          " stays in place" }
    | .supported => retireChecked digest source reliedOn path

end Retire

/-! ## The looks before a move -/

def Unmoved (log : Log) : Prop := ∀ call ∈ log, ∀ path, call.1 ≠ .moveToTrash path

theorem IsCheck.ne_moveToTrash {e : Look} (h : IsCheck e) (path : PathBuf) : e ≠ .moveToTrash path := by
  rintro rfl
  cases h

theorem Unmoved.nil : Unmoved [] := fun _ hcall => absurd hcall List.not_mem_nil

theorem Unmoved.cons {e : Look} {answer : e.Answer} {log : Log} (h : Unmoved log) (he : IsCheck e) :
    Unmoved (⟨e, answer⟩ :: log) := by
  intro call hcall
  rcases List.mem_cons.mp hcall with rfl | hcall
  · exact he.ne_moveToTrash
  · exact h call hcall

theorem Unmoved.append {front back : Log} (hfront : Unmoved front) (hback : Unmoved back) :
    Unmoved (front ++ back) :=
  fun call hcall => (List.mem_append.mp hcall).elim (hfront call) (hback call)

theorem unmoved_of_all {α : Type} {p : Looks α} (h : p.All IsCheck) {log : Log} {a : α}
    (hlog : Logs p log a) : Unmoved log :=
  fun call hcall => (hlog.of_all h call hcall).ne_moveToTrash

theorem all_verifyAllKept (digest : Text → Text) (reliedOn : List KeptCopy) :
    (verifyAllKept digest reliedOn).All IsCheck := by
  induction reliedOn with
  | nil => exact trivial
  | cons kept rest ih =>
    refine Prog.All.bind (all_verifyKept digest kept) fun found => ?_
    match found with
    | .ok () => exact ih
    | .error _ => exact trivial

theorem verifyAllKept_ok {digest : Text → Text} {reliedOn : List KeptCopy} {log : Log} {u : Unit}
    (h : Logs (verifyAllKept digest reliedOn) log (.ok u)) :
    ∃ kepts : List Log, log = kepts.flatten ∧ List.Forall₂ (KeptSeen digest) reliedOn kepts := by
  induction reliedOn generalizing log with
  | nil =>
    obtain ⟨rfl, -⟩ := Prog.logs_pure.mp h
    exact ⟨[], rfl, .nil⟩
  | cons kept rest ih =>
    obtain ⟨front, back, found, rfl, hfront, h₁⟩ := Prog.logs_bind.mp h
    match found with
    | .error reason => cases h₁
    | .ok () =>
      obtain ⟨kepts, rfl, hkepts⟩ := ih h₁
      exact ⟨front :: kepts, rfl, .cons (verifyKept_ok hfront) hkepts⟩

/-! ## What the outcomes mean -/

/-- The Trash supports the entry, every kept copy and then the entry itself showed what was recorded
of them, and right after that the entry left its path through the Trash. -/
def MovedAway (digest : Text → Text) (source : EntryEvidence) (reliedOn : List KeptCopy) (log : Log) :
    Prop :=
  ∃ path front kepts own error,
    log = front ++ (kepts.flatten ++ (own ++
      [⟨.moveToTrash path, .ok ()⟩, ⟨.symlinkMetadata path, .error error⟩])) ∧
    pathOf source.path = .ok path ∧
    ⟨.support path source.fingerprint.sizeBytes, .supported⟩ ∈ front ∧
    List.Forall₂ (KeptSeen digest) reliedOn kepts ∧
    SourceSeen digest source path own ∧ error.kind = .notFound

/-- The move was never asked for, or the entry was seen at its path after it. -/
def LeftInPlace (source : EntryEvidence) (log : Log) : Prop :=
  Unmoved log ∨ ∃ path front answer after own,
    log = front ++ ⟨.moveToTrash path, answer⟩ :: ⟨.symlinkMetadata path, after⟩ :: own ∧
    pathOf source.path = .ok path ∧ InPlaceSeen source path own

/-- The move was asked for, and neither was it reported with the path then empty nor was the entry
seen at its path after it. -/
def Unproven (source : EntryEvidence) (log : Log) : Prop :=
  ∃ path front answer after own,
    log = front ++ ⟨.moveToTrash path, answer⟩ :: ⟨.symlinkMetadata path, after⟩ :: own ∧
    ¬ (answer = .ok () ∧ gone after = true) ∧ (gone after = true ∨ Logs (inPlace source) own false)

def Told (digest : Text → Text) (source : EntryEvidence) (reliedOn : List KeptCopy) (log : Log) :
    Retirement → Prop
  | .moved => MovedAway digest source reliedOn log
  | .blocked _ | .unsupported _ => LeftInPlace source log
  | .uncertain _ => Unproven source log

theorem gone_eq_true {answer : Except Inventory.IoError Metadata} (h : gone answer = true) :
    ∃ error, answer = .error error ∧ error.kind = .notFound := by
  cases answer with
  | ok _ => cases h
  | error error => exact ⟨error, rfl, of_decide_eq_true h⟩

theorem settleMove_cases {source : EntryEvidence} {answer : Except String Unit} {left : Bool}
    {log : Log} {outcome : Retirement} (h : Logs (settleMove source answer left) log outcome) :
    (answer = .ok () ∧ left = true ∧ log = [] ∧ outcome = .moved) ∨
    (Logs (inPlace source) log true ∧ ∃ reason, outcome = .blocked reason) ∨
    (¬ (answer = .ok () ∧ left = true) ∧ (left = true ∨ Logs (inPlace source) log false) ∧
      ∃ reason, outcome = .uncertain reason) := by
  have hseen : ∀ {blocked uncertain : ItemReason}, Logs (do
      if ← inPlace source then return .blocked blocked else return .uncertain uncertain : Looks _)
        log outcome →
      (Logs (inPlace source) log true ∧ ∃ reason, outcome = .blocked reason) ∨
        (Logs (inPlace source) log false ∧ ∃ reason, outcome = .uncertain reason) := by
    intro blocked uncertain hlog
    obtain ⟨front, back, seen, rfl, hfront, hback⟩ := Prog.logs_bind.mp hlog
    cases seen with
    | true =>
      obtain ⟨rfl, rfl⟩ := Prog.logs_pure.mp hback
      rw [List.append_nil]
      exact .inl ⟨hfront, blocked, rfl⟩
    | false =>
      obtain ⟨rfl, rfl⟩ := Prog.logs_pure.mp hback
      rw [List.append_nil]
      exact .inr ⟨hfront, uncertain, rfl⟩
  match answer, left with
  | .ok (), true =>
    obtain ⟨rfl, rfl⟩ := Prog.logs_pure.mp h
    exact .inl ⟨rfl, rfl, rfl, rfl⟩
  | .error _, false =>
    exact .inr ((hseen h).imp_right fun ⟨hin, hreason⟩ => ⟨by simp, .inr hin, hreason⟩)
  | .ok (), false =>
    exact .inr ((hseen h).imp_right fun ⟨hin, hreason⟩ => ⟨by simp, .inr hin, hreason⟩)
  | .error _, true =>
    obtain ⟨-, rfl⟩ := Prog.logs_pure.mp h
    exact .inr (.inr ⟨by simp, .inl rfl, _, rfl⟩)

theorem retireChecked_told {digest : Text → Text} {source : EntryEvidence}
    {reliedOn : List KeptCopy} {path : PathBuf} (hpath : pathOf source.path = .ok path) {log : Log}
    {outcome : Retirement} (h : Logs (retireChecked digest source reliedOn path) log outcome) :
    Told digest source reliedOn
      (⟨.support path source.fingerprint.sizeBytes, .supported⟩ :: log) outcome := by
  have hsupport : IsCheck (.support path source.fingerprint.sizeBytes) := rfl
  have hbefore : IsCheck .beforeMove := rfl
  obtain ⟨answer, rest, rfl, h₁⟩ := Prog.logs_act_bind.mp h
  match answer with
  | .error reason =>
    obtain ⟨rfl, rfl⟩ := Prog.logs_pure.mp h₁
    exact .inl ((Unmoved.nil.cons hbefore).cons hsupport)
  | .ok () =>
    obtain ⟨kept, rest', found, rfl, hkept, h₂⟩ := Prog.logs_bind.mp h₁
    match found with
    | .error reason =>
      obtain ⟨rfl, rfl⟩ := Prog.logs_pure.mp h₂
      rw [List.append_nil]
      exact .inl (((unmoved_of_all (all_verifyAllKept digest reliedOn) hkept).cons hbefore).cons
        hsupport)
    | .ok () =>
      obtain ⟨own, rest'', found, rfl, hown, h₃⟩ := Prog.logs_bind.mp h₂
      match found with
      | .error reason =>
        obtain ⟨rfl, rfl⟩ := Prog.logs_pure.mp h₃
        rw [List.append_nil]
        have hchecks := (unmoved_of_all (all_verifyAllKept digest reliedOn) hkept).append
          (unmoved_of_all (all_verifySource digest source) hown)
        exact .inl ((hchecks.cons hbefore).cons hsupport)
      | .ok () =>
        obtain ⟨answer, rest₁, rfl, h₄⟩ := Prog.logs_act_bind.mp h₃
        obtain ⟨after, rest₂, rfl, h₅⟩ := Prog.logs_act_bind.mp h₄
        obtain ⟨kepts, rfl, hkepts⟩ := verifyAllKept_ok hkept
        have hlog : ∀ rest, (⟨.support path source.fingerprint.sizeBytes, .supported⟩ ::
            ⟨.beforeMove, .ok ()⟩ :: (kepts.flatten ++ (own ++ ⟨.moveToTrash path, answer⟩ ::
              ⟨.symlinkMetadata path, after⟩ :: rest)) : Log) =
            (⟨.support path source.fingerprint.sizeBytes, .supported⟩ ::
              ⟨.beforeMove, .ok ()⟩ :: (kepts.flatten ++ own)) ++
              ⟨.moveToTrash path, answer⟩ :: ⟨.symlinkMetadata path, after⟩ :: rest := by
          intro rest
          simp
        rcases settleMove_cases h₅ with ⟨rfl, hgone, rfl, rfl⟩ | ⟨hin, reason, rfl⟩ |
          ⟨hnot, hseen, reason, rfl⟩
        · obtain ⟨error, rfl, hkind⟩ := gone_eq_true hgone
          exact ⟨path, [⟨.support path source.fingerprint.sizeBytes, .supported⟩,
            ⟨.beforeMove, .ok ()⟩], kepts, own, error, rfl, hpath, List.mem_cons_self, hkepts,
            verifySource_ok hpath hown, hkind⟩
        · exact .inr ⟨path, _, answer, after, rest₂, hlog rest₂, hpath, inPlace_true hpath hin⟩
        · exact ⟨path, _, answer, after, rest₂, hlog rest₂, hnot, hseen⟩

theorem retireEntry_told {digest : Text → Text} {source : EntryEvidence} {reliedOn : List KeptCopy}
    {log : Log} {outcome : Retirement} (h : Logs (retireEntry digest source reliedOn) log outcome) :
    Told digest source reliedOn log outcome := by
  unfold retireEntry at h
  cases hpath : pathOf source.path with
  | error reason =>
    rw [hpath] at h
    obtain ⟨rfl, rfl⟩ := Prog.logs_pure.mp h
    exact .inl .nil
  | ok path =>
    rw [hpath] at h
    obtain ⟨support, rest, rfl, h₁⟩ := Prog.logs_act_bind.mp h
    match support with
    | .supported => exact retireChecked_told hpath h₁
    | .unsupported reason detail =>
      obtain ⟨rfl, rfl⟩ := Prog.logs_pure.mp h₁
      exact .inl (Unmoved.nil.cons rfl)

/-! ## After a restart -/

abbrev ExecLog := List (Sigma fun act : Act => Result act.Answer)

/-- The log records the item only as settled with an uncertain outcome. -/
def RecordedUncertain (item : StorageItem) (log : ExecLog) : Prop :=
  ∀ call ∈ log, ∀ id seq expected change, call.1 = .advanceStorageItem id seq expected change →
    seq = item.seq ∧ change.phase = .settled ∧ change.outcome = some .uncertain

/-- An effect that does not ask whether an entry is in place. -/
def AsksNoPlace (act : Act) : Prop := ∀ source, act ≠ .inPlace source

theorem all_liftM {α : Type} (result : Result α) : (liftM result : Exec α).run.All AsksNoPlace := by
  cases result with
  | ok a => exact trivial
  | error e => exact trivial

theorem all_exec_bind {α β : Type} {p : Exec β} {f : β → Exec α} (hp : p.run.All AsksNoPlace)
    (hf : ∀ b, (f b).run.All AsksNoPlace) : (p >>= f).run.All AsksNoPlace := by
  apply Prog.All.bind hp
  rintro (e | b)
  · exact trivial
  · exact hf b

theorem all_exec_ask {act : Act} (h : AsksNoPlace act) : (ask act).run.All AsksNoPlace :=
  ⟨h, fun _ => trivial⟩

theorem all_retire (kind : StorageOperationKind) (item : StorageItem) :
    (retire kind item).run.All AsksNoPlace := by
  have hask : ∀ target, (do
      let retirement ← ask (.retire item.source item.reliedOn target)
      return (retirementChange kind item retirement, item) : Exec _).run.All AsksNoPlace :=
    fun target => all_exec_bind (all_exec_ask fun _ h => by cases h) fun _ => trivial
  cases kind with
  | move => exact all_exec_bind (all_liftM _) fun _ => all_exec_bind (all_liftM _) fun _ => hask _
  | trash => exact hask none
  | copy => exact hask none

theorem resumeRetiring_logs {kind : StorageOperationKind} {item : StorageItem} {log : ExecLog}
    {result : Result (ItemChange × StorageItem)}
    (h : Logs (resumeRetiring kind item).run log result)
    (hplace : ⟨.inPlace item.source, .ok false⟩ ∈ log) :
    log = [⟨.inPlace item.source, .ok false⟩] ∧ result = .ok (interrupted item, item) := by
  rcases Prog.logs_except_bind.mp h with ⟨e, rfl, hlog⟩ | ⟨front, back, seen, rfl, hfront, hback⟩
  · rw [Prog.logs_ask.mp hlog] at hplace
    cases List.mem_singleton.mp hplace
  · have hasked := Prog.logs_ask.mp hfront
    cases seen with
    | true =>
      rw [hasked] at hplace
      rcases List.mem_cons.mp hplace with hsame | hmem
      · cases hsame
      · exact absurd rfl (hback.of_all (all_retire kind item) _ hmem item.source)
    | false =>
      obtain ⟨rfl, rfl⟩ := Prog.logs_pure.mp hback
      exact ⟨by rw [hasked, List.append_nil], rfl⟩

theorem nextChange_retiring {id : Uuid} {kind : StorageOperationKind} {item : StorageItem}
    (hphase : item.phase = .retiring) :
    nextChange id kind item =
      if kind = .copy then throw (cannotAdvance kind item) else resumeRetiring kind item := by
  unfold nextChange
  rw [hphase]
  cases kind with
  | copy => rfl
  | trash => rfl
  | move => rfl

theorem advance_retiring {id : Uuid} {kind : StorageOperationKind} {item : StorageItem}
    (hphase : item.phase = .retiring) {log : ExecLog} {result : Result Unit}
    (h : Logs (advance id kind item).run log result)
    (hplace : ⟨.inPlace item.source, .ok false⟩ ∈ log) : RecordedUncertain item log := by
  unfold advance at h
  rw [nextChange_retiring hphase] at h
  by_cases hcopy : kind = .copy
  · rw [if_pos hcopy] at h
    obtain ⟨rfl, -⟩ := Prog.logs_pure.mp h
    cases hplace
  rw [if_neg hcopy] at h
  rcases Prog.logs_except_bind.mp h with ⟨e, rfl, hlog⟩ | ⟨front, back, next, rfl, hfront, hback⟩
  · cases (resumeRetiring_logs hlog hplace).2
  have hrecorded : ∃ answer,
      back = [⟨.advanceStorageItem id next.2.seq next.2.revision next.1, answer⟩] := by
    rcases Prog.logs_except_bind.mp hback with ⟨e, -, hlog⟩ | ⟨first, last, _, rfl, hlog, hend⟩
    · exact ⟨_, Prog.logs_ask.mp hlog⟩
    · obtain ⟨rfl, -⟩ := Prog.logs_pure.mp hend
      exact ⟨_, by rw [Prog.logs_ask.mp hlog, List.append_nil]⟩
  obtain ⟨answer, rfl⟩ := hrecorded
  have hseen : ⟨.inPlace item.source, .ok false⟩ ∈ front := by
    rcases List.mem_append.mp hplace with hmem | hmem
    · exact hmem
    · cases List.mem_singleton.mp hmem
  obtain ⟨rfl, hnext⟩ := resumeRetiring_logs hfront hseen
  cases Except.ok.inj hnext
  intro call hcall id' seq expected change hadvance
  rcases List.mem_cons.mp hcall with rfl | hmem
  · cases hadvance
  · rw [List.mem_singleton.mp hmem] at hadvance
    cases hadvance
    exact ⟨rfl, rfl, rfl⟩

/-- Every outcome of a retirement is true of what was asked and answered, and an item found retiring
with its entry not in place is recorded as uncertain. -/
theorem retirement_is_true (digest : Text → Text) :
    (∀ source reliedOn log outcome, Logs (retireEntry digest source reliedOn) log outcome →
      (outcome = .moved → MovedAway digest source reliedOn log) ∧
      ((∃ reason, outcome = .blocked reason ∨ outcome = .unsupported reason) →
        LeftInPlace source log) ∧
      ((∃ reason, outcome = .uncertain reason) → Unproven source log) ∧
      (¬ MovedAway digest source reliedOn log ∧ ¬ LeftInPlace source log →
        ∃ reason, outcome = .uncertain reason)) ∧
    ∀ id kind item log result, item.phase = .retiring → Logs (advance id kind item).run log result →
      ⟨.inPlace item.source, .ok false⟩ ∈ log → RecordedUncertain item log := by
  refine ⟨fun source reliedOn log outcome h => ?_,
    fun id kind item log result hphase h hplace => advance_retiring hphase h hplace⟩
  have htold := retireEntry_told h
  refine ⟨?_, ?_, ?_, fun ⟨hmoved, hleft⟩ => ?_⟩
  · rintro rfl
    exact htold
  · rintro ⟨reason, rfl | rfl⟩
    · exact htold
    · exact htold
  · rintro ⟨reason, rfl⟩
    exact htold
  · cases outcome with
    | moved => exact absurd htold hmoved
    | blocked reason => exact absurd htold hleft
    | unsupported reason => exact absurd htold hleft
    | uncertain reason => exact ⟨reason, rfl⟩

/-! ## One link to the Trash -/

def linkPath : PathBuf := { absolute := true, parts := [.normal "frame.fits".toList] }

def linkTarget : NativePath := .host { absolute := true, parts := [.normal "raw.fits".toList] }

def linkFingerprint : ObservationFingerprint where
  identity := {
    volume := {
      filesystem := "ext4"
      stableId := some "vol"
      fileIdsStable := true
      case := .sensitive
      normalization := .sensitive }
    fileId := some "7" }
  sizeBytes := 9
  modifiedNs := 1
  contentSha256 := none

def linkSource : EntryEvidence where
  path := .host linkPath
  root := none
  kind := .link linkTarget
  fingerprint := linkFingerprint
  sha256 := none

def linkMetadata : Metadata where
  link := true
  isDir := false
  isFile := false
  stamp := { device := some 1, file := some 7, created := none }
  len := 9
  modified := some 1

def linkItem : StorageItem where
  seq := 0
  source := linkSource
  reliedOn := []
  destination := none
  written := none
  phase := .retiring
  outcome := none
  reason := none
  revision := 2
  updatedAt := ""

def linkLog : Log :=
  [⟨.support linkPath 9, .supported⟩, ⟨.beforeMove, .ok ()⟩,
    ⟨.symlinkMetadata linkPath, .ok linkMetadata⟩,
    ⟨.linkFingerprint linkPath, .ok (linkFingerprint, linkTarget)⟩,
    ⟨.moveToTrash linkPath, .ok ()⟩,
    ⟨.symlinkMetadata linkPath, .error { kind := .notFound, message := "" }⟩]

def resumeLog : ExecLog :=
  [⟨.inPlace linkSource, .ok false⟩,
    ⟨.advanceStorageItem 1 0 2 (interrupted linkItem), .ok { linkItem with phase := .settled }⟩]

theorem retirement_is_true_of_link :
    MovedAway id linkSource [] linkLog ∧ RecordedUncertain linkItem resumeLog := by
  have hmoved : Logs (retireEntry id linkSource []) linkLog .moved :=
    .perform (.perform (.perform (.perform (.perform (.perform (.pure _))))))
  have hresumed : Logs (advance 1 .trash linkItem).run resumeLog (.ok ()) :=
    .perform (.perform (.pure _))
  exact ⟨((retirement_is_true id).1 linkSource [] linkLog .moved hmoved).1 rfl,
    (retirement_is_true id).2 1 .trash linkItem resumeLog (.ok ()) rfl hresumed List.mem_cons_self⟩

end PlateVault.Custody
