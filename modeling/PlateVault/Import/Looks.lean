import Mathlib.Data.List.Basic
import PlateVault.Import.Settling

/-!
# What the settle checks asked

What one call of the settle checks asked, when, and what the checks of one file made of it: the looks
they took, the one they left on record, and when the file was passed on as settled.
-/

namespace PlateVault.Import

variable {P : Platform} {α β : Type}

/-! ## Timed logs -/

abbrev Asked (P : Platform) := Sigma fun e : SettleEffect => Result (SettleAnswer P e)

abbrev Trace (P : Platform) := List (Nat × Asked P)

def lookOf : Asked P → Option (NativePath × ObservationFingerprint)
  | ⟨.probeFingerprint path, .ok (.ok fingerprint)⟩ => some (path, fingerprint)
  | ⟨.reviewStorageEntry path, .ok (.ok evidence)⟩ => some (path, evidence.fingerprint)
  | _ => none

/-- A reading of the system clock, and the file it was for. -/
def readingOf : Asked P → Option (NativePath × Int)
  | ⟨.nowMs path, .ok ms⟩ => some (path, ms)
  | _ => none

theorem lookOf_of_reading {asked : Asked P} {reading : NativePath × Int}
    (h : readingOf asked = some reading) : lookOf asked = none := by
  unfold readingOf at h
  split at h
  · rfl
  · cases h

section Looks

variable {path : NativePath}

@[simp] theorem lookOf_probe {fingerprint : ObservationFingerprint} :
    lookOf (⟨.probeFingerprint path, .ok (.ok fingerprint)⟩ : Asked P) = some (path, fingerprint) := rfl

@[simp] theorem lookOf_probe_error {error : LibraryError} :
    lookOf (⟨.probeFingerprint path, .ok (.error error)⟩ : Asked P) = none := rfl

@[simp] theorem lookOf_review {evidence : EntryEvidence} :
    lookOf (⟨.reviewStorageEntry path, .ok (.ok evidence)⟩ : Asked P) =
      some (path, evidence.fingerprint) := rfl

@[simp] theorem lookOf_review_error {error : LibraryError} :
    lookOf (⟨.reviewStorageEntry path, .ok (.error error)⟩ : Asked P) = none := rfl

@[simp] theorem lookOf_nowMs {answer : Result (SettleAnswer P (.nowMs path))} :
    lookOf (⟨.nowMs path, answer⟩ : Asked P) = none := rfl

@[simp] theorem lookOf_readHeader {answer : Result (SettleAnswer P (.readHeader path))} :
    lookOf (⟨.readHeader path, answer⟩ : Asked P) = none := rfl

end Looks

/-- What is promised of an effect that follows `now` and is answered at `time`: the clock does not run
back, an instant is the time, a sleep is at least as long as asked, and files have one path each. -/
def Lawful (now time : Nat) : Asked P → Prop
  | ⟨.instant, answer⟩ => now ≤ time ∧ answer = .ok time
  | ⟨.sleep duration, _⟩ => now + duration ≤ time
  | ⟨.listFrames root, .ok listed⟩ => now ≤ time ∧ (listed.map root.join).Nodup
  | _ => now ≤ time

/-- A trace that follows `now` keeps the laws. -/
def LawfulFrom : Nat → Trace P → Prop
  | _, [] => True
  | now, (time, asked) :: trace => Lawful now time asked ∧ LawfulFrom time trace

def Ran (p : Settle P α) (trace : Trace P) (a : α) : Prop :=
  Prog.Logs p.run (trace.map (·.2)) (.ok a)

section Ran

variable {trace : Trace P} {a : α}

@[simp] theorem ran_pure {b : α} : Ran (pure b : Settle P α) trace a ↔ trace = [] ∧ a = b := by
  constructor
  · intro h
    obtain ⟨hlog, hsame⟩ := Prog.logs_pure.mp h
    exact ⟨List.map_eq_nil_iff.mp hlog, by cases hsame; rfl⟩
  · rintro ⟨rfl, rfl⟩
    exact Prog.logs_pure.mpr ⟨rfl, rfl⟩

theorem ran_bind {p : Settle P β} {f : β → Settle P α} : Ran (p >>= f) trace a ↔
    ∃ front back b, trace = front ++ back ∧ Ran p front b ∧ Ran (f b) back a := by
  constructor
  · intro h
    obtain ⟨front, back, b, hlog, hfront, hback⟩ := Prog.logs_bind_ok h
    obtain ⟨front', back', rfl, rfl, rfl⟩ := List.map_eq_append_iff.mp hlog
    exact ⟨front', back', b, rfl, hfront, hback⟩
  · rintro ⟨front, back, b, rfl, hfront, hback⟩
    exact Prog.logs_except_bind.mpr (.inr ⟨_, _, b, List.map_append, hfront, hback⟩)

theorem ran_ask_bind {e : SettleEffect} {f : SettleAnswer P e → Settle P α} :
    Ran ((Prog.ask e : Settle P _) >>= f) trace a ↔
      ∃ time answer rest, trace = (time, ⟨e, .ok answer⟩) :: rest ∧ Ran (f answer) rest a := by
  rw [ran_bind]
  constructor
  · rintro ⟨front, back, answer, rfl, hask, hrest⟩
    obtain ⟨⟨time, asked⟩, rest, rfl, hasked, hnil⟩ := List.map_eq_cons_iff.mp (Prog.logs_ask.mp hask)
    obtain rfl := List.map_eq_nil_iff.mp hnil
    cases hasked
    exact ⟨time, answer, back, rfl, hrest⟩
  · rintro ⟨time, answer, rest, rfl, hrest⟩
    exact ⟨[_], rest, answer, rfl, Prog.logs_ask.mpr rfl, hrest⟩

theorem ran_lift_bind {x : Result β} {f : β → Settle P α} :
    Ran (liftM x >>= f) trace a ↔ ∃ b, x = .ok b ∧ Ran (f b) trace a := by
  cases x with
  | error error =>
    constructor
    · intro h
      obtain ⟨-, herror⟩ := Prog.logs_pure.mp h
      cases herror
    · rintro ⟨b, hb, -⟩
      cases hb
  | ok b =>
    constructor
    · exact fun h => ⟨b, rfl, h⟩
    · rintro ⟨b', hb, h⟩
      cases hb
      exact h

end Ran

/-! ## One file -/

/-- The reviewed evidence and header are recorded: routing takes the file as settled. -/
def ImportItemRecord.settled (record : ImportItemRecord P) : Bool :=
  record.evidence.isSome && record.metadata.isSome

def ImportItemRecord.path (record : ImportItemRecord P) : NativePath := record.item.sourcePath

def LooksAt (path : NativePath) (trace : Trace P) : Prop :=
  ∀ entry ∈ trace, ∀ found, lookOf entry.2 = some found → found.1 = path

def LooksLike (fingerprint : ObservationFingerprint) (trace : Trace P) : Prop :=
  ∀ entry ∈ trace, ∀ found, lookOf entry.2 = some found →
    sameObservation fingerprint found.2 = true

@[simp] theorem looksAt_nil {path : NativePath} : LooksAt path ([] : Trace P) :=
  fun _ h => absurd h List.not_mem_nil

@[simp] theorem looksAt_cons {path : NativePath} {entry : Nat × Asked P} {trace : Trace P} :
    LooksAt path (entry :: trace) ↔
      (∀ found, lookOf entry.2 = some found → found.1 = path) ∧ LooksAt path trace := by
  simp [LooksAt]

@[simp] theorem looksAt_append {path : NativePath} {front back : Trace P} :
    LooksAt path (front ++ back) ↔ LooksAt path front ∧ LooksAt path back := by
  simp only [LooksAt, List.mem_append, or_imp, forall_and]

@[simp] theorem looksLike_nil {fingerprint : ObservationFingerprint} :
    LooksLike fingerprint ([] : Trace P) :=
  fun _ h => absurd h List.not_mem_nil

@[simp] theorem looksLike_cons {fingerprint : ObservationFingerprint} {entry : Nat × Asked P}
    {trace : Trace P} : LooksLike fingerprint (entry :: trace) ↔
      (∀ found, lookOf entry.2 = some found → sameObservation fingerprint found.2 = true) ∧
        LooksLike fingerprint trace := by
  simp [LooksLike]

/-- A recorded look was taken, and the clock read right after it. -/
def Observed (trace : Trace P) (path : NativePath) (observation : SettleObservation) : Prop :=
  ∃ front look reading back, trace = front ++ look :: reading :: back ∧
    lookOf look.2 = some (path, observation.fingerprint) ∧
    readingOf reading.2 = some (path, observation.checkedAtMs)

theorem Observed.append {trace : Trace P} {path : NativePath} {observation : SettleObservation}
    (h : Observed trace path observation) (front back : Trace P) :
    Observed (front ++ trace ++ back) path observation := by
  obtain ⟨before, look, reading, after, rfl, hlook, hreading⟩ := h
  exact ⟨front ++ before, look, reading, after ++ back, by simp, hlook, hreading⟩

theorem sameObservation_iff {left right : ObservationFingerprint} :
    sameObservation left right = true ↔ left.identity = right.identity ∧
      left.sizeBytes = right.sizeBytes ∧ left.modifiedNs = right.modifiedNs := by
  simp [sameObservation, and_assoc]

theorem sameObservation_symm {left right : ObservationFingerprint}
    (h : sameObservation left right = true) : sameObservation right left = true := by
  rw [sameObservation_iff] at h ⊢
  exact ⟨h.1.symm, h.2.1.symm, h.2.2.symm⟩

theorem sameObservation_trans {a b c : ObservationFingerprint} (h : sameObservation a b = true)
    (h' : sameObservation b c = true) : sameObservation a c = true := by
  rw [sameObservation_iff] at h h' ⊢
  exact ⟨h.1.trans h'.1, h.2.1.trans h'.2.1, h.2.2.trans h'.2.2⟩

/-- What a part of a check leaves of the look an item has on record: it, none, or the one it took. -/
def Leaves (record : ImportItemRecord P) (trace : Trace P) (result : ImportItemRecord P) : Prop :=
  ∀ observation, result.observation = some observation →
    record.observation = some observation ∨ Observed trace record.path observation

/-- What a part of a check makes of an unsettled item: it looks at its file only, and settles it
only when every look agrees with the one on record. -/
structure Checks (record : ImportItemRecord P) (trace : Trace P) (result : ImportItemRecord P) :
    Prop where
  path : result.path = record.path
  looksAt : LooksAt record.path trace
  leaves : Leaves record trace result
  settles : result.settled = true → ∃ observation, record.observation = some observation ∧
    LooksLike observation.fingerprint trace ∧ ∃ entry ∈ trace, (lookOf entry.2).isSome = true

section File

variable {record result : ImportItemRecord P} {trace : Trace P}

theorem Checks.of_same {before : ImportItemRecord P} (h : Checks before trace result)
    (hpath : before.path = record.path) (hobservation : before.observation = record.observation) :
    Checks record trace result where
  path := h.path.trans hpath
  looksAt := hpath ▸ h.looksAt
  leaves := fun observation hleft => hpath ▸ hobservation ▸ h.leaves observation hleft
  settles := fun hsettled => hobservation ▸ h.settles hsettled

theorem intakeFailure_spec (record : ImportItemRecord P) (error : LibraryError) :
    (intakeFailure record error).path = record.path ∧
      (intakeFailure record error).settled = false ∧
      ((intakeFailure record error).observation = record.observation ∨
        (intakeFailure record error).observation = none) := by
  cases error <;> exact ⟨rfl, rfl, by simp [intakeFailure, forgetEvidence]⟩

theorem Checks.of_failure (error : LibraryError) (hlooks : LooksAt record.path trace) :
    Checks record trace (intakeFailure record error) := by
  obtain ⟨hpath, hsettled, hobservation⟩ := intakeFailure_spec record error
  refine ⟨hpath, hlooks, fun observation h => ?_, fun h => ?_⟩
  · rcases hobservation with hsame | hnone
    · exact .inl (hsame ▸ h)
    · cases hnone.symm.trans h
  · cases hsettled.symm.trans h

theorem ran_observe {fingerprint : ObservationFingerprint}
    (h : Ran (observe record fingerprint) trace result) : ∃ time ms,
      trace = [(time, ⟨.nowMs record.path, .ok ms⟩)] ∧
        result = { record with observation := some ⟨fingerprint, ms⟩ } := by
  obtain ⟨time, ms, rest, rfl, hrest⟩ := ran_ask_bind.mp h
  obtain ⟨rfl, rfl⟩ := ran_pure.mp hrest
  exact ⟨time, ms, rfl, rfl⟩

variable {classify : CaptureMetadata P → NativePath → Option Naming.NamingFrameType}

theorem held_iff {fingerprint : ObservationFingerprint} : record.held fingerprint = true ↔
    ∃ observation, record.observation = some observation ∧
      sameObservation observation.fingerprint fingerprint = true := by
  simp [ImportItemRecord.held, Option.any_eq_true]

theorem Checks.of_hold (hevidence : record.evidence = none) (block : ImportBlock)
    (hlooks : LooksAt record.path trace) : Checks record trace (hold record block) where
  path := rfl
  looksAt := hlooks
  leaves := fun _ h => .inl h
  settles := fun h => by simp [ImportItemRecord.settled, hold, hevidence] at h

theorem Checks.of_observe {fingerprint : ObservationFingerprint} (front : Trace P)
    {look : Nat × Asked P} (hevidence : record.evidence = none)
    (h : Ran (observe record fingerprint) trace result)
    (hlook : lookOf look.2 = some (record.path, fingerprint)) (hfront : LooksAt record.path front) :
    Checks record (front ++ look :: trace) result := by
  obtain ⟨time, ms, rfl, rfl⟩ := ran_observe h
  refine ⟨rfl, ?_, ?_, fun h => ?_⟩
  · simp [hfront, hlook]
  · rintro observation ⟨⟩
    exact .inr ⟨front, look, _, [], rfl, hlook, rfl⟩
  · simp [ImportItemRecord.settled, hevidence] at h

theorem capture_checks (h : Ran (capture classify record) trace result)
    (hevidence : record.evidence = none) : Checks record trace result := by
  obtain ⟨time, answer, rest, rfl, hrest⟩ := ran_ask_bind.mp h
  cases answer with
  | error error =>
    obtain ⟨rfl, rfl⟩ := ran_pure.mp hrest
    exact .of_failure error (by simp)
  | ok evidence =>
    have hreview : lookOf (⟨.reviewStorageEntry record.path, .ok (.ok evidence)⟩ : Asked P) =
        some (record.path, evidence.fingerprint) := rfl
    dsimp only at hrest
    split at hrest
    · obtain ⟨rfl, rfl⟩ := ran_pure.mp hrest
      exact .of_hold hevidence _ (by simp [ImportItemRecord.path])
    · split at hrest
      · rename_i hheld
        obtain ⟨time', header, rest', rfl, hrest'⟩ := ran_ask_bind.mp hrest
        obtain ⟨time'', after, rest'', rfl, hafter⟩ := ran_ask_bind.mp hrest'
        cases after with
        | error error =>
          obtain ⟨rfl, rfl⟩ := ran_pure.mp hafter
          exact .of_failure error (by simp [ImportItemRecord.path])
        | ok after =>
          dsimp only at hafter
          split at hafter
          · rename_i hsame
            cases header with
            | error detail =>
              obtain ⟨rfl, rfl⟩ := ran_pure.mp hafter
              exact .of_hold hevidence _ (by simp [ImportItemRecord.path])
            | ok metadata =>
              obtain ⟨rfl, rfl⟩ := ran_pure.mp hafter
              refine ⟨rfl, by simp [ImportItemRecord.path], fun _ h => .inl h, fun _ => ?_⟩
              obtain ⟨observation, hobservation, hagree⟩ := held_iff.mp hheld
              refine ⟨observation, hobservation, ?_, _, List.mem_cons_self, rfl⟩
              simp only [looksLike_cons, looksLike_nil, and_true]
              refine ⟨?_, by simp, ?_⟩
              · rintro found ⟨⟩
                exact hagree
              · rintro found ⟨⟩
                exact sameObservation_trans hagree (sameObservation_symm hsame)
          · exact .of_observe [_, _] hevidence hafter rfl (by simp [ImportItemRecord.path])
      · exact .of_observe [] hevidence hrest hreview (by simp)

inductive FirstChecked (intervalMs : Nat) (record : ImportItemRecord P) :
    Trace P → Bool → ImportItemRecord P → Prop
  /-- The file could not be looked at. -/
  | failed {trace : Trace P} {result : ImportItemRecord P} (checks : Checks record trace result)
      (unsettled : result.settled = false) : FirstChecked intervalMs record trace false result
  /-- It is as it was when it was reviewed. -/
  | proven {trace : Trace P} {result : ImportItemRecord P} (path : result.path = record.path)
      (looksAt : LooksAt record.path trace) (settled : record.settled = true)
      (observation : result.observation = record.observation) :
      FirstChecked intervalMs record trace false result
  /-- It is as it was an interval ago by the system clock, and was reviewed. -/
  | elapsed {look reading : Nat × Asked P} {rest : Trace P} {result : ImportItemRecord P}
      {observation : SettleObservation} {observed : ObservationFingerprint} {ms : Int}
      (recorded : record.observation = some observation)
      (looked : lookOf look.2 = some (record.path, observed))
      (same : sameObservation observation.fingerprint observed = true)
      (read : readingOf reading.2 = some (record.path, ms))
      (passed : (intervalMs : Int) ≤ ms - observation.checkedAtMs)
      (checks : Checks record rest result) :
      FirstChecked intervalMs record (look :: reading :: rest) false result
  /-- It is as it was less than an interval ago. -/
  | held {look reading : Nat × Asked P} {result : ImportItemRecord P}
      {observation : SettleObservation} {observed : ObservationFingerprint} {ms : Int}
      (recorded : record.observation = some observation)
      (looked : lookOf look.2 = some (record.path, observed))
      (read : readingOf reading.2 = some (record.path, ms)) (path : result.path = record.path)
      (kept : result.observation = record.observation) (unsettled : result.evidence = none) :
      FirstChecked intervalMs record [look, reading] true result
  /-- It was first looked at now. -/
  | fresh {look reading : Nat × Asked P} {result : ImportItemRecord P}
      {observed : ObservationFingerprint} {ms : Int} (unheld : record.held observed = false)
      (looked : lookOf look.2 = some (record.path, observed))
      (read : readingOf reading.2 = some (record.path, ms)) (path : result.path = record.path)
      (observation : result.observation = some ⟨observed, ms⟩) (unsettled : result.evidence = none) :
      FirstChecked intervalMs record [look, reading] true result

theorem firstCheck_checked {intervalMs : Nat} {second : Bool}
    (h : Ran (firstCheck classify intervalMs record) trace (second, result)) :
    FirstChecked intervalMs record trace second result := by
  obtain ⟨front, back, ⟨observed, probed⟩, rfl, hprobe, hrest⟩ := ran_bind.mp h
  obtain ⟨time, answer, rest, rfl, hanswer⟩ := ran_ask_bind.mp hprobe
  cases answer with
  | error error =>
    obtain ⟨rfl, hsame⟩ := ran_pure.mp hanswer
    cases hsame
    obtain ⟨rfl, hsame⟩ := ran_pure.mp hrest
    cases hsame
    exact .failed (.of_failure error (by simp)) (intakeFailure_spec record error).2.1
  | ok fingerprint =>
    obtain ⟨rfl, hsame⟩ := ran_pure.mp hanswer
    cases hsame
    dsimp only at hrest
    split at hrest
    · rename_i hproven
      obtain ⟨rfl, hsame⟩ := ran_pure.mp hrest
      cases hsame
      refine .proven rfl (by simp [ImportItemRecord.path]) ?_ rfl
      simp only [ImportItemRecord.proven, Bool.and_eq_true, Option.any_eq_true] at hproven
      obtain ⟨⟨evidence, hevidence, -⟩, hmeta⟩ := hproven
      simp only [ImportItemRecord.settled, Bool.and_eq_true]
      exact ⟨by rw [hevidence]; rfl, hmeta⟩
    · split at hrest
      · rename_i previous hrecorded
        have hrecorded : record.observation = some previous := hrecorded
        split at hrest
        · rename_i hsame
          obtain ⟨time', ms, rest', rfl, hchecked⟩ := ran_ask_bind.mp hrest
          split at hchecked
          · rename_i hpassed
            obtain ⟨captured, _, after, rfl, hcapture, hafter⟩ := ran_bind.mp hchecked
            obtain ⟨rfl, hpair⟩ := ran_pure.mp hafter
            cases hpair
            have hchecks : Checks record captured result := (capture_checks hcapture rfl).of_same rfl rfl
            rw [List.append_nil]
            exact .elapsed hrecorded rfl hsame rfl hpassed hchecks
          · obtain ⟨rfl, hpair⟩ := ran_pure.mp hchecked
            cases hpair
            exact .held hrecorded rfl rfl rfl rfl rfl
        · rename_i hother
          obtain ⟨observing, _, after, rfl, hobserve, hafter⟩ := ran_bind.mp hrest
          obtain ⟨rfl, hpair⟩ := ran_pure.mp hafter
          cases hpair
          obtain ⟨time', ms, rfl, rfl⟩ := ran_observe hobserve
          have hunheld : record.held fingerprint = false := by
            rw [← Bool.not_eq_true, held_iff]
            rintro ⟨observation, hobservation, hagree⟩
            cases hrecorded.symm.trans hobservation
            exact hother hagree
          exact .fresh hunheld rfl rfl rfl rfl rfl
      · rename_i hnone
        have hnone : record.observation = none := hnone
        obtain ⟨observing, _, after, rfl, hobserve, hafter⟩ := ran_bind.mp hrest
        obtain ⟨rfl, hpair⟩ := ran_pure.mp hafter
        cases hpair
        obtain ⟨time', ms, rfl, rfl⟩ := ran_observe hobserve
        have hunheld : record.held fingerprint = false := by
          rw [ImportItemRecord.held, hnone]
          rfl
        exact .fresh hunheld rfl rfl rfl rfl rfl

theorem secondCheck_checks (h : Ran (secondCheck classify record) trace result)
    (hevidence : record.evidence = none) : Checks record trace result := by
  obtain ⟨front, back, ⟨observed, probed⟩, rfl, hprobe, hrest⟩ := ran_bind.mp h
  obtain ⟨time, answer, rest, rfl, hanswer⟩ := ran_ask_bind.mp hprobe
  cases answer with
  | error error =>
    obtain ⟨rfl, hsame⟩ := ran_pure.mp hanswer
    cases hsame
    obtain ⟨rfl, rfl⟩ := ran_pure.mp hrest
    exact .of_failure error (by simp)
  | ok fingerprint =>
    obtain ⟨rfl, hsame⟩ := ran_pure.mp hanswer
    cases hsame
    dsimp only at hrest
    split at hrest
    · rename_i hheld
      obtain ⟨observation, hobservation, hagree⟩ := held_iff.mp hheld
      have hchecks := capture_checks hrest hevidence
      refine ⟨hchecks.path, by simpa [ImportItemRecord.path] using hchecks.looksAt, ?_, fun h => ?_⟩
      · intro kept hkept
        refine (hchecks.leaves kept hkept).imp id fun hobserved => ?_
        have hobserved : Observed back record.path kept := hobserved
        simpa using hobserved.append [_] []
      · obtain ⟨observation', hobservation', hlike, entry, hentry, hlook⟩ := hchecks.settles h
        refine ⟨observation', hobservation', ?_, entry, List.mem_cons_of_mem _ hentry, hlook⟩
        cases hobservation.symm.trans hobservation'
        refine looksLike_cons.mpr ⟨?_, hlike⟩
        rintro found ⟨⟩
        exact hagree
    · refine Checks.of_same (Checks.of_observe [] ?_ hrest ?_ (by simp)) rfl rfl
      · exact hevidence
      · rfl

end File

end PlateVault.Import
