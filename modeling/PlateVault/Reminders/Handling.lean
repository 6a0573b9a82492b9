import PlateVault.Reminders.Observed

/-!
# What a call does with the scheduler

Under the mutex of the runtime a call takes the scheduler's handle out, wakes its task or stops it,
and leaves a handle in the runtime again. `Handling` keeps what a call has done since it took the
mutex, and `Handling.Allows` what it may do next: it puts back only a task that it woke or spawned, and
waits only for a task that it told to stop.
-/

namespace PlateVault.Reminders

/-- What a call did since it took the mutex: the handle it has out, whether the task was told to stop,
the task whose wake it counted last, whether that task was running after it, and the handle left. -/
structure Handling where
  holds : Bool
  out : Bool
  taken : Option Nat
  stopping : Bool
  attached : Bool
  woken : Option Nat
  running : Bool
  kept : Option Nat
  deriving DecidableEq, Repr

section Handlers

variable {A : Almanac}

namespace Handling

def initial : Handling := ⟨false, false, none, false, false, none, false, none⟩

def next (m : Handling) : (e : CallEffect A) → CallAnswer e → Handling
  | .lock, _ => { initial with holds := true }
  | .unlock, _ => initial
  | .attached, attached => { m with attached }
  | .attach, _ => { m with attached := true }
  | .takeScheduler, taken =>
    { m with out := true, taken, stopping := false, woken := none, running := false, kept := none }
  | .keepScheduler i, _ => { m with out := false, taken := none, kept := some i }
  | .spawn, i => { m with taken := some i, stopping := false, woken := some i, running := true }
  | .count i, counted => { m with woken := if counted then some i else none, running := false }
  | .isFinished _, finished => { m with running := !finished }
  | .sendStop _, _ => { m with stopping := true, woken := none, running := false }
  | .join _, _ => { m with taken := none }
  | _, _ => m

def Allows (m : Handling) : CallEffect A → Prop
  | .lock => m.holds = false
  | .unlock => m.holds = true ∧ m.taken = none
  | .attached | .attach | .hasScheduler => m.holds = true
  | .takeScheduler => m.holds = true ∧ m.taken = none
  | .keepScheduler i =>
    m.holds = true ∧ m.taken = some i ∧ m.stopping = false ∧ m.woken = some i ∧ m.running = true
  | .spawn => m.holds = true ∧ m.out = true ∧ m.taken = none
  | .isFinished i => m.woken = some i
  | .sendStop i => m.holds = true ∧ m.taken = some i
  | .join i => m.holds = true ∧ m.taken = some i ∧ m.stopping = true
  | _ => True

def After (m : Handling) (e : CallEffect A) (r : CallAnswer e) (m' : Handling) : Prop :=
  m' = m.next e r

/-- What a `sync` leaves: the mutex held, no handle out, and while enabled a running task kept. -/
structure Synced (enabled : Bool) (m : Handling) : Prop where
  holds : m.holds = true
  taken : m.taken = none
  kept : enabled = true → m.attached = true →
    ∃ i, m.kept = some i ∧ m.woken = some i ∧ m.running = true

end Handling

open Handling

/-! ## Programs -/

section Programs

variable {m : Handling} {α : Type}

theorem wake_obeys (i : Nat) :
    (wake (A := A) i).Obeys Allows After (fun answer m' =>
      m' = { m with woken := m'.woken, running := m'.running } ∧
        (answer = true → m'.woken = some i ∧ m'.running = true)) m := by
  rw [wake]
  refine Prog.obeys_act_bind trivial ?_
  rintro counted _ rfl
  refine Prog.obeys_act_bind trivial ?_
  rintro _ _ rfl
  cases counted with
  | false => exact ⟨rfl, by rintro ⟨⟩⟩
  | true =>
    refine Prog.obeys_act_bind rfl ?_
    rintro finished _ rfl
    exact ⟨rfl, fun hanswer => ⟨rfl, hanswer⟩⟩

theorem start_obeys (hholds : m.holds = true) (hout : m.out = true) (htaken : m.taken = none) :
    (start (A := A)).Obeys Allows After (fun _ => Synced true) m := by
  rw [start]
  refine Prog.obeys_act_bind hholds ?_
  rintro attached _ rfl
  cases attached with
  | false => exact ⟨hholds, htaken, fun _ h => absurd h (by rintro ⟨⟩)⟩
  | true =>
    refine Prog.obeys_act_bind ⟨hholds, hout, htaken⟩ ?_
    rintro i _ rfl
    refine ⟨⟨hholds, rfl, rfl, rfl, rfl⟩, ?_⟩
    rintro _ _ rfl
    exact ⟨hholds, rfl, fun _ _ => ⟨i, rfl, rfl, rfl⟩⟩

theorem stop_obeys {i : Nat} (hholds : m.holds = true) (htaken : m.taken = some i) :
    (stop (A := A) i).Obeys Allows After (fun _ m' =>
      m'.holds = true ∧ m'.taken = none ∧ m'.out = m.out) m := by
  rw [stop]
  refine Prog.obeys_act_bind ⟨hholds, htaken⟩ ?_
  rintro _ _ rfl
  refine ⟨⟨hholds, htaken, rfl⟩, ?_⟩
  rintro _ _ rfl
  exact ⟨hholds, rfl, rfl⟩

theorem stopThenStart_obeys {i : Nat} {enabled : Bool} (hholds : m.holds = true)
    (hout : m.out = true) (htaken : m.taken = some i) :
    (stopThenStart (A := A) i enabled).Obeys Allows After (fun _ => Synced enabled) m := by
  rw [stopThenStart, Prog.obeys_bind]
  refine (stop_obeys hholds htaken).mono ?_
  rintro _ m' ⟨hholds', htaken', hout'⟩
  cases enabled with
  | false => exact ⟨hholds', htaken', by rintro ⟨⟩⟩
  | true => exact start_obeys hholds' (hout'.trans hout) htaken'

/-- A `sync` while enabled leaves a task that was woken and is running, where a notifier is attached. -/
theorem sync_obeys {enabled : Bool} (hholds : m.holds = true) (htaken : m.taken = none) :
    (sync (A := A) enabled).Obeys Allows After (fun _ => Synced enabled) m := by
  rw [sync]
  refine Prog.obeys_act_bind ⟨hholds, htaken⟩ ?_
  rintro (_ | i) _ rfl
  · cases enabled with
    | false => exact ⟨hholds, rfl, by rintro ⟨⟩⟩
    | true => exact start_obeys hholds rfl rfl
  · cases enabled with
    | false => exact stopThenStart_obeys hholds rfl rfl
    | true =>
      simp only [if_true]
      rw [Prog.obeys_bind]
      refine (wake_obeys i).mono ?_
      rintro (_ | _) m' ⟨hm', hwoken⟩
      · rw [hm']
        exact stopThenStart_obeys hholds rfl rfl
      · obtain ⟨hwoken, hrunning⟩ := hwoken rfl
        refine ⟨⟨?_, ?_, ?_, hwoken, hrunning⟩, ?_⟩
        · rw [hm']
          exact hholds
        · rw [hm']
          rfl
        · rw [hm']
          rfl
        · rintro _ _ rfl
          rw [hm'] at hwoken hrunning ⊢
          exact ⟨hholds, rfl, fun _ _ => ⟨i, rfl, hwoken, hrunning⟩⟩

abbrev Released (_ : α) (m : Handling) : Prop := m.holds = false

theorem syncReminders_obeys (h : m.holds = false) :
    (syncReminders (A := A)).Obeys Allows After Released m := by
  rw [syncReminders]
  refine Prog.obeys_act_bind h ?_
  rintro _ _ rfl
  refine Prog.obeys_act_bind rfl ?_
  rintro attached _ rfl
  have hunlock : ∀ (enabled : Bool) (m' : Handling), Synced enabled m' →
      (request (A := A) .unlock).Obeys Allows After Released m' := by
    intro enabled m' hsynced
    refine ⟨⟨hsynced.holds, hsynced.taken⟩, ?_⟩
    rintro _ _ rfl
    rfl
  cases attached with
  | false => exact hunlock false _ ⟨rfl, rfl, by rintro ⟨⟩⟩
  | true =>
    refine Prog.obeys_act_bind trivial ?_
    rintro (error | enabled) _ rfl
    · refine Prog.obeys_act_bind rfl ?_
      rintro enabled _ rfl
      rw [Prog.obeys_bind]
      exact (sync_obeys rfl rfl).mono fun _ => hunlock enabled
    · dsimp only
      rw [Prog.obeys_bind]
      exact (sync_obeys rfl rfl).mono fun _ => hunlock enabled

theorem stopTaken_obeys (hholds : m.holds = true) (htaken : m.taken = none) :
    (stopTaken (A := A)).Obeys Allows After (fun _ m' => m'.holds = true ∧ m'.taken = none) m := by
  rw [stopTaken]
  refine Prog.obeys_act_bind ⟨hholds, htaken⟩ ?_
  rintro (_ | i) _ rfl
  · exact ⟨hholds, rfl⟩
  · refine Prog.Obeys.mono ?_ (stop_obeys ?_ rfl)
    · rintro _ m' ⟨hholds', htaken', -⟩
      exact ⟨hholds', htaken'⟩
    · exact hholds

theorem attachNotifier_obeys (h : m.holds = false) :
    (attachNotifier (A := A)).Obeys Allows After Released m := by
  rw [attachNotifier]
  refine Prog.obeys_act_bind h ?_
  rintro _ _ rfl
  rw [Prog.obeys_bind]
  refine (stopTaken_obeys rfl rfl).mono ?_
  rintro _ m' ⟨hholds, htaken⟩
  refine Prog.obeys_act_bind hholds ?_
  rintro _ _ rfl
  refine Prog.obeys_act_bind trivial ?_
  rintro (error | enabled) _ rfl
  · refine Prog.obeys_act_bind ⟨hholds, htaken⟩ ?_
    rintro _ _ rfl
    rfl
  · dsimp only
    rw [Prog.obeys_bind]
    refine Prog.Obeys.mono ?_ (sync_obeys hholds htaken)
    intro _ m'' hsynced
    refine Prog.obeys_act_bind ⟨hsynced.holds, hsynced.taken⟩ ?_
    rintro _ _ rfl
    rfl

theorem synced_obeys {saved : Result α} (h : m.holds = false) :
    (synced (A := A) saved).Obeys Allows After Released m := by
  cases saved with
  | error error => exact h
  | ok a =>
    rw [synced, Prog.obeys_bind]
    exact (syncReminders_obeys h).mono fun _ _ hm => hm

theorem activationPermission_obeys (h : m.holds = false) :
    (activationPermission (A := A)).Obeys Allows After Released m := by
  rw [activationPermission]
  refine Prog.obeys_act_bind h ?_
  rintro _ _ rfl
  refine Prog.obeys_act_bind rfl ?_
  rintro attached _ rfl
  refine Prog.obeys_act_bind ⟨rfl, rfl⟩ ?_
  rintro _ _ rfl
  cases attached with
  | false => rfl
  | true =>
    refine Prog.obeys_act_bind trivial ?_
    rintro permission _ rfl
    cases permission with
    | notDetermined => exact ⟨trivial, fun _ _ hm => hm ▸ rfl⟩
    | _ => rfl

theorem enableReminders_obeys {activation : EnableReminders A} (h : m.holds = false) :
    (enableReminders activation).Obeys Allows After Released m := by
  unfold enableReminders
  split
  · exact h
  · refine Prog.obeys_act_bind trivial ?_
    rintro (error | sites) _ rfl
    · exact h
    · dsimp only
      split
      · exact h
      · rw [Prog.obeys_bind]
        refine (activationPermission_obeys h).mono ?_
        intro permission m' hm'
        refine Prog.obeys_act_bind trivial ?_
        rintro saved _ rfl
        exact synced_obeys hm'

theorem LibraryCall.program_obeys (call : LibraryCall A) (h : m.holds = false) :
    call.program.Obeys Allows After Released m := by
  have hwrite : ∀ {α : Type} (e : CallEffect A) (hallow : m.Allows e)
      (hnext : ∀ r, m.next e r = m) (f : CallAnswer e → Result α),
      (do let saved ← request e; synced (f saved) : Call A (Result α)).Obeys Allows After
        Released m := by
    intro α e hallow hnext f
    refine Prog.obeys_act_bind hallow ?_
    rintro r _ rfl
    exact synced_obeys (by rw [hnext]; exact h)
  cases call with
  | attachNotifier =>
    exact Prog.obeys_bind.mpr ((attachNotifier_obeys h).mono fun _ _ hm => hm)
  | saveSite id expected input =>
    refine Prog.obeys_bind.mpr (Prog.Obeys.mono (fun _ _ hm => hm) ?_)
    unfold librarySaveSite
    split
    · exact h
    · exact hwrite (.saveSite id expected input) trivial (fun _ => rfl) (fun r => r)
  | setDefaultSite site expected =>
    exact Prog.obeys_bind.mpr ((hwrite (.setDefaultSite site expected) trivial (fun _ => rfl) (fun r => r)).mono
      fun _ _ hm => hm)
  | enableReminders activation =>
    exact Prog.obeys_bind.mpr ((enableReminders_obeys h).mono fun _ _ hm => hm)
  | disableReminders target expected =>
    exact Prog.obeys_bind.mpr ((hwrite (.disable target expected) trivial (fun _ => rfl) (fun r => r)).mono
      fun _ _ hm => hm)
  | wake i =>
    refine Prog.obeys_bind.mpr ((wake_obeys i).mono ?_)
    rintro _ m' ⟨hm', -⟩
    rw [hm']
    exact h

end Programs

end Handlers

end PlateVault.Reminders
