import PlateVault.Reminders.System

/-!
# Steps that can be taken

Every effect of a task has an answer in every state, one no stop and no failure came before. An effect
of a call has one unless it waits for the mutex or for a task. So a schedule, which says who moves
next, determines a run.
-/

namespace PlateVault.Reminders

open Planning

section Progress

variable {A : Almanac}

def System.writing {α : Type} (s : System A) (write : Tables A → Result (α × Tables A)) :
    Result α × System A :=
  match write s.tables with
  | .ok (a, tables) => (.ok a, { s with tables })
  | .error error => (.error error, s)

theorem wrote_writing {α : Type} (s : System A) (write : Tables A → Result (α × Tables A)) :
    Wrote write s (s.writing write).1 (s.writing write).2 := by
  unfold System.writing
  cases hwrite : write s.tables with
  | ok out => exact .inl ⟨out.1, out.2, hwrite, rfl, rfl⟩
  | error error => exact .inr ⟨⟨error, rfl⟩, rfl⟩

/-- The answer of a task's effect that no stop came before and the catalog did not fail. -/
def System.answer (s : System A) (i : Nat) : (e : Effect A) → Answer e × System A
  | .load => ((s.tasks i).word, s)
  | .compareExchange seen new =>
    (decide ((s.tasks i).word = seen),
      if decide ((s.tasks i).word = seen) then s.setTask i { s.tasks i with word := new } else s)
  | .wait _ => (.slept, s)
  | .stopRequested => ((s.tasks i).stop, s)
  | .now => (s.wall, s)
  | .subscriptions => (.ok (s.tables.reminderSubscriptions (some .enabled)), s)
  | .target id => (s.tables.loadTarget id, s)
  | .site id => (s.tables.loadSite id, s)
  | .compute target site query => (computeWindows target site query, s)
  | .permission => (some .granted, s)
  | .block target revision reason =>
    s.writing (setSubscriptionState target revision .blocked (some reason))
  | .claim claim => s.writing (claimReminderDelivery claim)
  | .submit _ => (some .submitted, s)
  | .finish key outcome => s.writing (finishReminderDelivery key outcome)

theorem performs_answer (s : System A) (i : Nat) (e : Effect A) :
    Performs s i e (s.answer i e).1 (s.answer i e).2 := by
  cases e with
  | load | stopRequested | now => exact ⟨rfl, rfl⟩
  | compareExchange => exact ⟨rfl, rfl⟩
  | wait => exact rfl
  | subscriptions | target _ | site _ | compute _ _ _ => exact ⟨.inl rfl, rfl⟩
  | permission | submit _ => exact ⟨by rintro ⟨⟩, rfl⟩
  | block _ _ _ | claim _ | finish _ _ => exact wrote_writing _ _

def onlyIf {α : Type} (p : Prop) [Decidable p] (a : α) : Option α := if p then some a else none

theorem onlyIf_eq_some {α : Type} {p : Prop} [Decidable p] {a b : α} (h : onlyIf p a = some b) :
    p ∧ a = b := by
  unfold onlyIf at h
  split at h
  · next hp => exact ⟨hp, Option.some.inj h⟩
  · cases h

/-- The answer of a call's effect, a new site under the id `fresh`; none where the call waits. -/
def System.callAnswer (s : System A) (c : Nat) (fresh : Uuid) :
    (e : CallEffect A) → Option (CallAnswer e × System A)
  | .lock =>
    onlyIf (s.runtime.holder = none) ((), { s with runtime := { s.runtime with holder := some c } })
  | .unlock =>
    onlyIf (s.runtime.holder = some c) ((), { s with runtime := { s.runtime with holder := none } })
  | .attached => onlyIf (s.runtime.holder = some c) (s.runtime.attached, s)
  | .attach =>
    onlyIf (s.runtime.holder = some c) ((), { s with runtime := { s.runtime with attached := true } })
  | .hasScheduler => onlyIf (s.runtime.holder = some c) (s.runtime.scheduler.isSome, s)
  | .takeScheduler =>
    onlyIf (s.runtime.holder = some c) (s.runtime.scheduler,
      { s with runtime := { s.runtime with scheduler := none, taken := s.runtime.scheduler } })
  | .keepScheduler i =>
    onlyIf (s.runtime.holder = some c)
      ((), { s with runtime := { s.runtime with scheduler := some i, taken := none } })
  | .spawn =>
    onlyIf (s.runtime.holder = some c) (s.spawned,
      { s.setTask s.spawned (spawnedTask A) with
        spawned := s.spawned + 1, runtime := { s.runtime with taken := some s.spawned } })
  | .count i =>
    some (decide ((s.tasks i).word &&& ended = 0),
      if decide ((s.tasks i).word &&& ended = 0) then
        s.setTask i { s.tasks i with word := (s.tasks i).word + oneWake }
      else s)
  | .notify i => some ((), s.setTask i { s.tasks i with permit := true })
  | .isFinished i => some ((s.tasks i).program.isNone, s)
  | .sendStop i =>
    onlyIf (s.runtime.holder = some c ∧ s.runtime.taken = some i)
      ((), s.setTask i { s.tasks i with stop := true })
  | .join i =>
    onlyIf (s.runtime.holder = some c ∧ (s.tasks i).program.isNone)
      ((), { s with runtime := { s.runtime with taken := none } })
  | .anyEnabled => some (.ok !(s.tables.reminderSubscriptions (some .enabled)).isEmpty, s)
  | .listSites =>
    some (.ok ⟨Ordered.sortBy (fun site => toLex (site.name, site.id)) s.tables.sites.rows,
      s.tables.settings.defaultSiteId, s.tables.settings.revision⟩, s)
  | .saveSite id expected input =>
    onlyIf (s.tables.sites.find? fresh).isNone (s.writing (saveSite id expected input fresh))
  | .setDefaultSite site expected => some (s.writing (setDefaultSite site expected))
  | .putReminderSubscription write => some (s.writing (putReminderSubscription write s.wall))
  | .disable target expected =>
    some (s.writing (setSubscriptionState target expected .disabled none))
  | .permission => some (.granted, s)
  | .requestPermission => some (.granted, s)

theorem callPerforms_answer {s s' : System A} {c : Nat} {fresh : Uuid} {e : CallEffect A}
    {r : CallAnswer e} (h : s.callAnswer c fresh e = some (r, s')) : CallPerforms s c e r s' := by
  cases e with
  | lock | unlock | attach | keepScheduler _ =>
    obtain ⟨hholds, h⟩ := onlyIf_eq_some h
    cases h
    exact ⟨hholds, rfl⟩
  | attached | hasScheduler | takeScheduler | spawn =>
    obtain ⟨hholds, h⟩ := onlyIf_eq_some h
    cases h
    exact ⟨hholds, rfl, rfl⟩
  | sendStop _ =>
    obtain ⟨hholds, h⟩ := onlyIf_eq_some h
    cases h
    exact ⟨hholds.1, hholds.2, rfl⟩
  | join _ =>
    obtain ⟨hholds, h⟩ := onlyIf_eq_some h
    cases h
    exact ⟨hholds.1, Option.isNone_iff_eq_none.mp hholds.2, rfl⟩
  | count _ | isFinished _ =>
    cases h
    exact ⟨rfl, rfl⟩
  | notify _ | permission | requestPermission =>
    cases h
    exact rfl
  | anyEnabled | listSites =>
    cases h
    exact ⟨.inl rfl, rfl⟩
  | saveSite _ _ _ =>
    obtain ⟨hfresh, h⟩ := onlyIf_eq_some h
    obtain ⟨rfl, rfl⟩ := Prod.mk.inj h.symm
    exact ⟨fresh, Option.isNone_iff_eq_none.mp hfresh, wrote_writing _ _⟩
  | putReminderSubscription _ =>
    obtain ⟨rfl, rfl⟩ := Prod.mk.inj (Option.some.inj h).symm
    exact ⟨s.wall, wrote_writing _ _⟩
  | setDefaultSite _ _ | disable _ _ =>
    obtain ⟨rfl, rfl⟩ := Prod.mk.inj (Option.some.inj h).symm
    exact wrote_writing _ _

/-! ## Schedules -/

inductive Move (A : Almanac)
  | task (i : Nat)
  | call (c : Nat) (fresh : Uuid)
  | begin (c : Nat) (call : LibraryCall A)
  | tick (wall : Int)
  | saveTarget (target : TargetRecord A.toAstronomy)

def System.taskMove (s : System A) (i : Nat) : Option (Label A × System A) :=
  match (s.tasks i).program with
  | some (.perform e next) =>
    some (.task i e (s.answer i e).1,
      (s.answer i e).2.setProgram i (settle (next (s.answer i e).1)))
  | _ => none

theorem step_of_taskMove {s s' : System A} {i : Nat} {l : Label A}
    (h : s.taskMove i = some (l, s')) : Step s l s' := by
  unfold System.taskMove at h
  split at h
  · next e next hprogram =>
    cases h
    exact .task hprogram (performs_answer s i e)
  · cases h

def System.callMove (s : System A) (c : Nat) (fresh : Uuid) : Option (Label A × System A) :=
  match s.calls c with
  | some (.perform e next) =>
    (s.callAnswer c fresh e).map fun out => (.call c e out.1, out.2.setCall c (next out.1))
  | _ => none

theorem step_of_callMove {s s' : System A} {c : Nat} {fresh : Uuid} {l : Label A}
    (h : s.callMove c fresh = some (l, s')) : Step s l s' := by
  unfold System.callMove at h
  split at h
  · next e next hprogram =>
    obtain ⟨⟨r, s₁⟩, hanswer, h⟩ := Option.map_eq_some_iff.mp h
    cases h
    exact .call hprogram (callPerforms_answer hanswer)
  · cases h

/-- The step of a move; none where who should move waits or is done. -/
def System.move (s : System A) : Move A → Option (Label A × System A)
  | .task i => s.taskMove i
  | .call c fresh => s.callMove c fresh
  | .begin c call => onlyIf (s.calls c).isNone (.begin c call, s.setCall c call.program)
  | .tick wall => some (.tick wall, { s with wall })
  | .saveTarget target =>
    some (.saveTarget target, { s with tables := { s.tables with
      targets := Function.update s.tables.targets target.id (some target) } })

theorem step_of_move {s s' : System A} {m : Move A} {l : Label A} (h : s.move m = some (l, s')) :
    Step s l s' := by
  cases m with
  | task i => exact step_of_taskMove h
  | call c fresh => exact step_of_callMove h
  | begin c call =>
    obtain ⟨hnew, h⟩ := onlyIf_eq_some h
    cases h
    exact .begin s c call (Option.isNone_iff_eq_none.mp hnew)
  | tick wall =>
    cases h
    exact .tick s wall
  | saveTarget target =>
    cases h
    exact .saveTarget s target

def System.play (s : System A) : List (Move A) → List (Label A) × System A
  | [] => ([], s)
  | m :: moves =>
    match s.move m with
    | some (l, s') => ((l :: (s'.play moves).1), (s'.play moves).2)
    | none => s.play moves

theorem run_of_play (s : System A) (moves : List (Move A)) :
    Run Step s (s.play moves).1 (s.play moves).2 := by
  induction moves generalizing s with
  | nil => exact .nil s
  | cons m moves ih =>
    unfold System.play
    split
    · next hmove => exact .cons (step_of_move hmove) (ih _)
    · exact ih s

end Progress

end PlateVault.Reminders
