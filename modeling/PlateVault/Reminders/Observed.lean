import PlateVault.Reminders.System

/-!
# What a task has learned

The answers of a task's turn so far decide which effects it performs next. `Observed` keeps the answers
that matter, and `Observed.Allows` says what they let the task do: block what it read as enabled, claim
a window it computed, submit what it claimed, and end where it read nothing enabled.
-/

namespace PlateVault.Reminders

open Planning

/-- Windows computed from a Target and a site, and the clock reading before them. -/
structure Computed (A : Almanac) where
  target : TargetRecord A.toAstronomy
  site : SavedSite A
  query : WindowQuery A
  windows : WindowSet A
  reading : Option Int

structure Observed (A : Almanac) where
  loaded : Option Word
  read : Option (Result (List (ReminderSubscription A)))
  reading : Option Int
  computed : Option (Computed A)
  claimed : Option WindowKey

section Observers

variable {A : Almanac}

namespace Observed

def initial (A : Almanac) : Observed A := ⟨none, none, none, none, none⟩

def next (m : Observed A) : (e : Effect A) → Answer e → Observed A
  | .load, word => { initial A with loaded := some word }
  | .subscriptions, answer => { m with read := some answer }
  | .now, now => { m with reading := some now }
  | .compute target site query, .ok windows =>
    { m with computed := some ⟨target, site, query, windows, m.reading⟩ }
  | .claim claim, .ok true => { m with claimed := some claim.key }
  | .submit _, _ => { m with claimed := none }
  | _, _ => m

def Sound : (e : Effect A) → Answer e → Prop
  | .compute target site query, .ok windows => computeWindows target site query = .ok windows
  | _, _ => True

/-- Windows of one of the subscriptions a pass read: computed at its site, site revision and criteria
while it was enabled. -/
structure Covers (subscriptions : List (ReminderSubscription A))
    (subscription : ReminderSubscription A) (computed : Computed A) : Prop where
  mem : subscription ∈ subscriptions
  enabled : subscription.state = .enabled
  sound : computeWindows computed.target computed.site computed.query = .ok computed.windows
  target : computed.target.id = subscription.targetId
  site : computed.site.id = subscription.siteId
  siteRevision : computed.site.revision = subscription.siteRevision
  criteria : computed.query.criteria = subscription.criteria

/-- A window due for the subscription when its windows were computed. -/
structure Due (subscription : ReminderSubscription A) (computed : Computed A)
    (window : ObservingWindow A.toAstronomy) : Prop where
  mem : window ∈ computed.windows.windows
  due : ∃ reading, computed.reading = some reading ∧
    window.startUtc - subscription.leadMinutes * minute ≤ reading

/-- The claim of a window that was due, and had not started at the last reading. -/
structure Claims (m : Observed A) (claim : DeliveryClaim A) (subscription : ReminderSubscription A)
    (computed : Computed A) (window : ObservingWindow A.toAstronomy) : Prop where
  read : ∃ subscriptions, m.read = some (.ok subscriptions) ∧
    Covers subscriptions subscription computed
  computed_eq : m.computed = some computed
  due : Due subscription computed window
  claim_eq : claim =
    ⟨window.key, window.endUtc, window.night, window.startUtc - subscription.leadMinutes * minute⟩
  ahead : ∃ reading, m.reading = some reading ∧ reading < window.startUtc

def Allows (m : Observed A) : Effect A → Prop
  | .subscriptions => m.loaded.isSome ∧ m.read = none
  | .compareExchange seen new =>
    m.loaded = some seen ∧ new = seen ||| ended ∧ m.read = some (.ok [])
  | .block target revision _ => ∃ subscriptions, m.read = some (.ok subscriptions) ∧
    ∃ subscription ∈ subscriptions, subscription.state = .enabled ∧
      subscription.targetId = target ∧ subscription.revision = revision
  | .claim claim => ∃ subscription computed window, m.Claims claim subscription computed window
  | .submit notice => m.claimed = some notice.window
  | _ => True

/-- An effect with a sound answer leads from what was known to what is known. -/
def After (m : Observed A) (e : Effect A) (r : Answer e) (m' : Observed A) : Prop :=
  Sound e r ∧ m' = m.next e r

end Observed

/-! ## A turn -/

section Turn

open Observed

theorem computeWindows_basis {target : TargetRecord A.toAstronomy} {site : SavedSite A}
    {query : WindowQuery A} {windows : WindowSet A}
    (h : computeWindows target site query = .ok windows) :
    windows.basis.targetId = target.id ∧ windows.basis.site = site.basis := by
  simp only [computeWindows, Result.bind_eq_ok] at h
  obtain ⟨_, -, _, -, zone, -, h⟩ := h
  cases hposition : position target with
  | error reason =>
    rw [hposition] at h
    cases h
    exact ⟨rfl, rfl⟩
  | ok place =>
    simp only [hposition, Result.bind_eq_ok, Result.pure_eq_ok] at h
    obtain ⟨_, -, _, -, rfl⟩ := h
    exact ⟨rfl, rfl⟩

theorem scheduleQuery_criteria {targetId : Uuid} {site : SavedSite A}
    {criteria : PlanCriteria A.toAstronomy} {now : Int} {query : WindowQuery A}
    (h : scheduleQuery targetId site criteria now = .ok query) : query.criteria = criteria := by
  simp only [scheduleQuery, Result.bind_eq_ok, Result.pure_eq_ok] at h
  obtain ⟨_, -, _, -, rfl⟩ := h
  rfl

variable {subscriptions : List (ReminderSubscription A)} {subscription : ReminderSubscription A}
  {m : Observed A}

theorem remindDue_obeys {schedule : Schedule A} {computed : Computed A}
    (hcovers : Covers subscriptions subscription computed)
    (hlead : schedule.leadMinutes = subscription.leadMinutes)
    {due : List (ObservingWindow A.toAstronomy)}
    (hdue : ∀ window ∈ due, Due subscription computed window)
    (hread : m.read = some (.ok subscriptions)) (hcomputed : m.computed = some computed) :
    (remindDue subscription schedule computed.windows due).Obeys Allows After
      (fun _ m' => m'.read = some (.ok subscriptions)) m := by
  induction due generalizing m with
  | nil => exact hread
  | cons window rest ih =>
    have hrest : ∀ window ∈ rest, Due subscription computed window :=
      fun window hwindow => hdue window (List.mem_cons_of_mem _ hwindow)
    rw [remindDue]
    refine Prog.obeys_act_bind trivial ?_
    rintro (_ | permission) _ ⟨-, rfl⟩
    · exact hread
    · dsimp only
      cases permission.blockReason with
      | some reason =>
        refine Prog.obeys_act_bind
          ⟨subscriptions, hread, subscription, hcovers.mem, hcovers.enabled, rfl, rfl⟩ ?_
        rintro r _ ⟨-, rfl⟩
        exact hread
      | none =>
        refine Prog.obeys_act_bind trivial ?_
        rintro now _ ⟨-, rfl⟩
        split
        · exact ih hrest hread hcomputed
        · next hahead =>
          refine Prog.obeys_act_bind ⟨subscription, computed, window,
            ⟨subscriptions, hread, hcovers⟩, hcomputed, hdue window List.mem_cons_self, ?_, now,
            rfl, not_le.mp hahead⟩ ?_
          · rw [Schedule.lead, hlead]
          · rintro (_ | claimed) _ ⟨-, rfl⟩
            · exact ih hrest hread hcomputed
            · cases claimed with
              | false => exact ih hrest hread hcomputed
              | true =>
                refine Prog.obeys_act_bind rfl ?_
                rintro (_ | outcome) _ ⟨-, rfl⟩
                · exact hread
                · refine Prog.obeys_act_bind trivial ?_
                  rintro r _ ⟨-, rfl⟩
                  exact ih hrest hread hcomputed

def Scheduled (subscription : ReminderSubscription A) (m : Observed A)
    (answer : Result (WindowSet A)) (m' : Observed A) : Prop :=
  m'.read = m.read ∧ ∀ windows, answer = .ok windows → ∃ computed, m'.computed = some computed ∧
    computed.windows = windows ∧ computed.query.criteria = subscription.criteria ∧
    computeWindows computed.target computed.site computed.query = .ok windows ∧
    computed.reading = m.reading

theorem scheduledWindows_obeys {now : Int} :
    (scheduledWindows subscription now).Obeys Allows After (Scheduled subscription m) m := by
  have hfailed : ∀ error : LibraryError, Scheduled subscription m (.error error) m :=
    fun error => ⟨rfl, by rintro windows ⟨⟩⟩
  rw [scheduledWindows]
  refine Prog.obeys_act_bind trivial ?_
  rintro (error | target) _ ⟨-, rfl⟩
  · exact hfailed error
  · refine Prog.obeys_act_bind trivial ?_
    rintro (error | site) _ ⟨-, rfl⟩
    · exact hfailed error
    · dsimp only
      cases hquery : scheduleQuery subscription.targetId site subscription.criteria now with
      | error error => exact hfailed error
      | ok query =>
        refine ⟨trivial, ?_⟩
        rintro (error | windows) _ ⟨hsound, rfl⟩
        · exact hfailed error
        · refine ⟨rfl, ?_⟩
          rintro _ ⟨⟩
          exact ⟨_, rfl, rfl, scheduleQuery_criteria hquery, hsound, rfl⟩

theorem covers_of_due {schedule : Schedule A} {computed : Computed A} {now : Int}
    {window : ObservingWindow A.toAstronomy} (hmem : subscription ∈ subscriptions)
    (hschedule : Schedule.of subscription = some schedule)
    (hsound : computeWindows computed.target computed.site computed.query = .ok computed.windows)
    (hcriteria : computed.query.criteria = subscription.criteria)
    (h : window ∈ schedule.due computed.windows now) :
    Covers subscriptions subscription computed := by
  obtain ⟨htarget, hsite⟩ := computeWindows_basis hsound
  have hcovers : schedule.covers computed.windows = true := by
    have := (List.mem_filter.mp h).2
    simp only [Bool.and_eq_true] at this
    exact this.1.1
  unfold Schedule.of at hschedule
  split at hschedule
  · next henabled =>
    cases hschedule
    simp only [Schedule.covers, Bool.and_eq_true, decide_eq_true_eq, htarget, hsite] at hcovers
    obtain ⟨⟨⟨⟨-, hid⟩, hsiteId⟩, hrevision⟩, -⟩ := hcovers
    exact ⟨hmem, henabled, hsound, hid, hsiteId, hrevision, hcriteria⟩
  · cases hschedule

theorem due_of_mem {schedule : Schedule A} {computed : Computed A} {now : Int}
    (hschedule : Schedule.of subscription = some schedule) (hreading : computed.reading = some now)
    {window : ObservingWindow A.toAstronomy} (h : window ∈ schedule.due computed.windows now) :
    Due subscription computed window := by
  unfold Schedule.of at hschedule
  split at hschedule
  · cases hschedule
    obtain ⟨hmem, hdue⟩ := List.mem_filter.mp h
    simp only [Bool.and_eq_true, decide_eq_true_eq] at hdue
    exact ⟨hmem, now, hreading, hdue.1.2⟩
  · cases hschedule

theorem remind_obeys {computed : Computed A} {now : Int} (hmem : subscription ∈ subscriptions)
    (hread : m.read = some (.ok subscriptions)) (hcomputed : m.computed = some computed)
    (hsound : computeWindows computed.target computed.site computed.query = .ok computed.windows)
    (hcriteria : computed.query.criteria = subscription.criteria)
    (hreading : computed.reading = some now) :
    (remind subscription computed.windows now).Obeys Allows After
      (fun _ m' => m'.read = some (.ok subscriptions)) m := by
  unfold remind
  cases hschedule : Schedule.of subscription with
  | none => exact hread
  | some schedule =>
    have hlead : schedule.leadMinutes = subscription.leadMinutes := by
      unfold Schedule.of at hschedule
      split at hschedule <;> cases hschedule
      rfl
    dsimp only
    cases hdue : schedule.due computed.windows now with
    | nil => exact hread
    | cons window rest =>
      have hcovers : Covers subscriptions subscription computed :=
        covers_of_due hmem hschedule hsound hcriteria (hdue ▸ List.mem_cons_self)
      refine remindDue_obeys hcovers hlead ?_ hread hcomputed
      intro window hwindow
      exact due_of_mem hschedule hreading (hdue ▸ hwindow)

theorem passOver_obeys {rest : List (ReminderSubscription A)} {nextDue : Option Int}
    {blocked : Bool} (hrest : ∀ subscription ∈ rest, subscription ∈ subscriptions)
    (hread : m.read = some (.ok subscriptions)) :
    (passOver rest nextDue blocked).Obeys Allows After
      (fun answer m' => m'.read = some (.ok subscriptions) ∧ answer ≠ .ok .idle) m := by
  induction rest generalizing nextDue blocked m with
  | nil =>
    refine ⟨hread, ?_⟩
    cases blocked <;> rintro ⟨⟩
  | cons subscription rest ih =>
    have hback : ∀ subscription ∈ rest, subscription ∈ subscriptions :=
      fun subscription hmem => hrest subscription (List.mem_cons_of_mem _ hmem)
    rw [passOver]
    refine Prog.obeys_act_bind trivial ?_
    rintro stopped _ ⟨-, rfl⟩
    split
    · exact ⟨hread, by rintro ⟨⟩⟩
    · refine Prog.obeys_act_bind trivial ?_
      rintro now _ ⟨-, rfl⟩
      rw [Prog.obeys_bind]
      refine scheduledWindows_obeys.mono ?_
      rintro (error | windows) m' ⟨hread', hwindows⟩
      · exact ih hback (hread'.trans hread)
      · obtain ⟨computed, hcomputed, rfl, hcriteria, hsound, hreading⟩ := hwindows windows rfl
        dsimp only
        rw [Prog.obeys_bind]
        refine (remind_obeys (hrest subscription List.mem_cons_self) (hread'.trans hread) hcomputed
          hsound hcriteria hreading).mono ?_
        rintro (stop | reminded) m'' hread''
        · exact ⟨hread'', by rintro ⟨⟩⟩
        · refine Prog.obeys_act_bind trivial ?_
          rintro later _ ⟨-, rfl⟩
          exact ih hback hread''

theorem pass_obeys (hloaded : m.loaded.isSome) (hread : m.read = none) :
    (pass (A := A)).Obeys Allows After
      (fun answer m' => answer = .ok .idle → m'.loaded = m.loaded ∧ m'.read = some (.ok [])) m := by
  rw [pass]
  refine Prog.obeys_act_bind ⟨hloaded, hread⟩ ?_
  rintro (error | subscriptions) _ ⟨-, rfl⟩
  · rintro ⟨⟩
  · cases subscriptions with
    | nil => exact fun _ => ⟨rfl, rfl⟩
    | cons subscription rest =>
      refine (passOver_obeys (fun _ h => h) rfl).mono ?_
      rintro answer m' ⟨-, hidle⟩ h
      exact absurd h hidle

theorem delay_obeys {nextDue : Option Int} :
    (delay nextDue).Obeys Allows After (fun _ _ => True) m := by
  cases nextDue with
  | none => trivial
  | some due => exact ⟨trivial, fun _ _ _ => trivial⟩

theorem turn_obeys (m : Observed A) : (turn A).Obeys Allows After (fun _ _ => True) m := by
  rw [turn]
  refine Prog.obeys_act_bind trivial ?_
  rintro seen _ ⟨-, rfl⟩
  rw [Prog.obeys_bind]
  refine (pass_obeys rfl rfl).mono ?_
  rintro (stop | found) m' hidle
  · trivial
  · cases found with
    | idle =>
      obtain ⟨hloaded, hread⟩ := hidle rfl
      exact Prog.obeys_act_bind ⟨hloaded, rfl, hread⟩ fun _ _ _ => trivial
    | blocked => trivial
    | wait nextDue =>
      dsimp only
      rw [Prog.obeys_bind]
      refine delay_obeys.mono fun delay m'' _ => ?_
      refine Prog.obeys_act_bind trivial ?_
      rintro woken _ ⟨-, rfl⟩
      cases woken <;> trivial

end Turn

/-! ## Runs -/

section Followed

namespace Observed

/-- What task `i` knows after a step of the system. -/
def follow (i : Nat) (m : Observed A) : Label A → Observed A
  | .task j e r => if j = i then m.next e r else m
  | _ => m

/-- What task `i` knows after a run. -/
def along (i : Nat) (ls : List (Label A)) : Observed A := ls.foldl (follow i) (initial A)

@[simp] theorem along_append (i : Nat) (ls : List (Label A)) (l : Label A) :
    along i (ls ++ [l]) = (along i ls).follow i l := by
  simp [along, List.foldl_append]

@[simp] theorem follow_own (i : Nat) (m : Observed A) (e : Effect A) (r : Answer e) :
    m.follow i (.task i e r) = m.next e r := if_pos rfl

theorem follow_other {i j : Nat} (h : j ≠ i) (m : Observed A) (e : Effect A) (r : Answer e) :
    m.follow i (.task j e r) = m := if_neg h

end Observed

open Observed

@[simp] theorem setTask_tasks (s : System A) (i : Nat) (task : Scheduler A) (j : Nat) :
    (s.setTask i task).tasks j = if j = i then task else s.tasks j := by
  simp [System.setTask, Function.update_apply]

@[simp] theorem setCall_tasks (s : System A) (c : Nat) (program : Call A Unit) :
    (s.setCall c program).tasks = s.tasks := rfl

theorem setProgram_program (s : System A) (i : Nat) (program : Option (Task A Flow)) (j : Nat) :
    ((s.setProgram i program).tasks j).program =
      if j = i then program else (s.tasks j).program := by
  simp only [System.setProgram, setTask_tasks]
  split <;> rfl

inductive Commits : (e : CallEffect A) → CallAnswer e → Tables A → Tables A → Prop
  | saveSite {t t' : Tables A} {id : Option Uuid} {expected : Option Nat} {input : SiteInput A}
      {fresh : Uuid} {saved : SiteSaved A} (hfresh : t.sites.find? fresh = none)
      (h : Reminders.saveSite id expected input fresh t = .ok (saved, t')) :
      Commits (.saveSite id expected input) (.ok saved) t t'
  | setDefaultSite {t t' : Tables A} {site : Option Uuid} {expected : Nat}
      {saved : DefaultSiteSaved} (h : Reminders.setDefaultSite site expected t = .ok (saved, t')) :
      Commits (.setDefaultSite site expected) (.ok saved) t t'
  | putReminderSubscription {t t' : Tables A} {write : SubscriptionWrite A} {now : Int}
      {subscription : ReminderSubscription A}
      (h : Reminders.putReminderSubscription write now t = .ok (subscription, t')) :
      Commits (.putReminderSubscription write) (.ok subscription) t t'
  | disable {t t' : Tables A} {target : Uuid} {expected : Nat}
      {subscription : ReminderSubscription A}
      (h : setSubscriptionState target expected .disabled none t = .ok (subscription, t')) :
      Commits (.disable target expected) (.ok subscription) t t'

theorem CallPerforms.cases {s s' : System A} {c : Nat} {e : CallEffect A} {r : CallAnswer e}
    (h : CallPerforms s c e r s') :
    (∃ runtime, s' = { s with runtime }) ∨
      (∃ i task, task.program = (s.tasks i).program ∧ s' = s.setTask i task) ∨
      s' = { s.setTask s.spawned (spawnedTask A) with
        spawned := s.spawned + 1, runtime := { s.runtime with taken := some s.spawned } } ∨
      ∃ t, Commits e r s.tables t ∧ s' = { s with tables := t } := by
  have hsame : s' = s → ∃ runtime, s' = { s with runtime } := fun hs => ⟨s.runtime, hs⟩
  cases e with
  | lock | unlock | attach | keepScheduler _ => exact .inl ⟨_, h.2⟩
  | takeScheduler | join _ => exact .inl ⟨_, h.2.2⟩
  | attached | hasScheduler => exact .inl (hsame h.2.2)
  | isFinished _ | anyEnabled | listSites => exact .inl (hsame h.2)
  | permission | requestPermission => exact .inl (hsame h)
  | spawn =>
    obtain ⟨-, rfl, rfl⟩ := h
    exact .inr (.inr (.inl rfl))
  | count i =>
    obtain ⟨-, rfl⟩ := h
    split
    · exact .inr (.inl ⟨i, _, by rfl, rfl⟩)
    · exact .inl ⟨s.runtime, rfl⟩
  | notify i => exact .inr (.inl ⟨i, _, by rfl, h⟩)
  | sendStop i => exact .inr (.inl ⟨i, _, by rfl, h.2.2⟩)
  | saveSite _ _ _ =>
    obtain ⟨fresh, hfresh, ⟨_, t, hwrite, rfl, rfl⟩ | ⟨-, rfl⟩⟩ := h
    · exact .inr (.inr (.inr ⟨t, .saveSite hfresh hwrite, rfl⟩))
    · exact .inl (hsame rfl)
  | setDefaultSite _ _ =>
    obtain ⟨_, t, hwrite, rfl, rfl⟩ | ⟨-, rfl⟩ := h
    · exact .inr (.inr (.inr ⟨t, .setDefaultSite hwrite, rfl⟩))
    · exact .inl (hsame rfl)
  | putReminderSubscription _ =>
    obtain ⟨_, ⟨_, t, hwrite, rfl, rfl⟩ | ⟨-, rfl⟩⟩ := h
    · exact .inr (.inr (.inr ⟨t, .putReminderSubscription hwrite, rfl⟩))
    · exact .inl (hsame rfl)
  | disable _ _ =>
    obtain ⟨_, t, hwrite, rfl, rfl⟩ | ⟨-, rfl⟩ := h
    · exact .inr (.inr (.inr ⟨t, .disable hwrite, rfl⟩))
    · exact .inl (hsame rfl)

def wordAfter (word : Word) : (e : Effect A) → Answer e → Word
  | .compareExchange _ new, true => new
  | _, _ => word

theorem Performs.cases {s s' : System A} {i : Nat} {e : Effect A} {r : Answer e}
    (h : Performs s i e r s') :
    ∃ task tables, s' = { s.setTask i task with tables } ∧
      task.word = wordAfter (s.tasks i).word e r ∧ task.stop = (s.tasks i).stop ∧
      task.program = (s.tasks i).program := by
  have hself : s.setTask i (s.tasks i) = s := by simp [System.setTask]
  have htables : ∀ tables, s' = { s with tables } → wordAfter (s.tasks i).word e r =
      (s.tasks i).word → ∃ task tables, s' = { s.setTask i task with tables } ∧
        task.word = wordAfter (s.tasks i).word e r ∧ task.stop = (s.tasks i).stop ∧
        task.program = (s.tasks i).program := by
    rintro tables rfl hword
    exact ⟨s.tasks i, tables, by rw [hself], hword.symm, rfl, rfl⟩
  cases e with
  | compareExchange seen new =>
    obtain ⟨-, rfl⟩ := h
    cases r with
    | false => exact htables s.tables rfl rfl
    | true => exact ⟨{ s.tasks i with word := new }, s.tables, rfl, rfl, rfl, rfl⟩
  | wait delay =>
    cases r with
    | slept => exact htables s.tables h rfl
    | notified => exact ⟨_, s.tables, h.2, rfl, rfl, rfl⟩
    | stopped => exact htables s.tables h.2 rfl
  | block _ _ _ | claim _ | finish _ _ =>
    obtain ⟨_, tables, -, -, hs⟩ | ⟨-, hs⟩ := h
    · exact htables tables hs rfl
    · exact htables s.tables hs rfl
  | load | stopRequested | now | subscriptions | target _ | site _ | compute _ _ _ | permission
  | submit _ => exact htables s.tables h.2 rfl

theorem Performs.program {s s' : System A} {i : Nat} {e : Effect A} {r : Answer e}
    (h : Performs s i e r s') (j : Nat) : (s'.tasks j).program = (s.tasks j).program := by
  obtain ⟨task, _, rfl, -, -, hprogram⟩ := h.cases
  simp only [setTask_tasks]
  split
  · next hj => rw [hj, hprogram]
  · rfl

theorem Performs.sound {s s' : System A} {i : Nat} {e : Effect A} {r : Answer e}
    (h : Performs s i e r s') : Sound e r := by
  cases e with
  | compute target site query =>
    cases r with
    | error error => trivial
    | ok windows =>
      obtain ⟨hread | ⟨_, ⟨⟩⟩, -⟩ := h
      exact hread.symm
  | _ => trivial

theorem CallPerforms.program {s s' : System A} {c : Nat} {e : CallEffect A} {r : CallAnswer e}
    (h : CallPerforms s c e r s') (j : Nat) :
    (s'.tasks j).program = (s.tasks j).program ∨ (s'.tasks j).program = some (turn A) := by
  obtain ⟨_, rfl⟩ | ⟨i, task, htask, rfl⟩ | rfl | ⟨_, -, rfl⟩ := h.cases
  · exact .inl rfl
  · left
    rw [setTask_tasks]
    split
    · next hj => rw [hj, htask]
    · rfl
  · simp only [setTask_tasks]
    split
    · exact .inr rfl
    · exact .inl rfl
  · exact .inl rfl

def Followed (ls : List (Label A)) (s : System A) : Prop :=
  ∀ i p, (s.tasks i).program = some p → p.Obeys Allows After (fun _ _ => True) (along i ls)

theorem settle_obeys {p q : Task A Flow} {m : Observed A}
    (h : p.Obeys Allows After (fun _ _ => True) m) (hq : settle p = some q) :
    q.Obeys Allows After (fun _ _ => True) m := by
  unfold settle at hq
  split at hq
  · cases hq
    exact turn_obeys m
  · cases hq
  · cases hq
    exact h

/-- A step that leaves a task's program as it is, or sets it to a turn, and is not the task's own. -/
theorem followed_of_program {ls : List (Label A)} {l : Label A} {s s' : System A}
    (h : Followed ls s) (hl : ∀ i (m : Observed A), m.follow i l = m)
    (hprogram : ∀ i, (s'.tasks i).program = (s.tasks i).program ∨
      (s'.tasks i).program = some (turn A) ∨ (s'.tasks i).program = none) :
    Followed (ls ++ [l]) s' := by
  intro i p hp
  rw [along_append, hl]
  rcases hprogram i with hsame | hturn | hnone
  · exact h i p (hsame ▸ hp)
  · cases hturn.symm.trans hp
    exact turn_obeys _
  · cases hnone.symm.trans hp

theorem cancelled_program (s : System A) (c i : Nat) :
    ((s.cancelled c).tasks i).program = (s.tasks i).program := by
  unfold System.cancelled
  dsimp only
  split
  · split
    · rw [setTask_tasks]
      split
      · next hi => rw [hi]; rfl
      · rfl
    · rfl
  · rfl

theorem followed_step {ls : List (Label A)} {s s' : System A} {l : Label A} (h : Followed ls s)
    (hstep : Step s l s') : Followed (ls ++ [l]) s' := by
  cases hstep with
  | @task s' j e next r hprogram hperforms =>
    intro i p hp
    rw [setProgram_program] at hp
    rw [along_append]
    split at hp
    · next hi =>
      subst hi
      rw [follow_own]
      obtain ⟨-, hnext⟩ := h i _ hprogram
      exact settle_obeys (hnext r _ ⟨hperforms.sound, rfl⟩) hp
    · next hi =>
      rw [follow_other (Ne.symm hi)]
      exact h i p (hperforms.program i ▸ hp)
  | call hprogram hperforms =>
    exact followed_of_program h (fun _ _ => rfl) fun i => (hperforms.program i).imp_right .inl
  | cancel c => exact followed_of_program h (fun _ _ => rfl) fun i => .inl (cancelled_program s c i)
  | panicked j =>
    refine followed_of_program h (fun _ _ => rfl) fun i => ?_
    rw [setProgram_program]
    split
    · exact .inr (.inr rfl)
    · exact .inl rfl
  | crash => exact followed_of_program h (fun _ _ => rfl) fun _ => .inr (.inr rfl)
  | begin | reopen | tick | saveTarget =>
    exact followed_of_program h (fun _ _ => rfl) fun _ => .inl rfl

theorem followed_init : Followed [] (System.init A) := by
  rintro i p ⟨⟩

theorem followed_of_run {ls : List (Label A)} {s : System A} (h : Run Step (System.init A) ls s) :
    Followed ls s :=
  h.traced (fun _ _ _ _ => followed_step) followed_init

theorem Followed.allows {ls : List (Label A)} {s s' : System A} {i : Nat} {e : Effect A}
    {r : Answer e} (h : Followed ls s) (hstep : Step s (.task i e r) s') :
    (along i ls).Allows e := by
  cases hstep with
  | task hprogram _ => exact (h i _ hprogram).1

end Followed

end Observers

end PlateVault.Reminders
