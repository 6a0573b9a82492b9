import PlateVault.Reminders.Once

/-!
# Claims on the schedule

A claim checks again only that the subscription is enabled at the site. The pass took the criteria, the
lead time and the clock before several awaits, so another activation, or the clock, may have come
between. Where none did, the claim is on the schedule of the subscription as it is at the claim.
-/

namespace PlateVault.Reminders

open Planning Observed

section OnSchedule

variable {A : Almanac} {t t' : Tables A} {ls : List (Label A)} {l : Label A} {s s' : System A}
  {c : Nat} {e : CallEffect A} {r : CallAnswer e}

/-! ## Windows -/

theorem planNight_mem {sky : Planning.Sky A.toAstronomy} {zone : A.Zone} {target : TargetRecord A.toAstronomy}
    {site : ObservingSite A.toAstronomy} {spans : NightSpans A.toAstronomy}
    {plan : NightPlan A.toAstronomy} (h : planNight sky zone target site spans = .ok plan)
    {window : ObservingWindow A.toAstronomy} (hmem : window ∈ plan.windows) :
    window.key = ⟨target.id, site.id, window.startUtc⟩ := by
  simp only [planNight, Result.bind_eq_ok, Result.pure_eq_ok] at h
  obtain ⟨windows, hwindows, rfl⟩ := h
  obtain ⟨span, -, hspan⟩ := Result.mem_mapM hwindows (List.reduceOption_mem_iff.mp hmem)
  unfold planWindow at hspan
  split at hspan
  · cases hspan
  · split at hspan
    · cases hspan
    · simp only [Result.bind_eq_ok, Result.pure_eq_ok] at hspan
      obtain ⟨key, hkey, _, -, _, -, hwindow⟩ := hspan
      cases hwindow
      unfold WindowKey.new at hkey
      split at hkey
      · cases hkey
      · cases hkey
        rfl

theorem planNights_mem {sky : Planning.Sky A.toAstronomy} {zone : A.Zone}
    {target : TargetRecord A.toAstronomy} {site : SavedSite A} {nights : Nat} {night : A.Date}
    {plans : List (NightPlan A.toAstronomy)}
    (h : planNights sky zone target site nights night = .ok plans)
    {plan : NightPlan A.toAstronomy} (hplan : plan ∈ plans)
    {window : ObservingWindow A.toAstronomy} (hmem : window ∈ plan.windows) :
    window.key = ⟨target.id, site.id, window.startUtc⟩ := by
  induction nights generalizing night plans with
  | zero =>
    cases h
    cases hplan
  | succ nights ih =>
    unfold planNights at h
    simp only [Result.bind_eq_ok] at h
    obtain ⟨context, -, first, hfirst, h⟩ := h
    cases nights with
    | zero =>
      cases h
      rw [List.mem_singleton.mp hplan] at hmem
      exact planNight_mem hfirst hmem
    | succ nights =>
      simp only [Result.bind_eq_ok, Result.pure_eq_ok] at h
      obtain ⟨next, -, rest, hrest, rfl⟩ := h
      rcases List.mem_cons.mp hplan with rfl | hplan
      · exact planNight_mem hfirst hmem
      · exact ih hrest hplan

theorem computeWindows_mem {target : TargetRecord A.toAstronomy} {site : SavedSite A}
    {query : WindowQuery A} {windows : WindowSet A}
    (h : computeWindows target site query = .ok windows)
    {window : ObservingWindow A.toAstronomy} (hmem : window ∈ windows.windows) :
    window.key = ⟨target.id, site.id, window.startUtc⟩ := by
  simp only [computeWindows, Result.bind_eq_ok] at h
  obtain ⟨_, -, _, -, zone, -, h⟩ := h
  cases hposition : position target with
  | error reason =>
    rw [hposition] at h
    cases h
    cases hmem
  | ok place =>
    simp only [hposition, Result.bind_eq_ok, Result.pure_eq_ok] at h
    obtain ⟨_, -, nights, hnights, rfl⟩ := h
    obtain ⟨plan, hplan, hwindow⟩ := List.mem_flatMap.mp hmem
    exact planNights_mem hnights hplan hwindow

/-! ## What a subscription schedules by -/

def ReminderSubscription.values (subscription : ReminderSubscription A) : Schedule A :=
  ⟨subscription.targetId, subscription.siteId, subscription.siteRevision, subscription.criteria,
    subscription.leadMinutes⟩

def SubscriptionWrite.values (write : SubscriptionWrite A) : Schedule A :=
  ⟨write.targetId, write.siteId, write.siteRevision, write.criteria, write.leadMinutes⟩

def KeepsValues (t t' : Tables A) : Prop :=
  ∀ id row, t.subscriptions.find? id = some row →
    ∃ row', t'.subscriptions.find? id = some row' ∧ row'.values = row.values

theorem keepsValues_of_subscriptions (h : t'.subscriptions = t.subscriptions) :
    KeepsValues t t' :=
  fun _ row hrow => ⟨row, h ▸ hrow, rfl⟩

theorem keepsValues_of_reconfirm {scope : Reconfirm}
    (h : t'.subscriptions = t.subscriptions.updateWhere scope.moves
      ReminderSubscription.reconfirmed fun _ => rfl) : KeepsValues t t' := by
  intro id row hrow
  have hfind : t'.subscriptions.find? id = (t.subscriptions.find? id).map fun subscription =>
      if scope.moves subscription then subscription.reconfirmed else subscription := by
    rw [h]
    exact Table.find?_updateWhere _ _ _ _ id
  rw [hfind, hrow]
  refine ⟨_, rfl, ?_⟩
  dsimp only
  split <;> rfl

theorem setSubscriptionState_keepsValues {target : Uuid} {expected : Nat}
    {state : SubscriptionState} {reason : Option BlockReason}
    {subscription : ReminderSubscription A}
    (h : setSubscriptionState target expected state reason t = .ok (subscription, t')) :
    KeepsValues t t' := by
  obtain ⟨-, -, rfl⟩ := setSubscriptionState_eq_ok h
  intro id row hrow
  have hfind : (t.subscriptions.modify target (.moved state reason (expected + 1))
      fun _ => rfl).find? id = if id = target then
        (t.subscriptions.find? target).map (.moved state reason (expected + 1))
      else t.subscriptions.find? id := Table.find?_modify _ _ _ _ id
  rw [hfind]
  split
  · next hid =>
    rw [← hid, hrow]
    exact ⟨_, rfl, rfl⟩
  · exact ⟨row, hrow, rfl⟩

theorem Touches.keepsValues (h : Touches l t t')
    (hl : ∀ c write subscription, l ≠ .call c (.putReminderSubscription write) (.ok subscription)) :
    KeepsValues t t' := by
  cases h with
  | same h => exact keepsValues_of_subscriptions (h ▸ rfl)
  | commits c e r hcall h =>
    cases h with
    | saveSite _ h =>
      obtain ⟨hsame | ⟨scope, hmoved⟩, -⟩ := saveSite_subscriptions h
      · exact keepsValues_of_subscriptions hsame
      · exact keepsValues_of_reconfirm hmoved
    | setDefaultSite h =>
      obtain ⟨_, rfl⟩ := setDefaultSite_eq_ok h
      exact keepsValues_of_reconfirm rfl
    | putReminderSubscription _ => exact absurd hcall (hl c _ _)
    | disable h => exact setSubscriptionState_keepsValues h
  | block _ _ _ _ _ _ h => exact setSubscriptionState_keepsValues h
  | claim _ _ _ h =>
    obtain ⟨-, _, -, rfl⟩ := claimReminderDelivery_eq_ok h
    exact keepsValues_of_subscriptions rfl
  | finish _ _ _ h =>
    obtain ⟨-, rfl⟩ := finishReminderDelivery_eq_ok h
    exact keepsValues_of_subscriptions rfl
  | recovered h => exact keepsValues_of_subscriptions (h ▸ rfl)
  | saveTarget _ h => exact keepsValues_of_subscriptions (h ▸ rfl)

/-- An activation that committed. -/
theorem activated_of_step {c : Nat} {write : SubscriptionWrite A}
    {subscription : ReminderSubscription A}
    (h : Step s (.call c (.putReminderSubscription write) (.ok subscription)) s') :
    Activated write s.tables subscription s'.tables := by
  cases h with
  | call _ hperforms =>
    obtain ⟨now, ⟨_, t, hwrite, ⟨⟩, rfl⟩ | ⟨⟨_, ⟨⟩⟩, -⟩⟩ := hperforms
    exact putReminderSubscription_eq_ok hwrite

/-! ## Since the pass read -/

/-- The activation of the Target that committed last, forgotten when task `i` reads. -/
def sinceRead (i : Nat) (target : Uuid) (last : Option (SubscriptionWrite A)) :
    Label A → Option (SubscriptionWrite A)
  | .task j .subscriptions _ => if j = i then none else last
  | .call _ (.putReminderSubscription write) (.ok _) =>
    if write.targetId = target then some write else last
  | _ => last

/-- The activation of the Target that committed last since task `i` read the subscriptions. -/
def activationSince (i : Nat) (target : Uuid) (ls : List (Label A)) :
    Option (SubscriptionWrite A) :=
  ls.foldl (sinceRead i target) none

@[simp] theorem activationSince_append (i : Nat) (target : Uuid) (ls : List (Label A))
    (l : Label A) :
    activationSince i target (ls ++ [l]) = sinceRead i target (activationSince i target ls) l := by
  simp [activationSince, List.foldl_append]

/-- A subscription a task has read schedules by what it read, or by the activation since. -/
def Scheduling (ls : List (Label A)) (s : System A) : Prop :=
  ∀ i subscriptions, (along i ls).read = some (.ok subscriptions) →
    ∀ subscription ∈ subscriptions, ∃ row,
      s.tables.subscriptions.find? subscription.targetId = some row ∧
        row.values = ((activationSince i subscription.targetId ls).map
          SubscriptionWrite.values).getD subscription.values

theorem sinceRead_other {i : Nat} {target : Uuid} {last : Option (SubscriptionWrite A)}
    (hread : ∀ r, l ≠ .task i .subscriptions r)
    (hput : ∀ c write subscription,
      l ≠ .call c (.putReminderSubscription write) (.ok subscription)) :
    sinceRead i target last l = last := by
  unfold sinceRead
  split
  · next j r =>
    rw [if_neg]
    rintro rfl
    exact hread r rfl
  · next c write subscription => exact absurd rfl (hput c write subscription)
  · rfl

theorem scheduling_step (h : Scheduling ls s) (hstep : Step s l s') :
    Scheduling (ls ++ [l]) s' := by
  intro i subscriptions hread subscription hmem
  rw [along_append] at hread
  rw [activationSince_append]
  by_cases hreads : ∃ r, l = .task i .subscriptions r
  · obtain ⟨r, rfl⟩ := hreads
    rw [follow_own] at hread
    cases hread
    cases hstep with
    | task _ hperforms =>
      obtain ⟨hrows | ⟨_, ⟨⟩⟩, rfl⟩ := hperforms
      cases hrows
      refine ⟨subscription, Table.find?_of_mem (mem_reminderSubscriptions hmem), ?_⟩
      simp [sinceRead]
  · have hother : ∀ r, l ≠ .task i .subscriptions r := fun r hl => hreads ⟨r, hl⟩
    have hold := (follow_read hread).resolve_right (hother _)
    obtain ⟨row, hrow, hvalues⟩ := h i subscriptions hold subscription hmem
    by_cases hput : ∃ c write answer, l = .call c (.putReminderSubscription write) (.ok answer)
    · obtain ⟨c, write, answer, rfl⟩ := hput
      have hactivated := activated_of_step hstep
      obtain ⟨next, now, rfl⟩ := hactivated.row
      have hfind : s'.tables.subscriptions.find? subscription.targetId =
          if subscription.targetId = write.targetId then some (write.subscription next now)
          else s.tables.subscriptions.find? subscription.targetId := by
        rw [hactivated.tables]
        exact Table.find?_upsert _ _ _
      rw [hfind]
      simp only [sinceRead]
      by_cases htarget : write.targetId = subscription.targetId
      · rw [if_pos htarget, if_pos htarget.symm]
        exact ⟨_, rfl, rfl⟩
      · rw [if_neg htarget, if_neg (Ne.symm htarget)]
        exact ⟨row, hrow, hvalues⟩
    · have hput' : ∀ c write answer,
          l ≠ .call c (.putReminderSubscription write) (.ok answer) :=
        fun c write answer hl => hput ⟨c, write, answer, hl⟩
      obtain ⟨row', hrow', hsame⟩ := hstep.touches.keepsValues hput' _ row hrow
      refine ⟨row', hrow', ?_⟩
      rw [hsame, hvalues, sinceRead_other hother hput']

theorem scheduling_of_run (h : Run Step (System.init A) ls s) : Scheduling ls s := by
  have hinit : Scheduling [] (System.init A) := by rintro i subscriptions ⟨⟩
  exact h.traced (fun _ _ _ _ h hstep => scheduling_step h hstep) hinit

/-! ## The clock -/

theorem Performs.wall {i : Nat} {e : Effect A} {r : Answer e} (h : Performs s i e r s') :
    s'.wall = s.wall := by
  obtain ⟨_, _, rfl, -⟩ := h.cases
  rfl

theorem CallPerforms.wall (h : CallPerforms s c e r s') : s'.wall = s.wall := by
  obtain ⟨_, rfl⟩ | ⟨_, _, -, rfl⟩ | rfl | ⟨_, -, rfl⟩ := h.cases <;> rfl

theorem cancelled_wall (s : System A) (c : Nat) : (s.cancelled c).wall = s.wall := by
  unfold System.cancelled
  dsimp only
  split
  · split <;> rfl
  · rfl

/-- The last tick, forgotten when task `i` reads the clock. -/
def tickOf (i : Nat) (last : Option Int) : Label A → Option Int
  | .tick wall => some wall
  | .task j .now _ => if j = i then none else last
  | _ => last

/-- The last tick since task `i` read the clock. -/
def tickSince (i : Nat) (ls : List (Label A)) : Option Int := ls.foldl (tickOf i) none

@[simp] theorem tickSince_append (i : Nat) (ls : List (Label A)) (l : Label A) :
    tickSince i (ls ++ [l]) = tickOf i (tickSince i ls) l := by
  simp [tickSince, List.foldl_append]

/-- The clock shows what a task read last, or the last tick since. -/
def Ticking (ls : List (Label A)) (s : System A) : Prop :=
  ∀ i reading, (along i ls).reading = some reading → s.wall = (tickSince i ls).getD reading

theorem tickOf_other {i : Nat} {last : Option Int} (htick : ∀ wall, l ≠ .tick wall)
    (hnow : ∀ now, l ≠ .task i .now now) : tickOf i last l = last := by
  unfold tickOf
  split
  · next wall => exact absurd rfl (htick wall)
  · next j now =>
    rw [if_neg]
    rintro rfl
    exact hnow now rfl
  · rfl

theorem follow_reading {m : Observed A} {i : Nat} {reading : Int}
    (h : (m.follow i l).reading = some reading) (hnow : ∀ now, l ≠ .task i .now now) :
    m.reading = some reading := by
  cases l with
  | task j e r =>
    by_cases hj : j = i
    · subst hj
      rw [follow_own] at h
      cases e with
      | load => cases h
      | now => exact absurd rfl (hnow r)
      | compute target site query => cases r <;> exact h
      | claim claim => rcases r with _ | _ | _ <;> exact h
      | _ => exact h
    · rwa [follow_other hj] at h
  | _ => exact h

theorem Step.wall (h : Step s l s') (htick : ∀ wall, l ≠ .tick wall) : s'.wall = s.wall := by
  cases h with
  | task _ hperforms => exact hperforms.wall
  | call _ hperforms => exact hperforms.wall
  | cancel c _ => exact cancelled_wall s c
  | tick wall => exact absurd rfl (htick wall)
  | _ => rfl

theorem ticking_step (h : Ticking ls s) (hstep : Step s l s') : Ticking (ls ++ [l]) s' := by
  intro i reading hreading
  rw [along_append] at hreading
  rw [tickSince_append]
  by_cases hnow : ∃ now, l = .task i .now now
  · obtain ⟨now, rfl⟩ := hnow
    rw [follow_own] at hreading
    cases hreading
    cases hstep with
    | task _ hperforms =>
      obtain ⟨rfl, rfl⟩ := hperforms
      simp [tickOf, System.setProgram, System.setTask]
  · have hnow' : ∀ now, l ≠ .task i .now now := fun now hl => hnow ⟨now, hl⟩
    have hwall := h i reading (follow_reading hreading hnow')
    by_cases htick : ∃ wall, l = .tick wall
    · obtain ⟨wall, rfl⟩ := htick
      cases hstep
      rfl
    · have htick' : ∀ wall, l ≠ .tick wall := fun wall hl => htick ⟨wall, hl⟩
      rw [hstep.wall htick', tickOf_other htick' hnow', hwall]

theorem ticking_of_run (h : Run Step (System.init A) ls s) : Ticking ls s := by
  have hinit : Ticking [] (System.init A) := by rintro i reading ⟨⟩
  exact h.traced (fun _ _ _ _ h hstep => ticking_step h hstep) hinit

/-! ## Claims -/

/-- The claim is for a window computed from the enabled subscription of its Target, within the lead
time before the window starts. -/
def OnSchedule (before : List (Label A)) (s : System A) (i : Nat) (claim : DeliveryClaim A) : Prop :=
  ∃ computed window row, (along i before).computed = some computed ∧
    computeWindows computed.target computed.site computed.query = .ok computed.windows ∧
    window ∈ computed.windows.windows ∧ claim.key = window.key ∧
    s.tables.subscriptions.find? computed.target.id = some row ∧ row.state = .enabled ∧
    row.siteId = computed.site.id ∧ row.siteRevision = computed.site.revision ∧
    row.criteria = computed.query.criteria ∧
    window.startUtc - row.leadMinutes * minute ≤ s.wall ∧ s.wall < window.startUtc

/-- No activation since the pass read changed the site revision or the criteria, or the lead time so
that the window would not have been due, and the clock neither went back behind the reading the
window was due at nor reached the window's start after the last reading. -/
structure Undisturbed (before : List (Label A)) (s : System A) (i : Nat)
    (claim : DeliveryClaim A) : Prop where
  activation : ∀ write, activationSince i claim.key.targetId before = some write →
    ∀ subscriptions, (along i before).read = some (.ok subscriptions) →
      ∀ subscription ∈ subscriptions, subscription.targetId = claim.key.targetId →
        write.siteRevision = subscription.siteRevision ∧ write.criteria = subscription.criteria
  lead : ∀ write, activationSince i claim.key.targetId before = some write →
    ∀ computed reading, (along i before).computed = some computed →
      computed.reading = some reading →
        claim.key.startUtc - write.leadMinutes * minute ≤ reading
  forward : ∀ computed reading, (along i before).computed = some computed →
    computed.reading = some reading → reading ≤ s.wall
  early : ∀ wall, tickSince i before = some wall → wall < claim.key.startUtc

/-- Every claim that took its identity did so where `P` held. -/
def EveryClaim (P : List (Label A) → System A → Nat → DeliveryClaim A → Prop) (ls : List (Label A))
    (s : System A) : Prop :=
  ∀ before i claim after s₀, ls = before ++ .task i (.claim claim) (.ok true) :: after →
    Run Step (System.init A) before s₀ →
    Run Step s₀ (.task i (.claim claim) (.ok true) :: after) s → P before s₀ i claim

theorem scheduled_of_claim {i : Nat} {claim : DeliveryClaim A}
    {subscription : ReminderSubscription A} {computed : Computed A}
    {window : ObservingWindow A.toAstronomy} (hscheduling : Scheduling ls s)
    (hclaims : (along i ls).Claims claim subscription computed window)
    (h : Undisturbed ls s i claim) :
    ∃ row, s.tables.subscriptions.find? subscription.targetId = some row ∧
      row.siteRevision = subscription.siteRevision ∧ row.criteria = subscription.criteria ∧
      window.startUtc - row.leadMinutes * minute ≤ s.wall := by
  obtain ⟨subscriptions, hread, hcovers⟩ := hclaims.read
  obtain ⟨reading, hreading, hdue⟩ := hclaims.due.due
  obtain ⟨row, hrow, hvalues⟩ := hscheduling i subscriptions hread subscription hcovers.mem
  have hkey : claim.key = ⟨subscription.targetId, computed.site.id, window.startUtc⟩ := by
    rw [hclaims.claim_eq, ← hcovers.target]
    exact computeWindows_mem hcovers.sound hclaims.due.mem
  have hforward := h.forward computed reading hclaims.computed_eq hreading
  refine ⟨row, hrow, ?_⟩
  cases hactivation : activationSince i subscription.targetId ls with
  | none =>
    rw [hactivation] at hvalues
    have hlead : row.leadMinutes = subscription.leadMinutes := congrArg Schedule.leadMinutes hvalues
    refine ⟨congrArg Schedule.siteRevision hvalues, congrArg Schedule.criteria hvalues, ?_⟩
    rw [hlead]
    exact hdue.trans hforward
  | some write =>
    rw [hactivation] at hvalues
    have hactivation' : activationSince i claim.key.targetId ls = some write := by rwa [hkey]
    obtain ⟨hrevision, hcriteria⟩ := h.activation write hactivation' subscriptions hread
      subscription hcovers.mem (by rw [hkey])
    have hdue' := h.lead write hactivation' computed reading hclaims.computed_eq hreading
    have hlead : row.leadMinutes = write.leadMinutes := congrArg Schedule.leadMinutes hvalues
    refine ⟨(congrArg Schedule.siteRevision hvalues).trans hrevision,
      (congrArg Schedule.criteria hvalues).trans hcriteria, ?_⟩
    rw [hlead]
    rw [hkey] at hdue'
    exact hdue'.trans hforward

theorem onSchedule_of_claim {i : Nat} {claim : DeliveryClaim A}
    (hrun : Run Step (System.init A) ls s) (hstep : Step s (.task i (.claim claim) (.ok true)) s')
    (h : Undisturbed ls s i claim) : OnSchedule ls s i claim := by
  obtain ⟨subscription, computed, window, hclaims⟩ := (kept_of_run hrun).followed.allows hstep
  obtain ⟨_, _, hcovers⟩ := hclaims.read
  obtain ⟨row, hrow, hrevision, hcriteria, hdue⟩ :=
    scheduled_of_claim (scheduling_of_run hrun) hclaims h
  have hkey : claim.key = ⟨computed.target.id, computed.site.id, window.startUtc⟩ := by
    rw [hclaims.claim_eq]
    exact computeWindows_mem hcovers.sound hclaims.due.mem
  rw [← hcovers.target] at hrow
  obtain ⟨hsite, henabled⟩ : row.siteId = computed.site.id ∧ row.state = .enabled := by
    have henabledAt := (claimed_fresh hstep).1
    rw [hkey] at henabledAt
    simpa [Tables.enabledAt, hrow] using henabledAt
  have hahead : s.wall < window.startUtc := by
    obtain ⟨reading, hreading, hahead⟩ := hclaims.ahead
    rw [ticking_of_run hrun i reading hreading]
    cases htick : tickSince i ls with
    | none => exact hahead
    | some wall => simpa [hkey] using h.early wall htick
  exact ⟨computed, window, row, hclaims.computed_eq, hcovers.sound, hclaims.due.mem,
    by rw [hclaims.claim_eq], hrow, henabled, hsite, hrevision.trans hcovers.siteRevision.symm,
    hcriteria.trans hcovers.criteria.symm, hdue, hahead⟩

/-- In a run whose claims nothing disturbed, every claim is on the schedule of the subscription as it
is at the claim, and only what was so claimed is submitted. -/
theorem reminders_on_schedule (h : Run Step (System.init A) ls s)
    (hclaims : EveryClaim Undisturbed ls s) :
    EveryClaim OnSchedule ls s ∧
      ∀ before i notice r after, ls = before ++ .task i (.submit notice) r :: after →
        ∃ front claim back s₀, before = front ++ .task i (.claim claim) (.ok true) :: back ∧
          claim.key = notice.window ∧ Run Step (System.init A) front s₀ ∧
          OnSchedule front s₀ i claim := by
  have hevery : EveryClaim OnSchedule ls s := by
    intro before i claim after s₀ hls hbefore hafter
    obtain ⟨s₁, hstep, -⟩ := Run.cons_iff.mp hafter
    exact onSchedule_of_claim hbefore hstep (hclaims before i claim after s₀ hls hbefore hafter)
  refine ⟨hevery, ?_⟩
  rintro before i notice r after rfl
  obtain ⟨s₀, s₁, hbefore, hstep, -⟩ := step_of_run h
  have hclaimed : (along i before).claimed = some notice.window :=
    (kept_of_run hbefore).followed.allows hstep
  obtain ⟨front, claim, back, rfl, hkey⟩ := exists_claim hclaimed
  rw [List.append_assoc, List.cons_append] at h
  obtain ⟨s₂, hfront, hback⟩ := h.split
  exact ⟨front, claim, back, s₂, rfl, hkey, hfront,
    hevery front i claim _ s₂ (by rw [List.append_assoc, List.cons_append]) hfront hback⟩

end OnSchedule

/-! ## Half an hour ahead -/

/-- The scheduler computes the evening's window with a lead time of half a day, which the user then
cuts to half an hour. -/
def shortened : List (Label steadyAlmanac) × System steadyAlmanac :=
  (System.init steadyAlmanac).play (activated ++ List.replicate 8 (.task 0) ++
    [.begin 4 (.enableReminders (activation 31 (some 1)))] ++ List.replicate 6 (.call 4 0) ++
    [.task 0])

/-- Whether the label takes the window identity for task `i`. -/
def Label.takes (i : Nat) (key : WindowKey) : Label steadyAlmanac → Bool
  | .task j (.claim claim) (.ok true) => j = i && claim.key = key
  | _ => false

theorem exists_of_takes {i : Nat} {key : WindowKey} {l : Label steadyAlmanac}
    (h : l.takes i key = true) :
    ∃ claim, l = .task i (.claim claim) (.ok true) ∧ claim.key = key := by
  unfold Label.takes at h
  split at h
  · next j claim =>
    simp only [Bool.and_eq_true, decide_eq_true_eq] at h
    obtain ⟨rfl, hkey⟩ := h
    exact ⟨claim, rfl, hkey⟩
  · cases h

theorem reminders_off_schedule : ¬ ∀ ls s, Run Step (System.init steadyAlmanac) ls s →
    EveryClaim OnSchedule ls s := by
  intro hall
  have hmove : (shortened.2.move (.task 0)).any (fun out => out.1.takes 0 tonight) = true := by
    decide +kernel
  obtain ⟨⟨l, s⟩, hmove, htakes⟩ := (Option.any_eq_true _ _).mp hmove
  obtain ⟨claim, rfl, hkey⟩ := exists_of_takes htakes
  have hbefore : Run Step (System.init steadyAlmanac) shortened.1 shortened.2 := run_of_play _ _
  have hafter : Run Step shortened.2 [.task 0 (.claim claim) (.ok true)] s :=
    .cons (step_of_move hmove) (.nil s)
  obtain ⟨computed, window, row, -, hsound, hmem, hclaim, hrow, -, -, -, -, hdue, -⟩ :=
    hall _ _ (hbefore.append hafter) shortened.1 0 claim [] shortened.2 rfl hbefore hafter
  rw [hkey, computeWindows_mem hsound hmem] at hclaim
  obtain ⟨htarget, hstart⟩ : computed.target.id = highTarget.id ∧ window.startUtc = tonight.startUtc :=
    ⟨(congrArg WindowKey.targetId hclaim).symm, (congrArg WindowKey.startUtc hclaim).symm⟩
  have hlead : (shortened.2.tables.subscriptions.find? highTarget.id).map (·.leadMinutes) = some 31 := by
    decide +kernel
  have hwall : shortened.2.wall < tonight.startUtc - 31 * minute := by decide +kernel
  rw [← htarget, hrow] at hlead
  have hminutes : row.leadMinutes = 31 := Option.some.inj hlead
  rw [hminutes, hstart] at hdue
  omega

/-- Whether `P` holds of every label of the list, after `before`, and the labels before it. -/
def everyFrom {ℓ : Type} (P : List ℓ → ℓ → Bool) (before : List ℓ) : List ℓ → Bool
  | [] => true
  | l :: ls => P before l && everyFrom P (before ++ [l]) ls

theorem everyFrom_split {ℓ : Type} {P : List ℓ → ℓ → Bool} {front before after : List ℓ} {l : ℓ}
    (h : everyFrom P front (before ++ l :: after) = true) : P (front ++ before) l = true := by
  induction before generalizing front with
  | nil =>
    simp only [List.nil_append, everyFrom, Bool.and_eq_true] at h
    rw [List.append_nil]
    exact h.1
  | cons b before ih =>
    simp only [List.cons_append, everyFrom, Bool.and_eq_true] at h
    rw [← List.singleton_append, ← List.append_assoc]
    exact ih h.2

/-- At a claim, no activation since the read, and the clock still where the pass found it. -/
def quiet (before : List (Label steadyAlmanac)) : Label steadyAlmanac → Bool
  | .task i (.claim claim) (.ok true) =>
    (activationSince i claim.key.targetId before).isNone && (tickSince i before).isNone &&
      ((along i before).computed.bind Computed.reading) = (along i before).reading &&
      (along i before).reading.isSome
  | _ => true

theorem undisturbed_of_quiet {i : Nat} {claim : DeliveryClaim steadyAlmanac}
    {before : List (Label steadyAlmanac)} {s : System steadyAlmanac}
    (hrun : Run Step (System.init steadyAlmanac) before s)
    (h : quiet before (.task i (.claim claim) (.ok true)) = true) : Undisturbed before s i claim := by
  simp only [quiet, Bool.and_eq_true, Option.isNone_iff_eq_none, decide_eq_true_eq,
    Option.isSome_iff_exists] at h
  obtain ⟨⟨⟨hactivation, htick⟩, hsame⟩, now, hnow⟩ := h
  have hwall : s.wall = now := by
    rw [ticking_of_run hrun i now hnow, htick]
    rfl
  constructor
  · intro write hwrite
    rw [hactivation] at hwrite
    cases hwrite
  · intro write hwrite
    rw [hactivation] at hwrite
    cases hwrite
  · intro computed reading hcomputed hreading
    rw [hcomputed, Option.bind_some, hreading, hnow] at hsame
    rw [hwall, Option.some.inj hsame]
  · intro wall hwall
    rw [htick] at hwall
    cases hwall

theorem reminders_on_schedule_of_firstPass :
    firstPass.1.any (Label.takes 0 tonight) = true ∧
      EveryClaim OnSchedule firstPass.1 firstPass.2 := by
  have hquiet : everyFrom quiet [] firstPass.1 = true := by decide +kernel
  refine ⟨by decide +kernel, (reminders_on_schedule run_firstPass ?_).1⟩
  intro before i claim after s hls hbefore _
  rw [hls] at hquiet
  exact undisturbed_of_quiet hbefore (everyFrom_split hquiet)

end PlateVault.Reminders
