import PlateVault.Planning.Agree
import PlateVault.Reminders.Observed
import PlateVault.Reminders.Progress
import PlateVault.Reminders.Writes

/-!
# Every reminder at most once

Over every run, whatever the tasks and calls do to each other: a window identity is submitted at most
once, after a claim that recorded it, and the records and subscriptions keep their invariants.
-/

namespace PlateVault.Reminders

open Planning Observed

section Once

variable {A : Almanac} {t t' : Tables A} {ls : List (Label A)} {l : Label A} {s s' : System A}
  {e : CallEffect A} {r : CallAnswer e}

/-! ## What a step does to the tables -/

theorem Commits.sound (h : Commits e r t t') (hsound : t.Sound) : t'.Sound := by
  cases h with
  | saveSite hfresh h => exact saveSite_sound hsound hfresh h
  | setDefaultSite h => exact setDefaultSite_sound hsound h
  | putReminderSubscription h => exact (putReminderSubscription_eq_ok h).sound hsound
  | disable h => exact setSubscriptionState_sound hsound h (by rintro ⟨⟩)

theorem saveSite_subscriptions {id : Option Uuid} {expected : Option Nat} {input : SiteInput A}
    {fresh : Uuid} {saved : SiteSaved A}
    (h : saveSite id expected input fresh t = .ok (saved, t')) :
    (t'.subscriptions = t.subscriptions ∨ ∃ scope : Reconfirm, t'.subscriptions =
      t.subscriptions.updateWhere scope.moves ReminderSubscription.reconfirmed fun _ => rfl) ∧
      t'.deliveries = t.deliveries := by
  simp only [saveSite, Result.bind_eq_ok] at h
  obtain ⟨_, -, current, -, next, -, h⟩ := h
  split at h
  · cases h
  · simp only [Result.bind_eq_ok] at h
    obtain ⟨_, -, h⟩ := h
    split at h
    · simp only [Result.bind_eq_ok, Result.pure_eq_ok] at h
      obtain ⟨⟨moved, t₁⟩, hmoved, h⟩ := h
      cases h
      obtain rfl := reconfirm_eq_ok hmoved
      exact ⟨.inr ⟨_, rfl⟩, rfl⟩
    · cases h
      exact ⟨.inl rfl, rfl⟩

theorem Commits.advances (h : Commits e r t t') : Advances t t' := by
  cases h with
  | saveSite _ h =>
    obtain ⟨hsame | ⟨scope, hmoved⟩, -⟩ := saveSite_subscriptions h
    · exact advances_of_subscriptions hsame
    · exact advances_of_reconfirm hmoved
  | setDefaultSite h =>
    obtain ⟨_, rfl⟩ := setDefaultSite_eq_ok h
    exact advances_of_reconfirm rfl
  | putReminderSubscription h => exact (putReminderSubscription_eq_ok h).advances
  | disable h => exact setSubscriptionState_advances h

theorem Commits.deliveries (h : Commits e r t t') : t'.deliveries = t.deliveries := by
  cases h with
  | saveSite _ h => exact (saveSite_subscriptions h).2
  | setDefaultSite h =>
    obtain ⟨_, rfl⟩ := setDefaultSite_eq_ok h
    rfl
  | putReminderSubscription h => rw [(putReminderSubscription_eq_ok h).tables]
  | disable h =>
    obtain ⟨-, -, rfl⟩ := setSubscriptionState_eq_ok h
    rfl

inductive Touches (l : Label A) (t t' : Tables A) : Prop
  | same (h : t' = t)
  | commits (c : Nat) (e : CallEffect A) (r : CallAnswer e) (hl : l = .call c e r)
      (h : Commits e r t t')
  | block (i : Nat) (target : Uuid) (revision : Nat) (reason : BlockReason)
      (answer : ReminderSubscription A)
      (hl : l = .task i (.block target revision reason) (.ok answer))
      (h : setSubscriptionState target revision .blocked (some reason) t = .ok (answer, t'))
  | claim (i : Nat) (claim : DeliveryClaim A) (hl : l = .task i (.claim claim) (.ok true))
      (h : claimReminderDelivery claim t = .ok (true, t'))
  | finish (key : WindowKey) (outcome : DeliveryOutcome) (answer : ReminderDelivery A)
      (h : finishReminderDelivery key outcome t = .ok (answer, t'))
  | recovered (h : t' = recoverSending t)
  | saveTarget (target : TargetRecord A.toAstronomy)
      (h : t' = { t with targets := Function.update t.targets target.id (some target) })

theorem Performs.touches {i : Nat} {e : Effect A} {r : Answer e} (h : Performs s i e r s') :
    Touches (.task i e r) s.tables s'.tables := by
  cases e with
  | compareExchange seen new =>
    obtain ⟨-, rfl⟩ := h
    apply Touches.same
    split <;> rfl
  | wait delay =>
    apply Touches.same
    cases r with
    | slept => exact h ▸ rfl
    | notified => exact h.2 ▸ rfl
    | stopped => exact h.2 ▸ rfl
  | block target revision reason =>
    obtain ⟨answer, t, hwrite, rfl, rfl⟩ | ⟨-, rfl⟩ := h
    · exact .block i target revision reason answer rfl hwrite
    · exact .same rfl
  | claim claim =>
    obtain ⟨answer, t, hwrite, rfl, rfl⟩ | ⟨-, rfl⟩ := h
    · cases answer with
      | false => exact .same (claimReminderDelivery_eq_false hwrite)
      | true => exact .claim i claim rfl hwrite
    · exact .same rfl
  | finish key outcome =>
    obtain ⟨answer, t, hwrite, -, rfl⟩ | ⟨-, rfl⟩ := h
    · exact .finish key outcome answer hwrite
    · exact .same rfl
  | load | stopRequested | now | subscriptions | target _ | site _ | compute _ _ _ | permission
  | submit _ => exact .same (h.2 ▸ rfl)

theorem cancelled_tables (s : System A) (c : Nat) : (s.cancelled c).tables = s.tables := by
  unfold System.cancelled
  dsimp only
  split
  · split <;> rfl
  · rfl

theorem Step.touches (h : Step s l s') : Touches l s.tables s'.tables := by
  cases h with
  | task _ hperforms => exact hperforms.touches
  | call _ hperforms =>
    obtain ⟨_, rfl⟩ | ⟨_, _, -, rfl⟩ | rfl | ⟨t, hcommits, rfl⟩ := hperforms.cases
    · exact .same rfl
    · exact .same rfl
    · exact .same rfl
    · exact .commits _ _ _ rfl hcommits
  | cancel c => exact .same (cancelled_tables s c)
  | reopen | crash => exact .recovered rfl
  | saveTarget target => exact .saveTarget target rfl
  | begin | panicked | tick => exact .same rfl

theorem Touches.advances (h : Touches l t t') : Advances t t' := by
  cases h with
  | same h => exact h ▸ .refl t
  | commits _ _ _ _ h => exact h.advances
  | block _ _ _ _ _ _ h => exact setSubscriptionState_advances h
  | claim _ _ _ h =>
    obtain ⟨-, _, -, rfl⟩ := claimReminderDelivery_eq_ok h
    exact advances_of_subscriptions rfl
  | finish _ _ _ h =>
    obtain ⟨-, rfl⟩ := finishReminderDelivery_eq_ok h
    exact advances_of_subscriptions rfl
  | recovered h => exact advances_of_subscriptions (h ▸ rfl)
  | saveTarget _ h => exact advances_of_subscriptions (h ▸ rfl)

theorem Touches.delivers (h : Touches l t t') : Delivers t t' := by
  cases h with
  | same h => exact delivers_of_deliveries (h ▸ rfl)
  | commits _ _ _ _ h => exact delivers_of_deliveries h.deliveries
  | block _ _ _ _ _ _ h =>
    obtain ⟨-, -, rfl⟩ := setSubscriptionState_eq_ok h
    exact delivers_of_deliveries rfl
  | claim _ _ _ h => exact claimReminderDelivery_delivers h
  | finish _ _ _ h => exact finishReminderDelivery_delivers h
  | recovered h => exact h ▸ recoverSending_delivers t
  | saveTarget _ h => exact delivers_of_deliveries (h ▸ rfl)

/-! ## Subscriptions a task has read -/

/-- Every subscription a task has read is as it was, or at a later revision. -/
def Remembered (ls : List (Label A)) (s : System A) : Prop :=
  ∀ i subscriptions, (along i ls).read = some (.ok subscriptions) →
    ∀ subscription ∈ subscriptions, ∃ row,
      s.tables.subscriptions.find? subscription.targetId = some row ∧
        (row = subscription ∨ subscription.revision < row.revision)

theorem follow_read {m : Observed A} {i : Nat}
    {subscriptions : List (ReminderSubscription A)}
    (h : (m.follow i l).read = some (.ok subscriptions)) :
    m.read = some (.ok subscriptions) ∨ l = .task i .subscriptions (.ok subscriptions) := by
  cases l with
  | task j e r =>
    by_cases hj : j = i
    · subst hj
      rw [follow_own] at h
      cases e with
      | load => cases h
      | subscriptions =>
        right
        cases h
        rfl
      | compute target site query =>
        left
        cases r <;> exact h
      | claim claim =>
        left
        rcases r with _ | _ | _ <;> exact h
      | _ => exact .inl h
    · exact .inl (by rwa [follow_other hj] at h)
  | _ => exact .inl h

theorem mem_reminderSubscriptions {subscription : ReminderSubscription A}
    {state : Option SubscriptionState} (h : subscription ∈ t.reminderSubscriptions state) :
    subscription ∈ t.subscriptions.rows :=
  (List.mem_filter.mp (Ordered.mem_sortBy.mp h)).1

theorem remembered_step (h : Remembered ls s) (hstep : Step s l s') :
    Remembered (ls ++ [l]) s' := by
  intro i subscriptions hread subscription hmem
  rw [along_append] at hread
  have hbefore : ∃ row, s.tables.subscriptions.find? subscription.targetId = some row ∧
      (row = subscription ∨ subscription.revision < row.revision) := by
    rcases follow_read hread with hold | rfl
    · exact h i subscriptions hold subscription hmem
    · cases hstep with
      | task _ hperforms =>
        obtain ⟨hrows | ⟨_, ⟨⟩⟩, -⟩ := hperforms
        cases hrows
        exact ⟨subscription, Table.find?_of_mem (mem_reminderSubscriptions hmem), .inl rfl⟩
  obtain ⟨row, hrow, hsame⟩ := hbefore
  obtain ⟨row', hrow', hnext⟩ := hstep.touches.advances _ row hrow
  refine ⟨row', hrow', ?_⟩
  rcases hnext with rfl | hlater
  · exact hsame
  · rcases hsame with rfl | hlater'
    · exact .inr hlater
    · exact .inr (hlater'.trans hlater)

/-- A blocked subscription was enabled where it is. -/
theorem sound_step (hfollowed : Followed ls s) (hremembered : Remembered ls s)
    (h : s.tables.Sound) (hstep : Step s l s') : s'.tables.Sound := by
  cases hstep.touches with
  | same hsame => exact hsame ▸ h
  | commits _ _ _ _ hcommits => exact hcommits.sound h
  | block i target revision reason answer hl hblock =>
    subst hl
    obtain ⟨subscriptions, hread, subscription, hmem, henabled, rfl, rfl⟩ := hfollowed.allows hstep
    obtain ⟨row, hrow, hsame⟩ := hremembered i subscriptions hread subscription hmem
    refine setSubscriptionState_sound h hblock fun _ old hold => ?_
    obtain ⟨⟨found, hfound, hrevision⟩, -, -⟩ := setSubscriptionState_eq_ok hblock
    rw [hrow] at hold hfound
    cases hold
    cases hfound
    rcases hsame with rfl | hlater
    · simp [ReminderSubscription.active, henabled]
    · omega
  | claim _ _ _ hclaim =>
    obtain ⟨-, _, -, hrows⟩ := claimReminderDelivery_eq_ok hclaim
    rw [hrows]
    exact ⟨h.positive, h.onDefault⟩
  | finish _ _ _ hfinish =>
    obtain ⟨-, hrows⟩ := finishReminderDelivery_eq_ok hfinish
    rw [hrows]
    exact ⟨h.positive, h.onDefault⟩
  | recovered hrows =>
    rw [hrows]
    exact ⟨h.positive, h.onDefault⟩
  | saveTarget _ hrows =>
    rw [hrows]
    exact ⟨h.positive, h.onDefault⟩

/-! ## Submissions -/

def Label.submits (key : WindowKey) : Label A → Bool
  | .task _ (.submit notice) _ => notice.window = key
  | _ => false

theorem follow_claimed {m : Observed A} {i : Nat} {key : WindowKey}
    (h : (m.follow i l).claimed = some key) :
    (m.claimed = some key ∧ ∀ notice r, l ≠ .task i (.submit notice) r) ∨
      ∃ claim, claim.key = key ∧ l = .task i (.claim claim) (.ok true) := by
  cases l with
  | task j e r =>
    by_cases hj : j = i
    · subst hj
      rw [follow_own] at h
      cases e with
      | load => cases h
      | submit notice => cases h
      | compute target site query =>
        left
        refine ⟨?_, by rintro _ _ ⟨⟩⟩
        cases r <;> exact h
      | claim claim =>
        rcases r with _ | _ | _
        · exact .inl ⟨h, by rintro _ _ ⟨⟩⟩
        · exact .inl ⟨h, by rintro _ _ ⟨⟩⟩
        · right
          cases h
          exact ⟨claim, rfl, rfl⟩
      | _ => exact .inl ⟨h, by rintro _ _ ⟨⟩⟩
    · refine .inl ⟨by rwa [follow_other hj] at h, ?_⟩
      rintro notice r ⟨⟩
      exact hj rfl
  | _ => exact .inl ⟨h, by rintro _ _ ⟨⟩⟩

/-- Each identity is held by one task at most until that task submits it, once, and has its record. -/
structure Single (ls : List (Label A)) (s : System A) : Prop where
  held : ∀ i key, (along i ls).claimed = some key →
    s.tables.deliveries.find? key ≠ none ∧ ls.countP (Label.submits key) = 0
  one : ∀ i j key, (along i ls).claimed = some key → (along j ls).claimed = some key → i = j
  once : ∀ key, ls.countP (Label.submits key) ≤ 1
  recorded : ∀ key, ls.countP (Label.submits key) ≠ 0 → s.tables.deliveries.find? key ≠ none

theorem Delivers.recorded (h : Delivers t t') {key : WindowKey}
    (hkey : t.deliveries.find? key ≠ none) : t'.deliveries.find? key ≠ none := by
  obtain ⟨old, hold⟩ := Option.ne_none_iff_exists'.mp hkey
  obtain ⟨new, hnew, -⟩ := h.kept key old hold
  rw [hnew]
  rintro ⟨⟩

theorem exists_of_submits {key : WindowKey} (h : l.submits key = true) :
    ∃ i notice r, l = .task i (.submit notice) r ∧ notice.window = key := by
  cases l with
  | task i e r =>
    cases e with
    | submit notice => exact ⟨i, notice, r, rfl, of_decide_eq_true h⟩
    | _ => cases h
  | _ => cases h

theorem count_submits (key : WindowKey) : (ls ++ [l]).countP (Label.submits key) =
    ls.countP (Label.submits key) + if l.submits key then 1 else 0 := by
  rw [List.countP_append, List.countP_singleton]

theorem claimed_fresh {i : Nat} {claim : DeliveryClaim A}
    (h : Step s (.task i (.claim claim) (.ok true)) s') :
    s.tables.enabledAt claim.key.targetId claim.key.siteId = true ∧
      s.tables.deliveries.find? claim.key = none ∧
      s'.tables.deliveries.find? claim.key =
        some ⟨claim.key, claim.windowEndUtc, claim.night, claim.dueAt, .sending, none⟩ := by
  cases h with
  | task _ hperforms =>
    obtain ⟨_, t, hwrite, ⟨⟩, rfl⟩ | ⟨⟨_, ⟨⟩⟩, -⟩ := hperforms
    obtain ⟨henabled, deliveries, hinsert, rfl⟩ := claimReminderDelivery_eq_ok hwrite
    refine ⟨henabled, (Table.insert?_eq_some hinsert).1, ?_⟩
    change deliveries.find? claim.key = _
    rw [Table.find?_insert? hinsert, if_pos rfl]

theorem single_step (hfollowed : Followed ls s) (h : Single ls s) (hstep : Step s l s') :
    Single (ls ++ [l]) s' := by
  have hdelivers := hstep.touches.delivers
  -- who submits an identity holds it
  have hholder : ∀ key, l.submits key = true →
      ∃ i notice r, l = .task i (.submit notice) r ∧ (along i ls).claimed = some key := by
    intro key hkey
    obtain ⟨i, notice, r, rfl, rfl⟩ := exists_of_submits hkey
    exact ⟨i, notice, r, rfl, hfollowed.allows hstep⟩
  constructor
  · intro i key hclaimed
    rw [along_append] at hclaimed
    rw [count_submits]
    rcases follow_claimed hclaimed with ⟨hold, hnot⟩ | ⟨claim, rfl, rfl⟩
    · obtain ⟨hrecorded, hzero⟩ := h.held i key hold
      refine ⟨hdelivers.recorded hrecorded, ?_⟩
      rw [hzero, if_neg]
      intro hkey
      obtain ⟨j, notice, r, rfl, hj⟩ := hholder key hkey
      cases h.one i j key hold hj
      exact hnot notice r rfl
    · obtain ⟨-, hnone, hsome⟩ := claimed_fresh hstep
      refine ⟨?_, ?_⟩
      · rw [hsome]
        rintro ⟨⟩
      · by_contra hne
        exact h.recorded claim.key (by simpa [Label.submits] using hne) hnone
  · intro i j key hi hj
    rw [along_append] at hi hj
    rcases follow_claimed hi with ⟨hold, -⟩ | ⟨claim, rfl, rfl⟩
    · rcases follow_claimed hj with ⟨hold', -⟩ | ⟨claim, rfl, rfl⟩
      · exact h.one i j key hold hold'
      · exact absurd (claimed_fresh hstep).2.1 (h.held i _ hold).1
    · rcases follow_claimed hj with ⟨hold', -⟩ | ⟨claim', hkey, hl⟩
      · exact absurd (claimed_fresh hstep).2.1 (h.held j _ hold').1
      · cases hl
        rfl
  · intro key
    rw [count_submits]
    split
    · next hkey =>
      obtain ⟨i, notice, r, rfl, hi⟩ := hholder key hkey
      rw [(h.held i key hi).2]
    · exact h.once key
  · intro key hne
    rw [count_submits] at hne
    split at hne
    · next hkey =>
      obtain ⟨i, notice, r, rfl, hi⟩ := hholder key hkey
      exact hdelivers.recorded (h.held i key hi).1
    · exact hdelivers.recorded (h.recorded key hne)

/-! ## Runs -/

structure Kept (ls : List (Label A)) (s : System A) : Prop where
  followed : Followed ls s
  remembered : Remembered ls s
  sound : s.tables.Sound
  single : Single ls s

theorem kept_init : Kept [] (System.init A) where
  followed := followed_init
  remembered := by rintro i subscriptions ⟨⟩
  sound := ⟨by rintro site ⟨⟩, by rintro subscription ⟨⟩⟩
  single := ⟨by rintro i key ⟨⟩, by rintro i j key ⟨⟩, fun key => Nat.zero_le 1,
    fun key h => absurd rfl h⟩

theorem kept_of_run (h : Run Step (System.init A) ls s) : Kept ls s :=
  h.traced (fun _ _ _ _ h hstep => ⟨followed_step h.followed hstep,
    remembered_step h.remembered hstep, sound_step h.followed h.remembered h.sound hstep,
    single_step h.followed h.single hstep⟩) kept_init

theorem exists_claim {i : Nat} {key : WindowKey} (h : (along i ls).claimed = some key) :
    ∃ before claim after, ls = before ++ .task i (.claim claim) (.ok true) :: after ∧
      claim.key = key := by
  induction ls using List.reverseRecOn with
  | nil => cases h
  | append_singleton ls l ih =>
    rw [along_append] at h
    rcases follow_claimed h with ⟨hold, -⟩ | ⟨claim, rfl, rfl⟩
    · obtain ⟨before, claim, after, rfl, rfl⟩ := ih hold
      exact ⟨before, claim, after ++ [l], by simp, rfl⟩
    · exact ⟨ls, claim, [], rfl, rfl⟩

theorem delivers_of_run (h : Run Step s ls s') :
    ∀ key old, s.tables.deliveries.find? key = some old →
      ∃ new, s'.tables.deliveries.find? key = some new ∧ Moves old new := by
  induction h with
  | nil s => exact fun key old hold => ⟨old, hold, .inl rfl⟩
  | cons hstep _ ih =>
    intro key old hold
    obtain ⟨between, hbetween, hmoves⟩ := hstep.touches.delivers.kept key old hold
    obtain ⟨new, hnew, hmoves'⟩ := ih key between hbetween
    exact ⟨new, hnew, hmoves.trans hmoves'⟩

/-- The step before `after` of a run. -/
theorem step_of_run {before after : List (Label A)}
    (h : Run Step (System.init A) (before ++ l :: after) s) :
    ∃ s₀ s₁, Run Step (System.init A) before s₀ ∧ Step s₀ l s₁ ∧ Run Step s₁ after s := by
  obtain ⟨s₀, hbefore, hrest⟩ := h.split
  obtain ⟨s₁, hstep, hafter⟩ := Run.cons_iff.mp hrest
  exact ⟨s₀, s₁, hbefore, hstep, hafter⟩

/-- The run has a claim of the identity by task `i`, which found the Target's subscription enabled at
the site and committed a `sending` record. -/
def ClaimedIn (ls : List (Label A)) (i : Nat) (key : WindowKey) : Prop :=
  ∃ before claim after s₀ s₁, ls = before ++ .task i (.claim claim) (.ok true) :: after ∧
    claim.key = key ∧ Run Step (System.init A) before s₀ ∧
    Step s₀ (.task i (.claim claim) (.ok true)) s₁ ∧
    s₀.tables.enabledAt key.targetId key.siteId = true ∧
    ∃ record, s₁.tables.deliveries.find? key = some record ∧ record.state = .sending

theorem claimedIn_of_submit {before after : List (Label A)} {i : Nat} {notice : ReminderNotice}
    {r : Option SubmitOutcome}
    (h : Run Step (System.init A) (before ++ .task i (.submit notice) r :: after) s) :
    ClaimedIn before i notice.window := by
  obtain ⟨s₀, s₁, hbefore, hstep, -⟩ := step_of_run h
  have hclaimed : (along i before).claimed = some notice.window :=
    (kept_of_run hbefore).followed.allows hstep
  obtain ⟨front, claim, back, rfl, hkey⟩ := exists_claim hclaimed
  obtain ⟨s₂, s₃, hfront, hclaim, -⟩ := step_of_run hbefore
  obtain ⟨henabled, -, hrecord⟩ := claimed_fresh hclaim
  rw [hkey] at henabled hrecord
  exact ⟨front, claim, back, s₂, s₃, rfl, hkey, hfront, hclaim, henabled, _, hrecord, rfl⟩

/-- Whatever tasks and calls do, stopped, dropped or killed anywhere: a window identity is submitted at
most once, and only after a claim of the same task recorded it; a record leaves `sending` at most
once and then stays; every enabled or blocked subscription is on the default site as it now is. -/
theorem reminders_sent_once (h : Run Step (System.init A) ls s) :
    (∀ key, ls.countP (Label.submits key) ≤ 1) ∧
      (∀ before i notice r after, ls = before ++ .task i (.submit notice) r :: after →
        ClaimedIn before i notice.window) ∧
      (∀ ls' s', Run Step s ls' s' → ∀ key old, s.tables.deliveries.find? key = some old →
        ∃ new, s'.tables.deliveries.find? key = some new ∧ Moves old new) ∧
      (∀ l s', Step s l s' → ∀ key new, s.tables.deliveries.find? key = none →
        s'.tables.deliveries.find? key = some new → new.state = .sending) ∧
      ∀ subscription ∈ s.tables.subscriptions.rows, subscription.active = true →
        s.tables.settings.defaultSiteId = some subscription.siteId ∧
          ∃ site, s.tables.sites.find? subscription.siteId = some site ∧
            site.revision = subscription.siteRevision := by
  have hkept := kept_of_run h
  refine ⟨hkept.single.once, ?_, fun _ _ => delivers_of_run, ?_, hkept.sound.onDefault⟩
  · rintro before i notice r after rfl
    exact claimedIn_of_submit h
  · intro l s' hstep key new hnone hsome
    exact hstep.touches.delivers.fresh key new hnone hsome

end Once

/-! ## One afternoon -/

abbrev steadyAlmanac : Almanac where
  toAstronomy := steadySky
  localDate instant := localSeconds instant / day
  previousDay date := some (date - 1)

def homeInput : SiteInput steadyAlmanac :=
  ⟨"Home".toList, (52000 : Int), (4000 : Int), none, "UTC".toList⟩

def highTarget : TargetRecord steadyAlmanac.toAstronomy :=
  ⟨4, "M 81".toList, some ⟨(149000 : Int), (69000 : Int), "ICRS".toList⟩⟩

/-- An activation at the site saved first, `leadMinutes` ahead. -/
def activation (leadMinutes : Nat) (expected : Option Nat) : EnableReminders steadyAlmanac :=
  ⟨⟨highTarget.id, anHour, leadMinutes⟩, 1, 1, 1, expected⟩

def afternoon : Int := (10 * day + 13 * 3600) * second

/-- A Target, a default site and an activation half a day ahead, which starts the scheduler. -/
def activated : List (Move steadyAlmanac) :=
  [.tick afternoon, .saveTarget highTarget, .begin 0 .attachNotifier] ++
    List.replicate 6 (.call 0 0) ++ [.begin 1 (.saveSite none none homeInput)] ++
    List.replicate 6 (.call 1 1) ++ [.begin 2 (.setDefaultSite (some 1) 0)] ++
    List.replicate 6 (.call 2 0) ++ [.begin 3 (.enableReminders (activation 720 none))] ++
    List.replicate 14 (.call 3 0)

def tonight : WindowKey := ⟨highTarget.id, 1, (10 * day + 20 * 3600) * second⟩

def firstPass : List (Label steadyAlmanac) × System steadyAlmanac :=
  (System.init steadyAlmanac).play (activated ++ List.replicate 12 (.task 0))

theorem run_firstPass : Run Step (System.init steadyAlmanac) firstPass.1 firstPass.2 :=
  run_of_play _ _

theorem reminders_sent_once_of_firstPass :
    firstPass.1.countP (Label.submits tonight) = 1 ∧
      ∀ key, firstPass.1.countP (Label.submits key) ≤ 1 :=
  ⟨by decide +kernel, (reminders_sent_once run_firstPass).1⟩

end PlateVault.Reminders
