import PlateVault.Reminders.Records

/-!
# What the planning writes keep

What each write that succeeds did, and the two invariants of the tables: every enabled or blocked
subscription is on the default site at that site's current revision, and a delivery record moves only
out of `sending`, once.
-/

namespace PlateVault.Reminders

open Planning

section Writes

variable {A : Almanac} {t t' : Tables A}

/-! ## What each write did -/

theorem nextRevision_eq_ok {id : Uuid} {current expected : Option Nat} {what : String} {next : Nat}
    (h : nextRevision id current expected what = .ok next) :
    (current = none ∧ expected = none ∧ next = 1) ∨
      ∃ revision, current = some revision ∧ expected = some revision ∧ next = revision + 1 := by
  unfold nextRevision at h
  split at h
  · cases h
    exact .inl ⟨rfl, rfl, rfl⟩
  · cases h
  · split at h
    · next hsame =>
      cases h
      exact .inr ⟨_, rfl, hsame ▸ rfl, rfl⟩
    · cases h
  · cases h

/-- Which subscriptions a reconfirmation of `scope` moves. -/
def Reconfirm.moves (scope : Reconfirm) (subscription : ReminderSubscription A) : Bool :=
  subscription.active && scope.covers subscription.siteId

theorem reconfirm_eq_ok {scope : Reconfirm} {moved : List Uuid}
    (h : t.reconfirm scope = .ok (moved, t')) :
    t' = { t with
      subscriptions := t.subscriptions.updateWhere scope.moves
        ReminderSubscription.reconfirmed fun _ => rfl } := by
  simp only [Tables.reconfirm, Result.bind_eq_ok, Result.pure_eq_ok] at h
  obtain ⟨_, -, h⟩ := h
  cases h
  rfl

theorem saveSite_eq_ok {id : Option Uuid} {expected : Option Nat} {input : SiteInput A}
    {fresh : Uuid} {saved : SiteSaved A}
    (hpositive : ∀ site ∈ t.sites.rows, 0 < site.revision)
    (h : saveSite id expected input fresh t = .ok (saved, t')) :
    ∃ site : SavedSite A, 0 < site.revision ∧
      ((site.id = fresh ∧ t' = { t with sites := t.sites.upsert site }) ∨
        t' = { t with
          sites := t.sites.upsert site
          subscriptions := t.subscriptions.updateWhere (Reconfirm.onSite site.id).moves
            ReminderSubscription.reconfirmed fun _ => rfl }) := by
  simp only [saveSite, Result.bind_eq_ok] at h
  obtain ⟨_, -, current, hcurrent, next, hnext, h⟩ := h
  split at h
  · cases h
  · simp only [Result.bind_eq_ok] at h
    obtain ⟨_, -, h⟩ := h
    split at h
    · next hedit =>
      simp only [Result.bind_eq_ok, Result.pure_eq_ok] at h
      obtain ⟨⟨moved, t₁⟩, hmoved, h⟩ := h
      cases h
      exact ⟨_, by exact Nat.lt_of_succ_lt hedit, .inr (reconfirm_eq_ok hmoved)⟩
    · next hedit =>
      rcases nextRevision_eq_ok hnext with ⟨rfl, -, rfl⟩ | ⟨revision, rfl, -, rfl⟩
      · cases id with
        | none =>
          cases h
          exact ⟨_, Nat.one_pos, .inl ⟨rfl, rfl⟩⟩
        | some id =>
          simp only [Tables.currentRevision, Result.bind_eq_ok, Result.pure_eq_ok] at hcurrent
          obtain ⟨_, -, ⟨⟩⟩ := hcurrent
      · cases id with
        | none => cases hcurrent
        | some id =>
          simp only [Tables.currentRevision, Result.bind_eq_ok, Result.pure_eq_ok,
            Tables.loadSite, Result.orElse_eq_ok] at hcurrent
          obtain ⟨site, hsite, hrevision⟩ := hcurrent
          cases hrevision
          have := hpositive site (Table.find?_eq_some.mp hsite).1
          omega

theorem setDefaultSite_eq_ok {site : Option Uuid} {expected : Nat} {saved : DefaultSiteSaved}
    (h : setDefaultSite site expected t = .ok (saved, t')) :
    ∃ revision, t' = { t with
      settings := ⟨site, revision⟩
      subscriptions := t.subscriptions.updateWhere
        (defaultScope site).moves
        ReminderSubscription.reconfirmed fun _ => rfl } := by
  simp only [setDefaultSite, Result.bind_eq_ok] at h
  obtain ⟨_, -, _, -, _, -, ⟨moved, t₁⟩, hmoved, h⟩ := h
  cases h
  exact ⟨_, reconfirm_eq_ok hmoved⟩

structure Activated (write : SubscriptionWrite A) (t : Tables A)
    (subscription : ReminderSubscription A) (t' : Tables A) : Prop where
  row : ∃ next now, subscription = write.subscription next now
  defaultSite : t.settings.defaultSiteId = some write.siteId
  site : ∃ site, t.sites.find? write.siteId = some site ∧ site.revision = write.siteRevision
  newer : ∀ old, t.subscriptions.find? write.targetId = some old →
    old.revision < subscription.revision
  tables : t' = { t with subscriptions := t.subscriptions.upsert subscription }

theorem putReminderSubscription_eq_ok {write : SubscriptionWrite A} {now : Int}
    {subscription : ReminderSubscription A}
    (h : putReminderSubscription write now t = .ok (subscription, t')) :
    Activated write t subscription t' := by
  simp only [putReminderSubscription, Result.bind_eq_ok, Result.require_eq_ok,
    Bool.and_eq_true, decide_eq_true_eq, Result.orElse_eq_ok, Tables.loadSite] at h
  obtain ⟨_, -, _, -, _, -, default, hdefault, _, ⟨hsame, -⟩, site, hsite, _, hrevision, next, hnext,
    _, -, h⟩ := h
  cases h
  refine ⟨⟨next, now, rfl⟩, hsame ▸ hdefault, ⟨site, hsite, hrevision⟩, fun old hold => ?_, rfl⟩
  rcases nextRevision_eq_ok hnext with ⟨hnone, -, -⟩ | ⟨revision, hsome, -, rfl⟩
  · rw [hold] at hnone
    cases hnone
  · rw [hold] at hsome
    cases hsome
    exact Nat.lt_succ_self _

def ReminderSubscription.moved (state : SubscriptionState) (reason : Option BlockReason)
    (next : Nat) (subscription : ReminderSubscription A) : ReminderSubscription A :=
  { subscription with state, blockReason := reason, revision := next }

theorem setSubscriptionState_eq_ok {target : Uuid} {expected : Nat} {state : SubscriptionState}
    {reason : Option BlockReason} {subscription : ReminderSubscription A}
    (h : setSubscriptionState target expected state reason t = .ok (subscription, t')) :
    (∃ old, t.subscriptions.find? target = some old ∧ old.revision = expected) ∧
      state ≠ .enabled ∧
      t' = { t with
        subscriptions := t.subscriptions.modify target (.moved state reason (expected + 1))
          fun _ => rfl } := by
  simp only [setSubscriptionState, Result.bind_eq_ok, Result.require_eq_ok,
    Result.orElse_eq_ok] at h
  obtain ⟨_, hmovable, next, hnext, _, -, old, hold, h⟩ := h
  have hstate : state ≠ .enabled := by
    rintro rfl
    cases hmovable
  rcases nextRevision_eq_ok hnext with ⟨-, hexpected, -⟩ | ⟨revision, hfound, hexpected, rfl⟩
  · cases hexpected
  · cases hexpected
    rw [hold] at hfound
    cases hfound
    cases h
    exact ⟨⟨old, hold, rfl⟩, hstate, rfl⟩

theorem claimReminderDelivery_eq_ok {claim : DeliveryClaim A}
    (h : claimReminderDelivery claim t = .ok (true, t')) :
    t.enabledAt claim.key.targetId claim.key.siteId = true ∧
      ∃ deliveries, t.deliveries.insert?
        ⟨claim.key, claim.windowEndUtc, claim.night, claim.dueAt, .sending, none⟩ = some deliveries ∧
        t' = { t with deliveries } := by
  unfold claimReminderDelivery at h
  split at h
  · next henabled =>
    split at h
    · next deliveries hinsert =>
      cases h
      exact ⟨henabled, deliveries, hinsert, rfl⟩
    · cases h
  · cases h

theorem claimReminderDelivery_eq_false {claim : DeliveryClaim A}
    (h : claimReminderDelivery claim t = .ok (false, t')) : t' = t := by
  unfold claimReminderDelivery at h
  split at h
  · split at h
    · cases h
    · cases h
      rfl
  · cases h
    rfl

def ReminderDelivery.finished (outcome : DeliveryOutcome) (delivery : ReminderDelivery A) :
    ReminderDelivery A :=
  { delivery with state := outcome.state, reason := outcome.reason }

theorem finishReminderDelivery_eq_ok {key : WindowKey} {outcome : DeliveryOutcome}
    {delivery : ReminderDelivery A}
    (h : finishReminderDelivery key outcome t = .ok (delivery, t')) :
    (∃ old, t.deliveries.find? key = some old ∧ old.state = .sending) ∧
      t' = { t with deliveries := t.deliveries.modify key (.finished outcome) fun _ => rfl } := by
  simp only [finishReminderDelivery, Result.bind_eq_ok, Result.require_eq_ok,
    Result.orElse_eq_ok, decide_eq_true_eq] at h
  obtain ⟨old, hold, _, hsending, h⟩ := h
  cases h
  exact ⟨⟨old, hold, hsending⟩, rfl⟩

/-! ## The default site -/

/-- Sites count their revisions from 1; every enabled or blocked subscription is on the default site
at that site's current revision. -/
structure Tables.Sound (t : Tables A) : Prop where
  positive : ∀ site ∈ t.sites.rows, 0 < site.revision
  onDefault : ∀ subscription ∈ t.subscriptions.rows, subscription.active = true →
    t.settings.defaultSiteId = some subscription.siteId ∧
      ∃ site, t.sites.find? subscription.siteId = some site ∧
        site.revision = subscription.siteRevision

theorem active_of_reconfirm {scope : Reconfirm} {subscription : ReminderSubscription A}
    (h : subscription ∈ (t.subscriptions.updateWhere scope.moves
      ReminderSubscription.reconfirmed fun _ => rfl).rows) (hactive : subscription.active = true) :
    subscription ∈ t.subscriptions.rows ∧ scope.covers subscription.siteId = false := by
  obtain ⟨old, hold, rfl⟩ := (Table.mem_updateWhere _).mp h
  split at hactive
  · cases hactive
  · next hmoves =>
    rw [if_neg hmoves]
    simp only [Reconfirm.moves, Bool.and_eq_true, not_and, Bool.not_eq_true] at hmoves
    exact ⟨hold, hmoves hactive⟩

theorem positive_upsert {site : SavedSite A} (h : t.Sound) (hsite : 0 < site.revision) :
    ∀ s ∈ (t.sites.upsert site).rows, 0 < s.revision := by
  intro s hs
  rcases Table.mem_upsert.mp hs with rfl | ⟨hmem, -⟩
  · exact hsite
  · exact h.positive s hmem

theorem saveSite_sound {id : Option Uuid} {expected : Option Nat} {input : SiteInput A}
    {fresh : Uuid} {saved : SiteSaved A} (hsound : t.Sound) (hfresh : t.sites.find? fresh = none)
    (h : saveSite id expected input fresh t = .ok (saved, t')) : t'.Sound := by
  obtain ⟨site, hsite, ⟨rfl, rfl⟩ | rfl⟩ := saveSite_eq_ok hsound.positive h
  · refine ⟨positive_upsert hsound hsite, fun subscription hmem hactive => ?_⟩
    obtain ⟨hdefault, found, hfound, hrevision⟩ := hsound.onDefault subscription hmem hactive
    refine ⟨hdefault, found, ?_, hrevision⟩
    rw [Table.find?_upsert, if_neg, hfound]
    intro hid
    rw [hid, hfresh] at hfound
    cases hfound
  · refine ⟨positive_upsert hsound hsite, fun subscription hmem hactive => ?_⟩
    obtain ⟨hmem, hcovers⟩ := active_of_reconfirm hmem hactive
    obtain ⟨hdefault, found, hfound, hrevision⟩ := hsound.onDefault subscription hmem hactive
    refine ⟨hdefault, found, ?_, hrevision⟩
    rw [Table.find?_upsert, if_neg, hfound]
    exact of_decide_eq_false hcovers

theorem setDefaultSite_sound {site : Option Uuid} {expected : Nat} {saved : DefaultSiteSaved}
    (hsound : t.Sound) (h : setDefaultSite site expected t = .ok (saved, t')) : t'.Sound := by
  obtain ⟨revision, rfl⟩ := setDefaultSite_eq_ok h
  refine ⟨hsound.positive, fun subscription hmem hactive => ?_⟩
  obtain ⟨hmem, hcovers⟩ := active_of_reconfirm hmem hactive
  refine ⟨?_, (hsound.onDefault subscription hmem hactive).2⟩
  cases site with
  | none => cases hcovers
  | some site =>
    have : subscription.siteId = site := by simpa [defaultScope, Reconfirm.covers] using hcovers
    rw [this]

theorem Activated.sound {write : SubscriptionWrite A} {subscription : ReminderSubscription A}
    (hsound : t.Sound) (h : Activated write t subscription t') : t'.Sound := by
  obtain ⟨⟨next, now, rfl⟩, hdefault, hsite, -, rfl⟩ := h
  refine ⟨hsound.positive, fun subscription hmem hactive => ?_⟩
  rcases Table.mem_upsert.mp hmem with rfl | ⟨hmem, -⟩
  · exact ⟨hdefault, hsite⟩
  · exact hsound.onDefault subscription hmem hactive

/-- A move keeps the subscription where it is: into an inactive state from any, into `blocked` from an
active one. -/
theorem setSubscriptionState_sound {target : Uuid} {expected : Nat} {state : SubscriptionState}
    {reason : Option BlockReason} {subscription : ReminderSubscription A} (hsound : t.Sound)
    (h : setSubscriptionState target expected state reason t = .ok (subscription, t'))
    (hactive : state = .blocked → ∀ old, t.subscriptions.find? target = some old →
      old.active = true) : t'.Sound := by
  obtain ⟨-, hstate, rfl⟩ := setSubscriptionState_eq_ok h
  refine ⟨hsound.positive, fun subscription hmem hnow => ?_⟩
  rcases Table.mem_modify (t := t.subscriptions)
    (f := ReminderSubscription.moved state reason (expected + 1)) (fun _ => rfl) hmem with
    ⟨hmem, -⟩ | ⟨old, hold, htarget, rfl⟩
  · exact hsound.onDefault subscription hmem hnow
  · have hblocked : state = .blocked := by
      simp only [ReminderSubscription.active, ReminderSubscription.moved, Bool.or_eq_true] at hnow
      exact of_decide_eq_true (hnow.resolve_left fun h => hstate (of_decide_eq_true h))
    exact hsound.onDefault old hold
      (hactive hblocked old (Table.find?_eq_some.mpr ⟨hold, htarget⟩))

/-! ## Revisions only rise -/

/-- Every subscription is still there, as it was or at a later revision. -/
def Advances (t t' : Tables A) : Prop :=
  ∀ id old, t.subscriptions.find? id = some old →
    ∃ row, t'.subscriptions.find? id = some row ∧ (row = old ∨ old.revision < row.revision)

theorem Advances.refl (t : Tables A) : Advances t t := fun _ old h => ⟨old, h, .inl rfl⟩

theorem advances_of_subscriptions (h : t'.subscriptions = t.subscriptions) : Advances t t' :=
  fun _ old hold => ⟨old, h ▸ hold, .inl rfl⟩

theorem advances_of_reconfirm {scope : Reconfirm}
    (h : t'.subscriptions = t.subscriptions.updateWhere scope.moves
      ReminderSubscription.reconfirmed fun _ => rfl) : Advances t t' := by
  intro id old hold
  have hfind : t'.subscriptions.find? id = (t.subscriptions.find? id).map fun subscription =>
      if scope.moves subscription then subscription.reconfirmed else subscription := by
    rw [h]
    exact Table.find?_updateWhere _ _ _ _ id
  rw [hfind, hold]
  refine ⟨_, rfl, ?_⟩
  dsimp only
  split
  · exact .inr (Nat.lt_succ_self _)
  · exact .inl rfl

theorem Activated.advances {write : SubscriptionWrite A} {subscription : ReminderSubscription A}
    (h : Activated write t subscription t') : Advances t t' := by
  intro id old hold
  rw [h.tables, Table.find?_upsert]
  split
  · next hid =>
    refine ⟨subscription, rfl, .inr (h.newer old ?_)⟩
    obtain ⟨next, now, rfl⟩ := h.row
    rwa [hid] at hold
  · exact ⟨old, hold, .inl rfl⟩

theorem setSubscriptionState_advances {target : Uuid} {expected : Nat} {state : SubscriptionState}
    {reason : Option BlockReason} {subscription : ReminderSubscription A}
    (h : setSubscriptionState target expected state reason t = .ok (subscription, t')) :
    Advances t t' := by
  obtain ⟨⟨found, hfound, rfl⟩, -, rfl⟩ := setSubscriptionState_eq_ok h
  intro id old hold
  have hfind : (t.subscriptions.modify target (.moved state reason (found.revision + 1))
      fun _ => rfl).find? id = if id = target then
        (t.subscriptions.find? target).map (.moved state reason (found.revision + 1))
      else t.subscriptions.find? id := Table.find?_modify _ _ _ _ id
  rw [hfind]
  split
  · next hid =>
    subst hid
    rw [hfound] at hold
    cases hold
    rw [hfound]
    exact ⟨_, rfl, .inr (Nat.lt_succ_self _)⟩
  · exact ⟨old, hold, .inl rfl⟩

/-! ## Deliveries -/

/-- A record is as it was, or left `sending` with its outcome. -/
def Moves (old new : ReminderDelivery A) : Prop :=
  new = old ∨ old.state = .sending ∧ new.state ≠ .sending ∧
    new = { old with state := new.state, reason := new.reason }

theorem Moves.trans {a b c : ReminderDelivery A} (h : Moves a b) (h' : Moves b c) : Moves a c := by
  rcases h with rfl | ⟨hsending, hmoved, hsame⟩
  · exact h'
  · rcases h' with rfl | ⟨hagain, -, -⟩
    · exact .inr ⟨hsending, hmoved, hsame⟩
    · exact absurd hagain hmoved

/-- Every delivery record is still there, moved at most out of `sending`; a new one is `sending`. -/
structure Delivers (t t' : Tables A) : Prop where
  kept : ∀ key old, t.deliveries.find? key = some old →
    ∃ new, t'.deliveries.find? key = some new ∧ Moves old new
  fresh : ∀ key new, t.deliveries.find? key = none → t'.deliveries.find? key = some new →
    new.state = .sending

theorem delivers_of_deliveries (h : t'.deliveries = t.deliveries) : Delivers t t' := by
  refine ⟨fun key old hold => ⟨old, h ▸ hold, .inl rfl⟩, fun key new hnone hsome => ?_⟩
  rw [h, hnone] at hsome
  cases hsome

theorem claimReminderDelivery_delivers {claim : DeliveryClaim A}
    (h : claimReminderDelivery claim t = .ok (true, t')) : Delivers t t' := by
  obtain ⟨-, deliveries, hinsert, rfl⟩ := claimReminderDelivery_eq_ok h
  obtain ⟨hnone, -⟩ := Table.insert?_eq_some hinsert
  constructor
  · intro key old hold
    refine ⟨old, ?_, .inl rfl⟩
    rw [Table.find?_insert? hinsert, if_neg]
    · exact hold
    · rintro rfl
      rw [hnone] at hold
      cases hold
  · intro key new hbefore hafter
    rw [Table.find?_insert? hinsert] at hafter
    split at hafter
    · cases hafter
      rfl
    · rw [hbefore] at hafter
      cases hafter

theorem finishReminderDelivery_delivers {key : WindowKey} {outcome : DeliveryOutcome}
    {delivery : ReminderDelivery A}
    (h : finishReminderDelivery key outcome t = .ok (delivery, t')) : Delivers t t' := by
  obtain ⟨⟨found, hfound, hsending⟩, rfl⟩ := finishReminderDelivery_eq_ok h
  have hfind : ∀ k, (t.deliveries.modify key (.finished outcome) fun _ => rfl).find? k =
      if k = key then (t.deliveries.find? key).map (.finished outcome) else t.deliveries.find? k :=
    fun k => Table.find?_modify _ _ _ _ k
  constructor
  · intro k old hold
    rw [hfind]
    split
    · next hk =>
      subst hk
      rw [hfound] at hold
      cases hold
      rw [hfound]
      refine ⟨_, rfl, .inr ⟨hsending, ?_, rfl⟩⟩
      cases outcome <;> rintro ⟨⟩
    · exact ⟨old, hold, .inl rfl⟩
  · intro k new hbefore hafter
    rw [hfind] at hafter
    split at hafter
    · next hk =>
      subst hk
      rw [hbefore] at hafter
      cases hafter
    · rw [hbefore] at hafter
      cases hafter

theorem recoverSending_delivers (t : Tables A) : Delivers t (recoverSending t) := by
  have hfind : ∀ k, (recoverSending t).deliveries.find? k = (t.deliveries.find? k).map fun d =>
      if decide (d.state = .sending) then d.interrupted else d :=
    fun k => Table.find?_updateWhere t.deliveries _ ReminderDelivery.interrupted (fun _ => rfl) k
  constructor
  · intro key old hold
    rw [hfind, hold]
    refine ⟨_, rfl, ?_⟩
    dsimp only
    split
    · next hsending => exact .inr ⟨of_decide_eq_true hsending, by rintro ⟨⟩, rfl⟩
    · exact .inl rfl
  · intro key new hbefore hafter
    rw [hfind, hbefore] at hafter
    cases hafter

end Writes

end PlateVault.Reminders
