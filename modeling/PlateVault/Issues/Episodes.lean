import PlateVault.Issues.Dismissals

/-!
# Episodes of a location's issue

An episode lasts while a location's row raises the issue. What each transaction does to the rows and
the dismissals (`effect`), and from it what a run's dismissals hide: none of an episode before a
dismissal made during it, as long as each dismissal of a location's issue is written in the episode
it was read in.
-/

namespace PlateVault.Issues

open Library (Availability LocationLifecycle)

/-! ## Runs -/

/-- One transaction. A dismissal is of a fingerprint shown by a read made after `readAt` others. -/
inductive Event
  | register (id : Uuid) (name : Text)
  | rename (id : Uuid) (expected : Nat) (name : Text)
  | reselect (id : Uuid) (expected : Nat) (checks : Result Unit)
  | remap (id : Uuid) (expected : Nat) (checks : Result Unit)
  | markUnavailable (id : Uuid) (availability : Availability) (reason : Text)
  | scan (id : Uuid) (running verified applied : Result Unit)
  | retire (id : Uuid) (expected : Nat) (checks : Result Unit)
  | dismiss (readAt : Nat) (fingerprint : Text)
  | restore (fingerprint : Text)
  | retryImport (id : Uuid)
  | elsewhere (sources : List Source)

namespace Catalog

/-- The catalog after a transaction: as it was where the call fails before it commits. -/
def commit (c : Catalog) (written : Result Catalog) : Catalog :=
  match written with
  | .ok c' => c'
  | .error _ => c

def next (c : Catalog) : Event → Catalog
  | .register id name => c.commit (c.insertLocation id name)
  | .rename id expected name => c.commit (c.renameLocation id expected name)
  | .reselect id expected checks => c.commit (c.reselectLocation id expected checks)
  | .remap id expected checks => c.commit (c.applyRemap id expected checks)
  | .markUnavailable id availability reason =>
    c.commit (c.markLocationUnavailable id availability reason)
  | .scan id running verified applied =>
    c.commit (Prod.fst <$> c.applyScan id running verified applied)
  | .retire id expected checks => c.commit (c.applyRetire id expected checks)
  | .dismiss _ fingerprint => c.commit (c.dismissIssue fingerprint)
  | .restore fingerprint => c.commit (c.restoreIssue fingerprint)
  | .retryImport id => c.retryImport id
  | .elsewhere sources => { c with sources }

def status (c : Catalog) (id : Uuid) : Option (Availability × LocationLifecycle) :=
  (c.locations.find? id).map fun location => (location.availability, location.lifecycle)

/-- Location `id` is active and raises the issue of `kind`. -/
def Standing (c : Catalog) (id : Uuid) (kind : IssueKind) : Prop :=
  ∃ availability, c.status id = some (availability, .active) ∧
    IssueKind.ofLocation availability = some kind

end Catalog

def stateAt (events : List Event) (n : Nat) : Catalog := (events.take n).foldl Catalog.next .new

theorem stateAt_succ {events : List Event} {n : Nat} {event : Event} (h : events[n]? = some event) :
    stateAt events (n + 1) = (stateAt events n).next event := by
  rw [stateAt, List.take_add_one, h, List.foldl_append]
  rfl

def IssueKind.IsLocation (kind : IssueKind) : Prop := kind = .locationDenied ∨ kind = .locationOffline

theorem isLocation_of_ofLocation {availability : Availability} {kind : IssueKind}
    (h : IssueKind.ofLocation availability = some kind) : kind.IsLocation := by
  cases availability <;> cases h
  · exact .inr rfl
  · exact .inr rfl
  · exact .inl rfl
  · exact .inl rfl

/-- The fingerprint of location `id`'s issue of `kind`. -/
def locationFingerprint (kind : IssueKind) (id : Uuid) : Text :=
  (Issue.new kind (.location id) (some id) 1 none none).fingerprint

/-! ## What a transaction does -/

namespace Catalog

variable {c c' : Catalog}

/-- What a transaction does to the locations' statuses and the dismissals. -/
inductive Effect (c c' : Catalog) : Event → Prop
  | quiet {event}
      (hstatus : ∀ id, c'.status id = c.status id ∨
        c.status id = none ∧ c'.status id = some (.available, .active) ∨
          ∃ availability lifecycle, c.status id = some (availability, lifecycle) ∧
            c'.status id = some (availability, .retired))
      (hdismissals : c'.dismissals = c.dismissals) : Effect c c' event
  | wrote {event} (id : Uuid) (next : Availability)
      (hstatus : ∀ other, c'.status other =
        if other = id then (c.status id).map fun status => (next, status.2) else c.status other)
      (hdismissals : c'.dismissals = (c.endAvailabilityIssue id next).dismissals) : Effect c c' event
  | dismissed {readAt fingerprint} (hstatus : c'.status = c.status)
      (hdismissals : ∀ other,
        other ∈ c'.dismissals ↔ other ∈ c.dismissals ∨ other = fingerprint) :
      Effect c c' (.dismiss readAt fingerprint)
  | restored {fingerprint} (hstatus : c'.status = c.status)
      (hdismissals : ∀ other, other ∈ c'.dismissals ↔ other ∈ c.dismissals ∧ other ≠ fingerprint) :
      Effect c c' (.restore fingerprint)
  | retried {id} (hstatus : c'.status = c.status)
      (hdismissals : c'.dismissals = (c.forgetDismissal .workInterrupted id).dismissals)
      (hsources : ∀ source ∈ c'.sources, source.kind ≠ .workInterrupted ∨ source.about ≠ some id) :
      Effect c c' (.retryImport id)

theorem effect_refl (c : Catalog) (event : Event) : Effect c c event := .quiet (fun _ => .inl rfl) rfl

theorem endAvailabilityIssue_locations (id : Uuid) (next : Availability) :
    (c.endAvailabilityIssue id next).locations = c.locations := by
  unfold endAvailabilityIssue
  split
  · rfl
  · split
    · rfl
    · split <;> rfl

theorem mem_ended {id : Uuid} {next : Availability} {fingerprint : Text} :
    fingerprint ∈ (c.endAvailabilityIssue id next).dismissals ↔ fingerprint ∈ c.dismissals ∧
      ∀ availability lifecycle ended, c.status id = some (availability, lifecycle) →
        IssueKind.ofLocation availability = some ended → IssueKind.ofLocation next ≠ some ended →
          ¬ Issue.fingerprintPrefix ended (some id) <+: fingerprint := by
  unfold endAvailabilityIssue status
  cases hfind : c.locations.find? id with
  | none => simp
  | some location =>
    simp only [Option.map_some, Option.some.injEq, Prod.mk.injEq]
    cases hended : IssueKind.ofLocation location.availability with
    | none =>
      rw [iff_self_and]
      rintro - _ _ ended ⟨rfl, rfl⟩ h
      rw [hended] at h
      cases h
    | some ended =>
      by_cases hnext : IssueKind.ofLocation next = some ended
      · simp only [hnext, if_true]
        rw [iff_self_and]
        rintro - _ _ other ⟨rfl, rfl⟩ h hne
        rw [hended] at h
        exact absurd h hne
      · simp only [hnext, if_false, forgetDismissal, List.mem_filter, Bool.not_eq_true']
        refine and_congr_right fun _ => ?_
        rw [← Bool.not_eq_true, List.isPrefixOf_iff_prefix]
        constructor
        · rintro hstarts _ _ other ⟨rfl, rfl⟩ h -
          rw [hended] at h
          cases h
          exact hstarts
        · exact fun h => h _ _ ended ⟨rfl, rfl⟩ hended hnext

theorem status_updateLocation (id other : Uuid) {f : Location → Location} (hf : ∀ l, (f l).id = l.id) :
    (c.updateLocation id f hf).status other =
      if other = id then (c.locations.find? id).map fun l => ((f l).availability, (f l).lifecycle)
      else c.status other := by
  rw [status, updateLocation, Table.find?_modify]
  split
  · rw [Option.map_map]
    rfl
  · rfl

theorem writeAvailability_effect {event : Event} (id : Uuid) (next : Availability) :
    Effect c (c.writeAvailability id next) event := by
  refine .wrote id next (fun other => ?_) rfl
  rw [writeAvailability, status_updateLocation, endAvailabilityIssue_locations]
  split
  · rw [status, Option.map_map]
    rfl
  · rw [status, endAvailabilityIssue_locations, status]

theorem reopen_effect {event : Event} (id : Uuid) : Effect c (c.reopen id) event := by
  refine .wrote id .available (fun other => ?_) rfl
  rw [reopen, status_updateLocation, endAvailabilityIssue_locations]
  split
  · rw [status, Option.map_map]
    rfl
  · rw [status, endAvailabilityIssue_locations, status]

theorem commit_effect {event : Event} {written : Result Catalog}
    (h : ∀ c', written = .ok c' → Effect c c' event) : Effect c (c.commit written) event := by
  cases written with
  | error => exact c.effect_refl event
  | ok c' => exact h c' rfl

theorem insertLocation_effect {event : Event} (id : Uuid) (name : Text) :
    Effect c (c.commit (c.insertLocation id name)) event := by
  refine commit_effect fun c' h => ?_
  obtain ⟨locations, hinsert, h⟩ := Result.bind_eq_ok.mp h
  cases h
  have hfind := Table.find?_insert? (Result.orElse_eq_ok.mp hinsert)
  have hfresh := (Table.insert?_eq_some (Result.orElse_eq_ok.mp hinsert)).1
  refine .quiet (fun other => ?_) rfl
  simp only [status, hfind]
  by_cases hid : other = id
  · subst hid
    exact .inr (.inl ⟨by rw [hfresh]; rfl, by rw [if_pos rfl]; rfl⟩)
  · exact .inl (by rw [if_neg hid])

theorem renameLocation_effect {event : Event} (id : Uuid) (expected : Nat) (name : Text) :
    Effect c (c.commit (c.renameLocation id expected name)) event := by
  refine commit_effect fun c' h => ?_
  obtain ⟨_, _, h⟩ := Result.bind_eq_ok.mp h
  obtain ⟨_, _, h⟩ := Result.bind_eq_ok.mp h
  cases h
  refine .quiet (fun other => .inl ?_) rfl
  rw [status_updateLocation]
  split
  · next hid => rw [hid, status]
  · rfl

theorem applyRetire_effect {event : Event} (id : Uuid) (expected : Nat) (checks : Result Unit) :
    Effect c (c.commit (c.applyRetire id expected checks)) event := by
  refine commit_effect fun c' h => ?_
  obtain ⟨location, hload, h⟩ := Result.bind_eq_ok.mp h
  obtain ⟨_, _, h⟩ := Result.bind_eq_ok.mp h
  obtain ⟨_, _, h⟩ := Result.bind_eq_ok.mp h
  obtain ⟨_, _, h⟩ := Result.bind_eq_ok.mp h
  cases h
  refine .quiet (fun other => ?_) rfl
  rw [status_updateLocation]
  split
  · next hid =>
    have hfind := Result.orElse_eq_ok.mp hload
    rw [hid, status, hfind]
    exact .inr (.inr ⟨_, _, rfl, rfl⟩)
  · exact .inl rfl

theorem reselectLocation_effect {event : Event} (id : Uuid) (expected : Nat)
    (checks : Result Unit) : Effect c (c.commit (c.reselectLocation id expected checks)) event := by
  refine commit_effect fun c' h => ?_
  obtain ⟨_, _, h⟩ := Result.bind_eq_ok.mp h
  obtain ⟨_, _, h⟩ := Result.bind_eq_ok.mp h
  obtain ⟨_, _, h⟩ := Result.bind_eq_ok.mp h
  obtain ⟨_, _, h⟩ := Result.bind_eq_ok.mp h
  cases h
  exact reopen_effect id

theorem applyRemap_effect {event : Event} (id : Uuid) (expected : Nat) (checks : Result Unit) :
    Effect c (c.commit (c.applyRemap id expected checks)) event := by
  refine commit_effect fun c' h => ?_
  obtain ⟨_, _, h⟩ := Result.bind_eq_ok.mp h
  obtain ⟨_, _, h⟩ := Result.bind_eq_ok.mp h
  obtain ⟨_, _, h⟩ := Result.bind_eq_ok.mp h
  obtain ⟨_, _, h⟩ := Result.bind_eq_ok.mp h
  cases h
  exact reopen_effect id

theorem markLocationUnavailable_effect {event : Event} (id : Uuid) (availability : Availability)
    (reason : Text) :
    Effect c (c.commit (c.markLocationUnavailable id availability reason)) event := by
  refine commit_effect fun c' h => ?_
  obtain ⟨_, _, h⟩ := Result.bind_eq_ok.mp h
  obtain ⟨_, _, h⟩ := Result.bind_eq_ok.mp h
  obtain ⟨_, _, h⟩ := Result.bind_eq_ok.mp h
  obtain ⟨_, _, h⟩ := Result.bind_eq_ok.mp h
  cases h
  exact writeAvailability_effect id availability

theorem applyScan_effect {event : Event} (id : Uuid) (running verified applied : Result Unit) :
    Effect c (c.commit (Prod.fst <$> c.applyScan id running verified applied)) event := by
  refine commit_effect fun c' h => ?_
  obtain ⟨result, hscan, rfl⟩ := Result.map_eq_ok.mp h
  obtain ⟨_, _, hscan⟩ := Result.bind_eq_ok.mp hscan
  obtain ⟨_, _, hscan⟩ := Result.bind_eq_ok.mp hscan
  cases verified with
  | error error =>
    obtain ⟨_, _, hscan⟩ := Result.bind_eq_ok.mp hscan
    cases hscan
    exact writeAvailability_effect id _
  | ok =>
    obtain ⟨_, _, hscan⟩ := Result.bind_eq_ok.mp hscan
    cases hscan
    exact writeAvailability_effect id .available

theorem dismissIssue_effect (readAt : Nat) (fingerprint : Text) :
    Effect c (c.commit (c.dismissIssue fingerprint)) (.dismiss readAt fingerprint) := by
  refine commit_effect fun c' h => ?_
  obtain ⟨_, _, h⟩ := Result.bind_eq_ok.mp h
  cases h
  split
  · next hmem =>
    refine .dismissed rfl fun other => ⟨.inl, fun h => ?_⟩
    rcases h with h | rfl
    · exact h
    · exact hmem
  · exact .dismissed rfl fun other => by simp

theorem restoreIssue_effect (fingerprint : Text) :
    Effect c (c.commit (c.restoreIssue fingerprint)) (.restore fingerprint) := by
  refine commit_effect fun c' h => ?_
  obtain ⟨_, _, h⟩ := Result.bind_eq_ok.mp h
  obtain ⟨_, _, h⟩ := Result.bind_eq_ok.mp h
  cases h
  exact .restored rfl fun other => by simp

theorem retryImport_effect (id : Uuid) : Effect c (c.retryImport id) (.retryImport id) := by
  refine .retried rfl rfl fun source hsource => ?_
  have hkept := (List.mem_filter.mp hsource).2
  simpa using hkept

theorem effect (event : Event) : Effect c (c.next event) event := by
  cases event with
  | register id name => exact insertLocation_effect id name
  | rename id expected name => exact renameLocation_effect id expected name
  | reselect id expected checks => exact reselectLocation_effect id expected checks
  | remap id expected checks => exact applyRemap_effect id expected checks
  | markUnavailable id availability reason =>
    exact markLocationUnavailable_effect id availability reason
  | scan id running verified applied => exact applyScan_effect id running verified applied
  | retire id expected checks => exact applyRetire_effect id expected checks
  | dismiss readAt fingerprint => exact dismissIssue_effect readAt fingerprint
  | restore fingerprint => exact restoreIssue_effect fingerprint
  | retryImport id => exact retryImport_effect id
  | elsewhere sources => exact .quiet (fun _ => .inl rfl) rfl

/-! ## The issue standing -/

/-- The issue location `id` raises by its availability, whatever its lifecycle. -/
def Raises (c : Catalog) (id : Uuid) (kind : IssueKind) : Prop :=
  ∃ availability lifecycle, c.status id = some (availability, lifecycle) ∧
    IssueKind.ofLocation availability = some kind

theorem Standing.raises {id : Uuid} {kind : IssueKind} (h : c.Standing id kind) :
    c.Raises id kind := by
  obtain ⟨availability, hstatus, hkind⟩ := h
  exact ⟨availability, .active, hstatus, hkind⟩

/-- A location that does not raise an issue has no dismissal of it. -/
def Clean (c : Catalog) : Prop :=
  ∀ id kind, kind.IsLocation → ¬ c.Raises id kind → locationFingerprint kind id ∉ c.dismissals

theorem fingerprintPrefix_locationFingerprint (kind : IssueKind) (id : Uuid) :
    Issue.fingerprintPrefix kind (some id) <+: locationFingerprint kind id := by
  refine ⟨decimal 1 ++ '|' :: bytesText none, ?_⟩
  simp [Issue.fingerprintPrefix, locationFingerprint, Issue.new]

theorem locationFingerprint_injective {kind kind' : IssueKind} {id id' : Uuid}
    (h : locationFingerprint kind id = locationFingerprint kind' id') : kind = kind' ∧ id = id' := by
  obtain ⟨rest, hrest⟩ := fingerprintPrefix_locationFingerprint kind id
  rw [h] at hrest
  obtain ⟨hkind, hid⟩ := prefix_fingerprint hrest
  exact ⟨hkind, Option.some.inj hid⟩

theorem Clean.next {event : Event} (h : c.Clean)
    (hdismiss : ∀ readAt id kind, kind.IsLocation →
      event = .dismiss readAt (locationFingerprint kind id) → c.Raises id kind) :
    (c.next event).Clean := by
  have heffect := c.effect event
  revert heffect
  generalize c.next event = c'
  intro heffect id kind hlocation hnot
  cases heffect with
  | quiet hstatus hdismissals =>
    rw [hdismissals]
    rcases hstatus id with hsame | ⟨hnone, -⟩ | hretired
    · refine h id kind hlocation fun hraises => hnot ?_
      obtain ⟨availability, lifecycle, hwas, hkind⟩ := hraises
      exact ⟨availability, lifecycle, hsame.trans hwas, hkind⟩
    · refine h id kind hlocation fun hraises => ?_
      obtain ⟨availability, lifecycle, hwas, hkind⟩ := hraises
      rw [hnone] at hwas
      cases hwas
    · obtain ⟨availability, lifecycle, hwas, his⟩ := hretired
      refine h id kind hlocation fun hraises => hnot ?_
      obtain ⟨availability', lifecycle', hwas', hkind⟩ := hraises
      rw [hwas] at hwas'
      cases hwas'
      exact ⟨availability, .retired, his, hkind⟩
  | wrote written next hstatus hdismissals =>
    rw [hdismissals, mem_ended]
    rintro ⟨hmem, hkept⟩
    have hraises : c.Raises id kind := by
      by_contra hwas
      exact h id kind hlocation hwas hmem
    obtain ⟨availability, lifecycle, hwas, hkind⟩ := hraises
    by_cases hid : id = written
    · subst hid
      have his := hstatus id
      rw [if_pos rfl, hwas] at his
      refine hkept availability lifecycle kind hwas hkind (fun hnext => hnot ?_)
        (fingerprintPrefix_locationFingerprint kind id)
      exact ⟨next, lifecycle, his, hnext⟩
    · have his := hstatus id
      rw [if_neg hid, hwas] at his
      exact hnot ⟨availability, lifecycle, his, hkind⟩
  | @dismissed readAt fingerprint hstatus hdismissals =>
    rw [hdismissals]
    have hwas : ¬ c.Raises id kind := by
      rwa [Raises, ← hstatus]
    rintro (hmem | hsame)
    · exact h id kind hlocation hwas hmem
    · exact hwas (hdismiss readAt id kind hlocation (by rw [hsame]))
  | restored hstatus hdismissals =>
    rw [hdismissals]
    have hwas : ¬ c.Raises id kind := by
      rwa [Raises, ← hstatus]
    exact fun hmem => h id kind hlocation hwas hmem.1
  | retried hstatus hdismissals =>
    rw [hdismissals]
    have hwas : ¬ c.Raises id kind := by
      rwa [Raises, ← hstatus]
    exact fun hmem => h id kind hlocation hwas (List.mem_filter.mp hmem).1

theorem mem_currentIssues {issue : Issue} (h : issue ∈ c.currentIssues) :
    (∃ id, c.Standing id issue.kind ∧ issue.fingerprint = locationFingerprint issue.kind id) ∨
      ∃ source ∈ c.sources, issue = source.issue := by
  rcases List.mem_append.mp h with h | h
  · obtain ⟨location, hmem, hissue⟩ := List.mem_filterMap.mp h
    unfold locationIssue at hissue
    split at hissue
    · next hactive =>
      obtain ⟨kind, hkind, rfl⟩ := Option.map_eq_some_iff.mp hissue
      refine .inl ⟨location.id, ⟨location.availability, ?_, hkind⟩, rfl⟩
      rw [status, Table.find?_of_mem hmem, Option.map_some, hactive]
    · cases hissue
  · obtain ⟨source, hsource, rfl⟩ := List.mem_map.mp h
    exact .inr ⟨source, hsource, rfl⟩

theorem Standing.current {id : Uuid} {kind : IssueKind} (h : c.Standing id kind) :
    ∃ issue ∈ c.currentIssues, issue.kind = kind ∧ issue.fingerprint = locationFingerprint kind id := by
  obtain ⟨availability, hstatus, hkind⟩ := h
  obtain ⟨location, hfind, heq⟩ := Option.map_eq_some_iff.mp hstatus
  obtain ⟨hmem, rfl⟩ := Table.find?_eq_some.mp hfind
  obtain ⟨rfl, hactive⟩ := Prod.mk.inj heq
  refine ⟨.new kind (.location location.id) (some location.id) 1 none (some location.name),
    List.mem_append_left _ (List.mem_filterMap.mpr ⟨location, hmem, ?_⟩), rfl, rfl⟩
  rw [locationIssue, if_pos hactive, hkind]
  rfl

theorem current_of_prefix {kind : IssueKind} {id : Uuid} {issue : Issue}
    (hmem : issue ∈ c.currentIssues)
    (hstarts : Issue.fingerprintPrefix kind (some id) <+: issue.fingerprint) :
    c.Standing id kind ∨ ∃ source ∈ c.sources, source.kind = kind ∧ source.about = some id := by
  obtain ⟨rest, hrest⟩ := hstarts
  rcases mem_currentIssues hmem with ⟨other, hstanding, hfingerprint⟩ | ⟨source, hsource, rfl⟩
  · rw [hfingerprint] at hrest
    obtain ⟨hkind, hid⟩ := prefix_fingerprint hrest
    rw [hkind, Option.some.inj hid]
    exact .inl hstanding
  · obtain ⟨hkind, habout⟩ := prefix_fingerprint hrest
    exact .inr ⟨source, hsource, hkind.symm, habout.symm⟩

theorem kept_of_current {event : Event} {fingerprint : Text} (h : fingerprint ∈ c.dismissals)
    (hrestore : event ≠ .restore fingerprint)
    (hcurrent : ∃ issue ∈ (c.next event).currentIssues, issue.fingerprint = fingerprint) :
    fingerprint ∈ (c.next event).dismissals := by
  have heffect := c.effect event
  revert heffect hcurrent
  generalize c.next event = c'
  rintro ⟨issue, hmem, rfl⟩ heffect
  cases heffect with
  | quiet hstatus hdismissals => rwa [hdismissals]
  | wrote id next hstatus hdismissals =>
    rw [hdismissals, mem_ended]
    refine ⟨h, fun availability lifecycle ended hwas hended hnext hstarts => ?_⟩
    rcases current_of_prefix hmem hstarts with ⟨_, his, hkind⟩ | ⟨source, _, hkind, _⟩
    · rw [hstatus, if_pos rfl, hwas] at his
      cases his
      exact hnext hkind
    · rcases isLocation_of_ofLocation hended with hdenied | hoffline
      · exact source.elsewhere.1 (hkind.trans hdenied)
      · exact source.elsewhere.2 (hkind.trans hoffline)
  | dismissed hstatus hdismissals => exact (hdismissals _).mpr (.inl h)
  | restored hstatus hdismissals =>
    refine (hdismissals _).mpr ⟨h, fun hsame => hrestore ?_⟩
    rw [hsame]
  | @retried id hstatus hdismissals hsources =>
    rw [hdismissals]
    refine List.mem_filter.mpr ⟨h, ?_⟩
    rw [Bool.not_eq_true', ← Bool.not_eq_true, List.isPrefixOf_iff_prefix]
    intro hstarts
    rcases current_of_prefix hmem hstarts with ⟨_, _, hkind⟩ | ⟨source, hsource, hkind, habout⟩
    · rcases isLocation_of_ofLocation hkind with h | h <;> cases h
    · rcases hsources source hsource with hne | hne
      · exact hne hkind
      · exact hne habout

end Catalog

/-! ## Runs -/

/-- The fingerprint of each dismissal is one that its read showed. -/
def Shown (events : List Event) : Prop :=
  ∀ i readAt fingerprint, events[i]? = some (.dismiss readAt fingerprint) → readAt ≤ i ∧
    ∃ issue ∈ (stateAt events readAt).currentIssues,
      issue.dismissable = true ∧ issue.fingerprint = fingerprint

/-- Each dismissal of a location's issue is written while the episode it was read in lasts. -/
def Timely (events : List Event) : Prop :=
  ∀ i readAt id kind, kind.IsLocation →
    events[i]? = some (.dismiss readAt (locationFingerprint kind id)) →
      readAt ≤ i ∧ ∀ j, readAt ≤ j → j ≤ i → (stateAt events j).Standing id kind

/-- Location `id`'s issue of `kind` begins with the transaction before `first` and stands until
`last`. -/
structure Episode (events : List Event) (id : Uuid) (kind : IssueKind) (first last : Nat) : Prop where
  pos : 0 < first
  le : first ≤ last
  length : last ≤ events.length
  begins : ¬ (stateAt events (first - 1)).Standing id kind
  standing : ∀ j, first ≤ j → j ≤ last → (stateAt events j).Standing id kind

section Runs

variable {events : List Event}

theorem clean_new : Catalog.new.Clean := fun _ _ _ _ => List.not_mem_nil

theorem clean_stateAt (h : Timely events) (n : Nat) (hn : n ≤ events.length) :
    (stateAt events n).Clean := by
  induction n with
  | zero => exact clean_new
  | succ n ih =>
    have hevent := List.getElem?_eq_getElem (Nat.lt_of_succ_le hn)
    rw [stateAt_succ hevent]
    refine (ih (by omega)).next fun readAt id kind hlocation heq => ?_
    rw [heq] at hevent
    obtain ⟨hle, hstands⟩ := h n readAt id kind hlocation hevent
    exact (hstands n hle le_rfl).raises

theorem not_dismissed (h : Timely events) {id : Uuid} {kind : IssueKind} (hkind : kind.IsLocation)
    {first last : Nat} (hepisode : Episode events id kind first last)
    (hnone : ∀ i readAt, i < last → first ≤ readAt →
      events[i]? ≠ some (.dismiss readAt (locationFingerprint kind id))) :
    locationFingerprint kind id ∉ (stateAt events last).dismissals := by
  obtain ⟨hpos, hle, hlength, hbegins, hstanding⟩ := hepisode
  induction last with
  | zero => omega
  | succ last ih =>
    have hevent := List.getElem?_eq_getElem (Nat.lt_of_succ_le hlength)
    have heffect := (stateAt events last).effect events[last]
    rw [← stateAt_succ hevent] at heffect
    generalize events[last] = event at hevent heffect
    by_cases hfirst : first = last + 1
    · -- The transaction that begins the episode: the row did not raise the issue before it.
      subst hfirst
      rw [Nat.add_sub_cancel] at hbegins
      have hclean := clean_stateAt h last (by omega)
      obtain ⟨availability, his, hnow⟩ := hstanding (last + 1) le_rfl le_rfl
      cases heffect with
      | quiet hstatus hdismissals =>
        exfalso
        rcases hstatus id with hsame | ⟨-, havailable⟩ | ⟨_, _, -, hretired⟩
        · exact hbegins ⟨availability, hsame.symm.trans his, hnow⟩
        · rw [havailable] at his
          cases his
          cases hnow
        · rw [hretired] at his
          cases his
      | wrote written next hstatus hdismissals =>
        have hwas := hstatus id
        rw [his] at hwas
        by_cases hid : id = written
        · rw [if_pos hid] at hwas
          obtain ⟨⟨was, lifecycle⟩, hfound, heq⟩ := Option.map_eq_some_iff.mp hwas.symm
          obtain ⟨-, rfl⟩ := Prod.mk.inj heq
          rw [← hid] at hfound
          rw [hdismissals, Catalog.mem_ended]
          refine fun hmem => hclean id kind hkind (fun hraises => hbegins ?_) hmem.1
          obtain ⟨was', lifecycle', hfound', hraised⟩ := hraises
          rw [hfound] at hfound'
          cases hfound'
          exact ⟨was, hfound, hraised⟩
        · rw [if_neg hid] at hwas
          exact absurd ⟨availability, hwas.symm, hnow⟩ hbegins
      | dismissed hstatus | restored hstatus | retried hstatus =>
        rw [hstatus] at his
        exact absurd ⟨availability, his, hnow⟩ hbegins
    · have hbefore := ih (fun i readAt hi => hnone i readAt (by omega)) (by omega) (by omega)
        fun j hj hj' => hstanding j hj (by omega)
      intro hmem
      cases heffect with
      | quiet hstatus hdismissals => exact hbefore (hdismissals ▸ hmem)
      | wrote written next hstatus hdismissals =>
        rw [hdismissals, Catalog.mem_ended] at hmem
        exact hbefore hmem.1
      | @dismissed readAt fingerprint hstatus hdismissals =>
        rcases (hdismissals _).mp hmem with hmem | rfl
        · exact hbefore hmem
        · -- A read made before this episode: the issue did not stand from it to here.
          obtain ⟨-, hstands⟩ := h last readAt id kind hkind hevent
          by_cases hread : first ≤ readAt
          · exact hnone last readAt (by omega) hread hevent
          · exact hbegins (hstands (first - 1) (by omega) (by omega))
      | restored hstatus hdismissals => exact hbefore ((hdismissals _).mp hmem).1
      | retried hstatus hdismissals =>
        rw [hdismissals] at hmem
        exact hbefore (List.mem_filter.mp hmem).1

theorem stays_dismissed {i readAt n : Nat} {fingerprint : Text}
    (hdismiss : events[i]? = some (.dismiss readAt fingerprint))
    (htaken : Catalog.requireFingerprint fingerprint = .ok ()) (hin : i < n)
    (hn : n ≤ events.length)
    (hcurrent : ∀ j, i < j → j ≤ n → ∃ issue ∈ (stateAt events j).currentIssues,
      issue.fingerprint = fingerprint)
    (hrestore : ∀ j, i < j → j < n → events[j]? ≠ some (.restore fingerprint)) :
    fingerprint ∈ (stateAt events n).dismissals := by
  induction n with
  | zero => omega
  | succ n ih =>
    have hevent := List.getElem?_eq_getElem (Nat.lt_of_succ_le hn)
    by_cases hfirst : i = n
    · subst hfirst
      rw [stateAt_succ hdismiss]
      simp only [Catalog.next, Catalog.dismissIssue, htaken, bind, Except.bind, pure, Except.pure,
        Catalog.commit]
      split
      · assumption
      · exact List.mem_append_right _ (List.mem_singleton_self _)
    · have hbefore := ih (by omega) (by omega) (fun j hj hj' => hcurrent j hj (by omega))
        fun j hj hj' => hrestore j hj (by omega)
      have hnow := hcurrent (n + 1) (by omega) le_rfl
      rw [stateAt_succ hevent] at hnow ⊢
      refine Catalog.kept_of_current hbefore (fun heq => hrestore n (by omega) (by omega) ?_) hnow
      rw [hevent, heq]

end Runs

/-- In every run whose dismissals of a location's issue are each written while the episode they were
read in lasts, an offline or denied issue that begins again is listed as not dismissed until it is
dismissed from a read made since. In every run a dismissed issue that is not restored is listed as
dismissed as long as it is current. -/
theorem dismissal_ends_with_episode (events : List Event) :
    (Timely events → ∀ id kind first last, kind.IsLocation → Episode events id kind first last →
      (∀ i readAt, i < last → first ≤ readAt →
        events[i]? ≠ some (.dismiss readAt (locationFingerprint kind id))) →
      (∃ issue ∈ (stateAt events last).issues.issues,
        issue.kind = kind ∧ issue.fingerprint = locationFingerprint kind id) ∧
      ∀ issue ∈ (stateAt events last).issues.dismissed,
        issue.fingerprint ≠ locationFingerprint kind id) ∧
    ∀ i readAt n fingerprint, events[i]? = some (.dismiss readAt fingerprint) →
      Catalog.requireFingerprint fingerprint = .ok () → i < n → n ≤ events.length →
      (∀ j, i < j → j ≤ n → ∃ issue ∈ (stateAt events j).currentIssues,
        issue.fingerprint = fingerprint) →
      (∀ j, i < j → j < n → events[j]? ≠ some (.restore fingerprint)) →
      ∀ issue ∈ (stateAt events n).currentIssues, issue.dismissable = true →
        issue.fingerprint = fingerprint → issue ∈ (stateAt events n).issues.dismissed ∧
          issue ∉ (stateAt events n).issues.issues := by
  constructor
  · intro htimely id kind first last hkind hepisode hnone
    have hfresh := not_dismissed htimely hkind hepisode hnone
    obtain ⟨hissues, hdismissed⟩ := IssueView.split_spec (stateAt events last).currentIssues
      (stateAt events last).dismissals
    constructor
    · obtain ⟨issue, hmem, hissue, hfingerprint⟩ :=
        (hepisode.standing last hepisode.le le_rfl).current
      refine ⟨issue, ?_, hissue, hfingerprint⟩
      rw [Catalog.issues, hissues]
      refine List.mem_filter.mpr ⟨hmem, ?_⟩
      simp [hfingerprint, hfresh]
    · intro issue hmem heq
      rw [Catalog.issues, hdismissed] at hmem
      have hhidden := (List.mem_filter.mp hmem).2
      simp [heq, hfresh] at hhidden
  · rintro i readAt n fingerprint hdismiss htaken hin hn hcurrent hrestore issue hmem hissue rfl
    have hkept := stays_dismissed hdismiss htaken hin hn hcurrent hrestore
    obtain ⟨hissues, hdismissed⟩ := IssueView.split_spec (stateAt events n).currentIssues
      (stateAt events n).dismissals
    rw [Catalog.issues, hissues, hdismissed]
    constructor
    · exact List.mem_filter.mpr ⟨hmem, by simp [hissue, hkept]⟩
    · intro hshown
      have hvisible := (List.mem_filter.mp hshown).2
      simp [hissue, hkept] at hvisible

/-! ## A card that goes offline twice -/

def offline : Event := .markUnavailable 1 .offline ['x']

def observed : Event := .scan 1 (.ok ()) (.ok ()) (.ok ())

def cardIssue : Text := locationFingerprint .locationOffline 1

def dismissedOnce : List Event :=
  [.register 1 [], offline, .dismiss 2 cardIssue, observed, offline]

/-- Dismissed, from a view read while it was offline, once it was back. -/
def dismissedLate : List Event :=
  [.register 1 [], offline, observed, .dismiss 2 cardIssue, offline]

theorem timely_dismissedOnce : Timely dismissedOnce := by
  intro i readAt id kind _ hevent
  rcases i with _ | _ | _ | _ | _ | i
  · cases hevent
  · cases hevent
  · obtain ⟨rfl, hissue⟩ := Event.dismiss.inj (Option.some.inj hevent)
    obtain ⟨rfl, rfl⟩ := Catalog.locationFingerprint_injective hissue
    refine ⟨le_rfl, fun j hj hj' => ?_⟩
    obtain rfl : j = 2 := by omega
    exact ⟨.offline, by decide, rfl⟩
  · cases hevent
  · cases hevent
  · cases hevent

/-- The first episode's dismissal does not hide the second. -/
theorem second_episode_shown :
    (∃ issue ∈ (stateAt dismissedOnce 5).issues.issues,
      issue.kind = .locationOffline ∧ issue.fingerprint = cardIssue) ∧
    ∀ issue ∈ (stateAt dismissedOnce 5).issues.dismissed, issue.fingerprint ≠ cardIssue := by
  refine (dismissal_ends_with_episode dismissedOnce).1 timely_dismissedOnce 1 .locationOffline 5 5
    (.inr rfl) ⟨by decide, le_rfl, le_rfl, ?_, fun j hj hj' => ?_⟩ fun i readAt hi hread => ?_
  · rintro ⟨availability, hstatus, hkind⟩
    have hwas : (stateAt dismissedOnce 4).status 1 = some (.available, .active) := by decide
    cases hwas.symm.trans hstatus
    cases hkind
  · obtain rfl : j = 5 := by omega
    exact ⟨.offline, by decide, rfl⟩
  · intro hevent
    have hle := (timely_dismissedOnce i readAt 1 .locationOffline (.inr rfl) hevent).1
    omega

/-- A dismissal from a view read in the first episode, written after its end, hides the second. -/
theorem second_episode_hidden :
    Shown dismissedLate ∧ (stateAt dismissedLate 2).Standing 1 .locationOffline ∧
      Episode dismissedLate 1 .locationOffline 5 5 ∧
      (∀ i readAt, i < 5 → 5 ≤ readAt → dismissedLate[i]? ≠ some (.dismiss readAt cardIssue)) ∧
      (stateAt dismissedLate 5).issues.issues = [] ∧
      ∃ issue ∈ (stateAt dismissedLate 5).issues.dismissed, issue.fingerprint = cardIssue := by
  have hshown : Shown dismissedLate := by
    intro i readAt fingerprint hevent
    rcases i with _ | _ | _ | _ | _ | i
    · cases hevent
    · cases hevent
    · cases hevent
    · obtain ⟨rfl, rfl⟩ := Event.dismiss.inj (Option.some.inj hevent)
      exact ⟨by decide, .new .locationOffline (.location 1) (some 1) 1 none (some []), by decide,
        rfl, rfl⟩
    · cases hevent
    · cases hevent
  refine ⟨hshown, ⟨.offline, by decide, rfl⟩,
    ⟨by decide, le_rfl, le_rfl, ?_, fun j hj hj' => ?_⟩, fun i readAt hi hread hevent => ?_,
    by decide, .new .locationOffline (.location 1) (some 1) 1 none (some []), by decide, rfl⟩
  · rintro ⟨availability, hstatus, hkind⟩
    have hwas : (stateAt dismissedLate 4).status 1 = some (.available, .active) := by decide
    cases hwas.symm.trans hstatus
    cases hkind
  · obtain rfl : j = 5 := by omega
    exact ⟨.offline, by decide, rfl⟩
  · have hle := (hshown i readAt cardIssue hevent).1
    omega

end PlateVault.Issues
