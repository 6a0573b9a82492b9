import PlateVault.Rigs.Versions

/-!
# Where a confirmation comes from

Of a session that was there before, only a confirmation of the user's makes an association Confirmed.
-/

namespace PlateVault.Library

variable {P : Platform} {R : Reader}

namespace Sessions

/-- What is Confirmed of the sessions there were, was so before. -/
def ConfirmsNothing (s s' : Sessions P) : Prop :=
  ∀ id, s.identity id ≠ none → ∀ kind subject, ConfirmedOn subject (s'.associations id kind) →
    ConfirmedOn subject (s.associations id kind)

theorem ConfirmsNothing.of_eq {s s' : Sessions P} (h : s'.associations = s.associations) :
    ConfirmsNothing s s' := by
  intro id _ kind subject hconfirmed
  rwa [h] at hconfirmed

theorem ConfirmsNothing.trans {s s' s'' : Sessions P} (h : ConfirmsNothing s s')
    (h' : ConfirmsNothing s' s'') (hknown : ∀ id, s.identity id ≠ none → s'.identity id ≠ none) :
    ConfirmsNothing s s'' :=
  fun id hid kind subject hconfirmed =>
    h id hid kind subject (h' id (hknown id hid) kind subject hconfirmed)

theorem ConfirmsNothing.upsert {s : Sessions P} {association : Association P}
    (hstate : association.state ≠ .confirmed) :
    ConfirmsNothing s (s.upsertAssociation association) := by
  rintro id - kind subject ⟨confirmed, hmem, hconfirmed, hsubject⟩
  simp only [upsertAssociation, Option.mem_def] at hmem
  split at hmem
  · cases hmem
    exact absurd hconfirmed hstate
  · exact ⟨confirmed, hmem, hconfirmed, hsubject⟩

theorem ConfirmsNothing.map {s : Sessions P} {ids : List Uuid} {f : Association P → Association P}
    (hf : ∀ association, (f association).state = .confirmed →
      association.state = .confirmed ∧ (f association).subjectId = association.subjectId) :
    ConfirmsNothing s { s with
      associations := fun session kind =>
        if session ∈ ids then (s.associations session kind).map f
        else s.associations session kind } := by
  rintro id - kind subject ⟨confirmed, hmem, hconfirmed, hsubject⟩
  simp only [Option.mem_def] at hmem
  split at hmem
  · obtain ⟨association, hassociation, rfl⟩ := Option.map_eq_some_iff.mp hmem
    obtain ⟨hstate, hsame⟩ := hf association hconfirmed
    exact ⟨association, hassociation, hstate, hsame ▸ hsubject⟩
  · exact ⟨confirmed, hmem, hconfirmed, hsubject⟩

theorem Changes.known {s s' : Sessions P} (h : Changes s s') {id : Uuid}
    (hid : s.identity id ≠ none) : s'.identity id ≠ none := by
  obtain ⟨⟨key, superseded⟩, hidentity⟩ := Option.ne_none_iff_exists'.mp hid
  cases superseded with
  | none => rcases h.current id key hidentity with h | h <;> simp [h]
  | some lineage => simp [h.superseded id key lineage hidentity]

theorem Changes.key {s s' : Sessions P} (h : Changes s s') {id : Uuid}
    (hid : s.identity id ≠ none) :
    (s'.identity id).map Prod.fst = (s.identity id).map Prod.fst := by
  obtain ⟨⟨key, superseded⟩, hidentity⟩ := Option.ne_none_iff_exists'.mp hid
  cases superseded with
  | none => rcases h.current id key hidentity with h | h <;> simp [h, hidentity]
  | some lineage => simp [h.superseded id key lineage hidentity, hidentity]

theorem Changes.current_before {s s' : Sessions P} (h : Changes s s') {id : Uuid}
    (hid : s.identity id ≠ none) (hcurrent : s'.IsCurrent id) : s.IsCurrent id := by
  obtain ⟨⟨key, superseded⟩, hidentity⟩ := Option.ne_none_iff_exists'.mp hid
  cases superseded with
  | none => exact ⟨key, hidentity⟩
  | some lineage =>
    obtain ⟨key', hkey'⟩ := hcurrent
    rw [h.superseded id key lineage hidentity] at hkey'
    cases hkey'

end Sessions

namespace Vault

variable {v v' : Vault P R}

theorem invalidateInferences_confirms (v : Vault P R) (changed : List Uuid) :
    Sessions.ConfirmsNothing v.sessions (v.invalidateInferences changed).sessions := by
  refine .map fun association hconfirmed => ?_
  unfold invalidated at hconfirmed ⊢
  split at hconfirmed
  · next h => exact ⟨hconfirmed, by rw [if_pos h]⟩
  · cases hconfirmed

theorem rebinds_confirms (v : Vault P R) (c : Catalog R) (call : Call R) :
    Sessions.ConfirmsNothing v.sessions (v.rebinds c call).sessions := by
  unfold rebinds
  split
  · split
    · exact .map fun association hconfirmed => ⟨hconfirmed, rfl⟩
    · exact .of_eq rfl
  · exact .map fun association hconfirmed => ⟨hconfirmed, rfl⟩
  · exact .of_eq rfl

theorem regroup_confirms {changed : List Uuid} {given : Regrouping P R} {cause : Cause}
    {lineage : Option SessionLineage} (hsound : v.Sound (· ∈ changed))
    (h : v.regroup changed given cause = .ok (v', lineage)) :
    Sessions.ConfirmsNothing v.sessions v'.sessions := by
  by_cases hne : changed = []
  · subst hne
    simp only [regroup, List.isEmpty_nil, if_true, Except.ok.injEq, Prod.mk.injEq] at h
    obtain ⟨rfl, -⟩ := h
    exact .of_eq rfl
  · obtain ⟨_, _, _, -, -, -, hregroups, -⟩ := regroup_eq_ok hsound (fun _ h => h) hne h
    intro id hid kind subject hconfirmed
    rwa [hregroups.associations id hid] at hconfirmed

theorem recordSuggestions_confirms {suggestions : List (SuggestedAssociation P)}
    {found : Uuid → Result Unit} (h : v.recordSuggestions suggestions found = .ok v') :
    Sessions.ConfirmsNothing v.sessions v'.sessions := by
  simp only [recordSuggestions, Result.bind_eq_ok, Result.require_eq_ok, Bool.not_eq_true',
    List.any_eq_false, decide_eq_true_eq] at h
  obtain ⟨_, hstates, h⟩ := h
  induction suggestions generalizing v with
  | nil =>
    cases h
    exact .of_eq rfl
  | cons item items ih =>
    simp only [recordEach, Result.bind_eq_ok] at h
    obtain ⟨v₁, hone, hrest⟩ := h
    have hre := (recordSuggestion_still hone).2.1
    refine .trans ?_ (ih (fun item hitem => hstates item (List.mem_cons_of_mem _ hitem)) hrest)
      fun id hid => by rwa [hre.identity]
    simp only [recordSuggestion, Result.bind_eq_ok] at hone
    obtain ⟨row, -, hone⟩ := hone
    split at hone
    · cases hone
    · simp only [Result.bind_eq_ok] at hone
      obtain ⟨-, -, -, -, -, -, hone⟩ := hone
      split at hone
      · cases hone
        exact .of_eq rfl
      · cases hone
        exact .upsert (hstates item List.mem_cons_self)

theorem markAssessmentConflict_confirms {session : Uuid}
    (h : v.markAssessmentConflict session = .ok v') :
    Sessions.ConfirmsNothing v.sessions v'.sessions := by
  simp only [markAssessmentConflict, Result.bind_eq_ok] at h
  obtain ⟨row, -, h⟩ := h
  split at h
  · cases h
    exact .of_eq rfl
  · cases h
    exact .upsert nofun

theorem confirmEach_confirms {kind : AssociationKind} {subject : Uuid}
    {recorded : Uuid → Result Unit} {rows : List (SessionRow P)}
    (h : v.confirmEach kind subject recorded rows = .ok v') (id : Uuid) (kind' : AssociationKind)
    (subject' : Option Uuid) (hconfirmed : ConfirmedOn subject' (v'.sessions.associations id kind')) :
    kind' = kind ∧ id ∈ rows.map SessionRow.id ∧ subject' = some subject ∨
      ¬ (kind' = kind ∧ id ∈ rows.map SessionRow.id) ∧
        ConfirmedOn subject' (v.sessions.associations id kind') := by
  induction rows generalizing v with
  | nil =>
    cases h
    exact .inr ⟨fun hmem => List.not_mem_nil hmem.2, hconfirmed⟩
  | cons row rows ih =>
    simp only [confirmEach, Result.bind_eq_ok] at h
    obtain ⟨v₁, hone, hrest⟩ := h
    rcases ih hrest with ⟨hkind, hmem, hsubject⟩ | ⟨hnot, hbefore⟩
    · exact .inl ⟨hkind, List.mem_cons_of_mem _ hmem, hsubject⟩
    have hone : ∀ id kind', v₁.sessions.associations id kind' =
        (v.sessions.upsertAssociation {
          sessionId := row.id, kind, subjectId := some subject, state := .confirmed
          evidence := ((v.sessions.associations row.id kind).filter
            (·.subjectId = some subject)).elim [] Association.evidence
          provenance := .user
          observationBasis := v.memberBasis row.id
          decisionRevision := row.decisionRevision + 1 }).associations id kind' := by
      unfold confirmOne at hone
      simp only at hone
      split at hone
      · simp only [Result.bind_eq_ok, Result.pure_eq_ok] at hone
        obtain ⟨-, -, rfl⟩ := hone
        exact fun _ _ => rfl
      · cases hone
        exact fun _ _ => rfl
    rw [hone] at hbefore
    obtain ⟨association, hmem, hstate, hsubject⟩ := hbefore
    simp only [Sessions.upsertAssociation, Option.mem_def] at hmem
    split at hmem
    · next heq =>
      cases hmem
      exact .inl ⟨heq.2, heq.1 ▸ List.mem_cons_self, hsubject.symm⟩
    · next hne =>
      refine .inr ⟨?_, association, hmem, hstate, hsubject⟩
      rintro ⟨hkind, hrow⟩
      rcases List.mem_cons.mp hrow with hid | hrow
      · exact hne ⟨hid, hkind⟩
      · exact hnot ⟨hkind, hrow⟩

theorem checkExpectedSession_id {item : ExpectedSession} {row : SessionRow P}
    (h : v.checkExpectedSession item = .ok row) : row.id = item.sessionId := by
  simp only [checkExpectedSession, Result.bind_eq_ok] at h
  obtain ⟨found, hload, h⟩ := h
  split at h
  · cases h
  · simp only [Result.bind_eq_ok, Result.pure_eq_ok] at h
    obtain ⟨-, -, rfl⟩ := h
    exact (loadSessionRow_known hload).1

theorem confirmAssociation_confirms {expected : List ExpectedSession} {kind : AssociationKind}
    {subject : Uuid} {found : Result Unit} {recorded : Uuid → Result Unit}
    (h : v.confirmAssociation expected kind subject found recorded = .ok v') :
    (∀ item ∈ expected, v.sessions.identity item.sessionId ≠ none) ∧
      ∀ id kind' subject', ConfirmedOn subject' (v'.sessions.associations id kind') →
        kind' = kind ∧ id ∈ expected.map ExpectedSession.sessionId ∧ subject' = some subject ∨
          ¬ (kind' = kind ∧ id ∈ expected.map ExpectedSession.sessionId) ∧
            ConfirmedOn subject' (v.sessions.associations id kind') := by
  simp only [confirmAssociation, checkExpectedSessions, Result.bind_eq_ok] at h
  obtain ⟨-, -, rows, ⟨-, -, hrows⟩, h⟩ := h
  constructor
  · intro item hitem
    obtain ⟨row, -, hrow⟩ := Result.mapM_of_mem hrows hitem
    exact checkExpectedSession_id hrow ▸ checkExpectedSession_known hrow
  · intro id kind' subject' hconfirmed
    have hids : id ∈ expected.map ExpectedSession.sessionId ↔ id ∈ rows.map SessionRow.id := by
      constructor
      · intro hmem
        obtain ⟨item, hitem, rfl⟩ := List.mem_map.mp hmem
        obtain ⟨row, hrow, hchecked⟩ := Result.mapM_of_mem hrows hitem
        exact checkExpectedSession_id hchecked ▸ List.mem_map_of_mem hrow
      · intro hmem
        obtain ⟨row, hrow, rfl⟩ := List.mem_map.mp hmem
        obtain ⟨item, hitem, hchecked⟩ := Result.mem_mapM hrows hrow
        exact checkExpectedSession_id hchecked ▸ List.mem_map_of_mem hitem
    rw [hids]
    exact confirmEach_confirms h id kind' subject' hconfirmed

end Vault

namespace Watched

theorem Step.confirms {w w' : Watched P R} {call : VaultCall P R}
    (hsound : w.vault.Sound fun _ => False) (h : w.Step call w') (hcall : ¬ confirms call) :
    Sessions.ConfirmsNothing w.vault.sessions w'.vault.sessions := by
  obtain ⟨hstep, -⟩ := h
  cases call with
  | catalog call correctionId given =>
    simp only [Vault.Step, Vault.perform, Result.bind_eq_ok, Result.pure_eq_ok] at hstep
    obtain ⟨half, hhalf, v₁, hcompleted, hrebound⟩ := hstep
    rw [← hrebound]
    cases Catalog.half_cuts hhalf with
    | @settled c' still =>
      cases hcompleted
      have hrebinds := Vault.rebinds_confirms { w.vault with catalog := c' } w.vault.catalog call
      exact hrebinds
    | @regroups _ changed _ _ moves still =>
      rw [Vault.rebinds_of_regroups hhalf]
      simp only [Vault.completed, Vault.regrouped, Result.bind_eq_ok, Result.pure_eq_ok] at hcompleted
      obtain ⟨_, ⟨⟨v₂, lineage⟩, hregroup, rfl⟩, _, -, rfl⟩ := hcompleted
      have hsound₁ := hsound.moves (moves.mono fun id hid => Ordered.mem_ascending.mpr hid)
      have hconfirms := Vault.regroup_confirms hsound₁ hregroup
      refine Sessions.ConfirmsNothing.trans hconfirms
        (Vault.invalidateInferences_confirms _ _) fun id hid => ?_
      by_cases hne : Ordered.ascending changed.regroup = []
      · simp only [Vault.regroup, hne, List.isEmpty_nil, if_true, Except.ok.injEq,
          Prod.mk.injEq] at hregroup
        obtain ⟨rfl, -⟩ := hregroup
        exact hid
      · obtain ⟨_, _, _, -, -, -, hregroups, -⟩ :=
          Vault.regroup_eq_ok hsound₁ (fun _ h => h) hne hregroup
        exact hregroups.changes.known hid
  | confirm => exact absurd trivial hcall
  | suggest suggestions found => exact Vault.recordSuggestions_confirms hstep
  | markConflict session => exact Vault.markAssessmentConflict_confirms hstep

end Watched

end PlateVault.Library
