import PlateVault.Sessions.Regrouped

/-!
# Writes of associations

Confirmations, suggestions, assessments and rebound bases change what sessions are associated with
and nothing else of them. Only a confirmation replaces a row the user owns.
-/

namespace PlateVault.Library

variable {P : Platform} {R : Reader}

/-- What the user confirmed by an association, or has yet to review. -/
def userValues (association : Association P) : List Text :=
  if association.state = .confirmed then [subjectText association]
  else if pendingInheritance association then conflictValues association
  else []

theorem priorValues_of_userOwned {association : Association P} (h : userOwned association = true) :
    priorValues (some association) = userValues association := by
  unfold priorValues userValues
  by_cases hconfirmed : association.state = .confirmed
  · simp [hconfirmed]
  · have hpending : pendingInheritance association = true := by simpa [userOwned, hconfirmed] using h
    simp [hconfirmed, hpending]

theorem userOwned_of_mem_userValues {association : Association P} {value : Text}
    (h : value ∈ userValues association) : userOwned association = true := by
  unfold userValues at h
  unfold userOwned
  by_cases hconfirmed : association.state = .confirmed
  · simp [hconfirmed]
  · rw [if_neg hconfirmed] at h
    split at h
    · next hpending => simp [hpending]
    · cases h

namespace Sessions

/-- Nothing changed but the particulars of rows and the associations of known sessions. -/
structure Reassociates (s s' : Sessions P) : Prop where
  identity : ∀ id, s'.identity id = s.identity id
  members : s'.members = s.members
  sessionOf : s'.sessionOf = s.sessionOf
  lineages : s'.lineages = s.lineages
  unknown : ∀ id, s.identity id = none → ∀ kind, s'.associations id kind = s.associations id kind
  kind : (∀ id kind, ∀ association ∈ s.associations id kind, association.kind = kind) →
    ∀ id kind, ∀ association ∈ s'.associations id kind, association.kind = kind

/-- Every association the user owns is still there, on its subject or with its values. -/
def Retains (s s' : Sessions P) : Prop :=
  ∀ id kind, ∀ association ∈ s.associations id kind, userOwned association = true →
    ∃ association' ∈ s'.associations id kind, userOwned association' = true ∧
      userValues association' = userValues association

theorem Reassociates.refl (s : Sessions P) : Reassociates s s :=
  ⟨fun _ => rfl, rfl, rfl, rfl, fun _ _ _ => rfl, id⟩

theorem Reassociates.trans {s s' s'' : Sessions P} (h : Reassociates s s')
    (h' : Reassociates s' s'') : Reassociates s s'' where
  identity := fun id => (h'.identity id).trans (h.identity id)
  members := h'.members.trans h.members
  sessionOf := h'.sessionOf.trans h.sessionOf
  lineages := h'.lineages.trans h.lineages
  unknown := fun id hid kind =>
    (h'.unknown id ((h.identity id).trans hid) kind).trans (h.unknown id hid kind)
  kind := h'.kind ∘ h.kind

theorem Reassociates.of_framed {s s' : Sessions P} (h : Framed s s') : Reassociates s s' where
  identity := h.identity
  members := h.members
  sessionOf := h.sessionOf
  lineages := h.lineages
  unknown := fun _ _ _ => by rw [h.associations]
  kind := fun hkind => by rwa [h.associations]

theorem Retains.refl (s : Sessions P) : Retains s s :=
  fun _ _ association hassociation howned => ⟨association, hassociation, howned, rfl⟩

theorem Retains.trans {s s' s'' : Sessions P} (h : Retains s s') (h' : Retains s' s'') :
    Retains s s'' := by
  intro id kind association hassociation howned
  obtain ⟨association', hassociation', howned', hvalues⟩ := h id kind association hassociation howned
  obtain ⟨association'', hassociation'', howned'', hvalues'⟩ :=
    h' id kind association' hassociation' howned'
  exact ⟨association'', hassociation'', howned'', hvalues'.trans hvalues⟩

theorem upsertAssociation_reassociates {s : Sessions P} {association : Association P}
    (hknown : s.identity association.sessionId ≠ none) :
    Reassociates s (s.upsertAssociation association) where
  identity := fun _ => rfl
  members := rfl
  sessionOf := rfl
  lineages := rfl
  unknown := fun id hid kind => by
    refine if_neg fun heq => hknown ?_
    rw [← heq.1, hid]
  kind := fun hkind id kind association' hassociation' => by
    simp only [upsertAssociation] at hassociation'
    split at hassociation'
    · next heq =>
      cases hassociation'
      exact heq.2.symm
    · exact hkind id kind association' hassociation'

theorem upsertAssociation_retains {s : Sessions P} {association : Association P}
    (hnot : (s.associations association.sessionId association.kind).any userOwned = false) :
    Retains s (s.upsertAssociation association) := by
  intro id kind association' hassociation' howned
  refine ⟨association', ?_, howned, rfl⟩
  simp only [upsertAssociation]
  split
  · next heq =>
    obtain ⟨rfl, rfl⟩ := heq
    rw [hassociation', Option.any_some, howned] at hnot
    cases hnot
  · exact hassociation'

theorem mapAssociations {s s' : Sessions P} {ids : List Uuid} {f : Association P → Association P}
    (hkind : ∀ association, (f association).kind = association.kind)
    (howned : ∀ association, userOwned association = true →
      userOwned (f association) = true ∧ userValues (f association) = userValues association)
    (hnone : ∀ id ∈ ids, s.identity id ≠ none)
    (hs' : s' = { s with associations := fun session kind =>
      if session ∈ ids then (s.associations session kind).map f
      else s.associations session kind }) :
    Reassociates s s' ∧ Retains s s' := by
  subst hs'
  refine ⟨⟨fun _ => rfl, rfl, rfl, rfl, fun id hid kind => ?_, fun hkinds id kind a ha => ?_⟩, ?_⟩
  · exact if_neg fun hmem => hnone id hmem hid
  · simp only [Option.mem_def] at ha
    split at ha
    · obtain ⟨association, hassociation, rfl⟩ := Option.map_eq_some_iff.mp ha
      rw [hkind, hkinds id kind association hassociation]
    · exact hkinds id kind a ha
  · intro id kind association hassociation howns
    by_cases hmem : id ∈ ids
    · refine ⟨f association, ?_, howned association howns⟩
      simp only [hmem, if_true, Option.mem_def]
      rw [hassociation, Option.map_some]
    · refine ⟨association, ?_, howns, rfl⟩
      simp only [hmem, if_false]
      exact hassociation

end Sessions

namespace Vault

/-! ## The calls -/

theorem currentSessions_known {v : Vault P R} {pending : Uuid → Prop} (hsound : v.Sound pending)
    {ids : List Uuid} {id : Uuid} (h : id ∈ v.sessions.currentSessions ids) :
    v.sessions.identity id ≠ none := by
  simp only [Sessions.currentSessions, Ordered.mem_ascending, List.mem_filterMap] at h
  obtain ⟨asset, -, hasset⟩ := h
  obtain ⟨key, hkey⟩ := hsound.current asset id hasset
  simp [hkey]

theorem invalidated_owned {association : Association P} (h : userOwned association = true) :
    invalidated association = association := by
  unfold invalidated
  refine if_pos ?_
  by_cases hconfirmed : association.state = .confirmed
  · exact .inl hconfirmed
  · simp only [userOwned, pendingInheritance, hconfirmed, decide_false, Bool.false_or,
      Bool.and_eq_true, decide_eq_true_eq] at h
    exact .inr h.1

theorem invalidateInferences_still {v : Vault P R} {pending : Uuid → Prop}
    (hsound : v.Sound pending) (changed : List Uuid) :
    Sessions.Reassociates v.sessions (v.invalidateInferences changed).sessions ∧
      Sessions.Retains v.sessions (v.invalidateInferences changed).sessions := by
  refine Sessions.mapAssociations (f := invalidated) (fun association => ?_)
    (fun association howned => ?_) (fun id => currentSessions_known hsound) rfl
  · unfold invalidated
    split <;> rfl
  · rw [invalidated_owned howned]
    exact ⟨howned, rfl⟩

theorem rebindAssociationBases_still {v : Vault P R} {pending : Uuid → Prop}
    (hsound : v.Sound pending) (ids : List Uuid)
    (rebound : Uuid → Option (ObservationFingerprint × ObservationFingerprint)) :
    Sessions.Reassociates v.sessions (v.rebindAssociationBases ids rebound).sessions ∧
      Sessions.Retains v.sessions (v.rebindAssociationBases ids rebound).sessions :=
  Sessions.mapAssociations
    (f := fun association => { association with
      observationBasis := association.observationBasis.map (reboundEntry rebound) })
    (fun _ => rfl) (fun _ howned => ⟨howned, rfl⟩) (fun _ => currentSessions_known hsound) rfl

theorem rebinds_still {v : Vault P R} {pending : Uuid → Prop} (hsound : v.Sound pending)
    (c : Catalog R) (call : Call R) : (v.rebinds c call).catalog = v.catalog ∧
      Sessions.Reassociates v.sessions (v.rebinds c call).sessions ∧
      Sessions.Retains v.sessions (v.rebinds c call).sessions := by
  unfold rebinds
  split
  · split
    · exact ⟨rfl, rebindAssociationBases_still hsound _ _⟩
    · exact ⟨rfl, .refl _, .refl _⟩
  · exact ⟨rfl, rebindAssociationBases_still hsound _ _⟩
  · exact ⟨rfl, .refl _, .refl _⟩

theorem loadSessionRow_known {s : Sessions P} {id : Uuid} {row : SessionRow P}
    (h : s.loadSessionRow id = .ok row) : row.id = id ∧ s.identity id ≠ none := by
  simp only [Sessions.loadSessionRow, Result.orElse_eq_ok] at h
  exact ⟨Table.find?_key h, by simp [Sessions.identity, h]⟩

theorem checkExpectedSession_known {v : Vault P R} {item : ExpectedSession} {row : SessionRow P}
    (h : v.checkExpectedSession item = .ok row) : v.sessions.identity row.id ≠ none := by
  simp only [checkExpectedSession, Result.bind_eq_ok] at h
  obtain ⟨found, hload, h⟩ := h
  split at h
  · cases h
  · simp only [Result.bind_eq_ok, Result.pure_eq_ok] at h
    obtain ⟨-, -, rfl⟩ := h
    obtain ⟨hid, hknown⟩ := loadSessionRow_known hload
    exact hid ▸ hknown

theorem confirmEach_still {kind : AssociationKind} {subject : Uuid}
    {recorded : Uuid → Result Unit} {rows : List (SessionRow P)} {v v' : Vault P R}
    (hrows : ∀ row ∈ rows, v.sessions.identity row.id ≠ none)
    (h : v.confirmEach kind subject recorded rows = .ok v') :
    v'.catalog = v.catalog ∧ Sessions.Reassociates v.sessions v'.sessions := by
  induction rows generalizing v with
  | nil =>
    cases h
    exact ⟨rfl, .refl _⟩
  | cons row rows ih =>
    simp only [confirmEach, Result.bind_eq_ok] at h
    obtain ⟨v₁, hone, hrest⟩ := h
    have hstep : v₁.catalog = v.catalog ∧ Sessions.Reassociates v.sessions v₁.sessions := by
      have hknown := hrows row List.mem_cons_self
      unfold confirmOne at hone
      simp only at hone
      split at hone
      · simp only [Result.bind_eq_ok, Result.pure_eq_ok] at hone
        obtain ⟨-, -, rfl⟩ := hone
        exact ⟨rfl, .trans (Sessions.upsertAssociation_reassociates hknown)
          (.of_framed (Sessions.updateRow_framed (fun _ => rfl) fun _ => rfl))⟩
      · cases hone
        exact ⟨rfl, .trans (Sessions.upsertAssociation_reassociates hknown)
          (.of_framed (Sessions.updateRow_framed (fun _ => rfl) fun _ => rfl))⟩
    obtain ⟨hcatalog, hre⟩ := ih (fun row hrow => by
      rw [hstep.2.identity]
      exact hrows row (List.mem_cons_of_mem _ hrow)) hrest
    exact ⟨hcatalog.trans hstep.1, hstep.2.trans hre⟩

theorem confirmAssociation_still {v v' : Vault P R} {expected : List ExpectedSession}
    {kind : AssociationKind} {subject : Uuid} {found : Result Unit} {recorded : Uuid → Result Unit}
    (h : v.confirmAssociation expected kind subject found recorded = .ok v') :
    v'.catalog = v.catalog ∧ Sessions.Reassociates v.sessions v'.sessions := by
  simp only [confirmAssociation, checkExpectedSessions, Result.bind_eq_ok] at h
  obtain ⟨-, -, rows, ⟨-, -, hrows⟩, h⟩ := h
  refine confirmEach_still (fun row hrow => ?_) h
  obtain ⟨item, -, hitem⟩ := Result.mem_mapM hrows hrow
  exact checkExpectedSession_known hitem

theorem recordSuggestion_still {v v' : Vault P R} {item : SuggestedAssociation P}
    {found : Uuid → Result Unit} (h : v.recordSuggestion item found = .ok v') :
    v'.catalog = v.catalog ∧ Sessions.Reassociates v.sessions v'.sessions ∧
      Sessions.Retains v.sessions v'.sessions := by
  simp only [recordSuggestion, Result.bind_eq_ok] at h
  obtain ⟨row, hload, h⟩ := h
  split at h
  · cases h
  · simp only [Result.bind_eq_ok] at h
    obtain ⟨-, -, -, -, -, -, h⟩ := h
    split at h
    · cases h
      exact ⟨rfl, .refl _, .refl _⟩
    · next hnot =>
      cases h
      exact ⟨rfl, Sessions.upsertAssociation_reassociates (loadSessionRow_known hload).2,
        Sessions.upsertAssociation_retains (Bool.eq_false_iff.mpr hnot)⟩

theorem recordSuggestions_still {v v' : Vault P R} {suggestions : List (SuggestedAssociation P)}
    {found : Uuid → Result Unit} (h : v.recordSuggestions suggestions found = .ok v') :
    v'.catalog = v.catalog ∧ Sessions.Reassociates v.sessions v'.sessions ∧
      Sessions.Retains v.sessions v'.sessions := by
  simp only [recordSuggestions, Result.bind_eq_ok] at h
  obtain ⟨-, -, h⟩ := h
  induction suggestions generalizing v with
  | nil =>
    cases h
    exact ⟨rfl, .refl _, .refl _⟩
  | cons item items ih =>
    simp only [recordEach, Result.bind_eq_ok] at h
    obtain ⟨v₁, hone, hrest⟩ := h
    obtain ⟨hcatalog, hre, hretains⟩ := recordSuggestion_still hone
    obtain ⟨hcatalog', hre', hretains'⟩ := ih hrest
    exact ⟨hcatalog'.trans hcatalog, hre.trans hre', hretains.trans hretains'⟩

theorem markAssessmentConflict_still {v v' : Vault P R} {session : Uuid}
    (h : v.markAssessmentConflict session = .ok v') :
    v'.catalog = v.catalog ∧ Sessions.Reassociates v.sessions v'.sessions ∧
      Sessions.Retains v.sessions v'.sessions := by
  simp only [markAssessmentConflict, Result.bind_eq_ok] at h
  obtain ⟨row, hload, h⟩ := h
  split at h
  · cases h
    exact ⟨rfl, .refl _, .refl _⟩
  · next hnot =>
    cases h
    simp only [Bool.or_eq_true, not_or, Bool.not_eq_true] at hnot
    exact ⟨rfl, Sessions.upsertAssociation_reassociates (loadSessionRow_known hload).2,
      Sessions.upsertAssociation_retains hnot.2⟩

end Vault

end PlateVault.Library
