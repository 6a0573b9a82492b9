import PlateVault.Sessions.Planned

/-!
# What a new session inherits

The values a regroup reads of each asset's session before, and what they make of the new session: a
confirmation where all sessions were confirmed on one subject, otherwise a review of all of them.
-/

namespace PlateVault.Library

variable {P : Platform} {R : Reader}

/-- What one asset's session before adds to the values a review shows. -/
def priorValues (prior : Option (Association P)) : List Text :=
  match prior with
  | some association =>
    if association.state = .confirmed then [subjectText association]
    else if pendingInheritance association then conflictValues association
    else ["unconfirmed".toList]
  | none => ["unconfirmed".toList]

def ConfirmedOn (subject : Option Uuid) (prior : Option (Association P)) : Prop :=
  ∃ association ∈ prior, association.state = .confirmed ∧ association.subjectId = subject

namespace Inheriting

theorem take_values (inheriting : Inheriting P) (prior : Option (Association P)) :
    (inheriting.take prior).values = priorValues prior ++ inheriting.values := by
  cases prior with
  | none => rfl
  | some association =>
    unfold take priorValues
    by_cases hconfirmed : association.state = .confirmed
    · simp [hconfirmed]
    · cases hpending : pendingInheritance association <;> simp [hconfirmed, hpending]

theorem take_userDecided (inheriting : Inheriting P) (prior : Option (Association P)) :
    (inheriting.take prior).userDecided = (inheriting.userDecided || prior.any userOwned) := by
  unfold take
  split
  · next association =>
    by_cases hconfirmed : association.state = .confirmed
    · simp [hconfirmed, userOwned]
    · cases hpending : pendingInheritance association <;>
        simp [hconfirmed, hpending, userOwned]
  · simp

theorem take_first {inheriting : Inheriting P} {first : Association P}
    (h : inheriting.first = some first) (prior : Option (Association P)) :
    (inheriting.take prior).first = some first := by
  unfold take
  split
  · split
    · simp [h]
    · split <;> exact h
  · exact h

theorem take_shared (inheriting : Inheriting P) (prior : Option (Association P)) :
    (inheriting.take prior).shared = true ↔ inheriting.shared = true ∧
      ∃ first ∈ (inheriting.take prior).first, ConfirmedOn first.subjectId prior := by
  unfold take ConfirmedOn
  split
  · next association =>
    by_cases hconfirmed : association.state = .confirmed
    · simp [hconfirmed]
    · cases hpending : pendingInheritance association <;> simp [hconfirmed]
  · simp

theorem take_fresh {inheriting : Inheriting P} {prior : Option (Association P)}
    {first : Association P} (h : (inheriting.take prior).first = some first) :
    inheriting.first = some first ∨ prior = some first ∧ first.state = .confirmed := by
  unfold take at h
  split at h
  · next association =>
    split at h
    · next hconfirmed =>
      cases hfirst : inheriting.first with
      | some other => exact .inl (by simpa [hfirst] using h)
      | none =>
        obtain rfl : association = first := by simpa [hfirst] using h
        exact .inr ⟨rfl, hconfirmed⟩
    · split at h <;> exact .inl h
  · exact .inl h

variable {inheriting : Inheriting P} {priors : List (Option (Association P))}

theorem foldl_values {value : Text} :
    value ∈ (priors.foldl take inheriting).values ↔
      value ∈ inheriting.values ∨ ∃ prior ∈ priors, value ∈ priorValues prior := by
  induction priors generalizing inheriting with
  | nil => simp
  | cons prior priors ih =>
    rw [List.foldl_cons, ih, take_values, List.mem_append, List.exists_mem_cons_iff]
    tauto

theorem foldl_userDecided :
    (priors.foldl take inheriting).userDecided =
      (inheriting.userDecided || priors.any fun prior => prior.any userOwned) := by
  induction priors generalizing inheriting with
  | nil => simp
  | cons prior priors ih => rw [List.foldl_cons, ih, take_userDecided, List.any_cons, Bool.or_assoc]

theorem foldl_first {first : Association P} (h : inheriting.first = some first) :
    (priors.foldl take inheriting).first = some first := by
  induction priors generalizing inheriting with
  | nil => exact h
  | cons prior priors ih => exact ih (take_first h prior)

theorem foldl_fresh {first : Association P}
    (h : (priors.foldl take inheriting).first = some first) :
    inheriting.first = some first ∨ some first ∈ priors ∧ first.state = .confirmed := by
  induction priors generalizing inheriting with
  | nil => exact .inl h
  | cons prior priors ih =>
    rcases ih h with htake | ⟨hmem, hconfirmed⟩
    · rcases take_fresh htake with hold | ⟨rfl, hconfirmed⟩
      · exact .inl hold
      · exact .inr ⟨List.mem_cons_self, hconfirmed⟩
    · exact .inr ⟨List.mem_cons_of_mem _ hmem, hconfirmed⟩

theorem take_first_of_confirmed {subject : Option Uuid} {prior : Option (Association P)}
    (h : ConfirmedOn subject prior) : ∃ first, (inheriting.take prior).first = some first := by
  obtain ⟨association, hassociation, hconfirmed, -⟩ := h
  rw [Option.mem_def] at hassociation
  simp [take, hassociation, hconfirmed]

theorem foldl_shared : (priors.foldl take inheriting).shared = true ↔ inheriting.shared = true ∧
    ∀ prior ∈ priors, ∃ first ∈ (priors.foldl take inheriting).first,
      ConfirmedOn first.subjectId prior := by
  induction priors generalizing inheriting with
  | nil => simp
  | cons prior priors ih =>
    rw [List.foldl_cons, ih, take_shared, List.forall_mem_cons, and_assoc]
    refine and_congr_right fun _ => and_congr_left fun _ => ?_
    constructor
    · rintro ⟨first, hfirst, hprior⟩
      exact ⟨first, foldl_first hfirst, hprior⟩
    · rintro ⟨first, hfirst, hprior⟩
      obtain ⟨other, hother⟩ : ∃ other, (inheriting.take prior).first = some other :=
        take_first_of_confirmed hprior
      obtain rfl : other = first := Option.some.inj ((foldl_first hother).symm.trans hfirst)
      exact ⟨other, hother, hprior⟩

end Inheriting

theorem userOwned_of_confirmed {subject : Option Uuid} {prior : Option (Association P)}
    (h : ConfirmedOn subject prior) : prior.any userOwned = true := by
  obtain ⟨association, hassociation, hconfirmed, -⟩ := h
  rw [Option.mem_def] at hassociation
  simp [hassociation, userOwned, hconfirmed]

theorem ConfirmedOn.subject_eq {subject subject' : Option Uuid} {prior : Option (Association P)}
    (h : ConfirmedOn subject prior) (h' : ConfirmedOn subject' prior) : subject = subject' := by
  obtain ⟨association, hassociation, -, rfl⟩ := h
  obtain ⟨association', hassociation', -, rfl⟩ := h'
  rw [Option.mem_unique hassociation hassociation']

/-- What a session made of `members` is associated with by a regroup, where `prior` is what each
asset's session before was. -/
structure Inherits (members : List Uuid) (prior : Uuid → Option (Association P))
    (association : Option (Association P)) : Prop where
  nothing : association = none ↔ ∀ asset ∈ members, (prior asset).any userOwned = false
  confirmed : ∀ subject, ConfirmedOn subject association ↔
    members ≠ [] ∧ ∀ asset ∈ members, ConfirmedOn subject (prior asset)
  review : ∀ pending ∈ association, pending.state ≠ .confirmed →
    pendingInheritance pending = true ∧ pending.subjectId = none ∧
      ∀ value, value ∈ conflictValues pending ↔ ∃ asset ∈ members, value ∈ priorValues (prior asset)

theorem Inherits.congr {members : List Uuid} {prior prior' : Uuid → Option (Association P)}
    {association : Option (Association P)} (h : Inherits members prior association)
    (heq : ∀ asset ∈ members, prior asset = prior' asset) : Inherits members prior' association where
  nothing := h.nothing.trans (forall₂_congr fun asset hasset => by rw [heq asset hasset])
  confirmed := fun subject => (h.confirmed subject).trans
    (and_congr_right' (forall₂_congr fun asset hasset => by rw [heq asset hasset]))
  review := fun pending hpending hstate => by
    obtain ⟨hreview, hsubject, hvalues⟩ := h.review pending hpending hstate
    refine ⟨hreview, hsubject, fun value => (hvalues value).trans ?_⟩
    exact exists_congr fun asset => and_congr_right fun hasset => by rw [heq asset hasset]

section

variable {session : Uuid} {members : List Uuid} {prior : Uuid → Option (Association P)}
  {index : AssociationIndex P} {oldSessionOf : Uuid → Option Uuid}
  {basis : List (Uuid × ObservationFingerprint)} {kind : AssociationKind}

def gathered (members : List Uuid) (prior : Uuid → Option (Association P)) : Inheriting P :=
  (members.map prior).foldl Inheriting.take ⟨none, true, false, []⟩

theorem gathered_userDecided : (gathered members prior).userDecided = true ↔
    ∃ asset ∈ members, (prior asset).any userOwned = true := by
  rw [gathered, Inheriting.foldl_userDecided]
  simp

theorem mem_gathered_values {value : Text} : value ∈ (gathered members prior).values ↔
    ∃ asset ∈ members, value ∈ priorValues (prior asset) := by
  rw [gathered, Inheriting.foldl_values]
  simp

theorem gathered_first {first : Association P} (h : (gathered members prior).first = some first) :
    ∃ asset ∈ members, prior asset = some first ∧ first.state = .confirmed := by
  obtain ⟨hmem, hconfirmed⟩ := (Inheriting.foldl_fresh h).resolve_left (by simp)
  obtain ⟨asset, hasset, hprior⟩ := List.mem_map.mp hmem
  exact ⟨asset, hasset, hprior, hconfirmed⟩

theorem gathered_shared (hne : members ≠ []) : (gathered members prior).shared = true ↔
    ∃ first, (gathered members prior).first = some first ∧
      ∀ asset ∈ members, ConfirmedOn first.subjectId (prior asset) := by
  have hshared : (gathered members prior).shared = true ↔ ∀ asset ∈ members,
      ∃ first ∈ (gathered members prior).first, ConfirmedOn first.subjectId (prior asset) := by
    rw [gathered, Inheriting.foldl_shared]
    simp
  rw [hshared]
  constructor
  · intro hall
    obtain ⟨asset, hasset⟩ := List.exists_mem_of_ne_nil _ hne
    obtain ⟨first, hfirst, -⟩ := hall asset hasset
    refine ⟨first, hfirst, fun other hother => ?_⟩
    obtain ⟨first', hfirst', hconfirmed⟩ := hall other hother
    rwa [Option.mem_unique hfirst' hfirst] at hconfirmed
  · rintro ⟨first, hfirst, hall⟩ asset hasset
    exact ⟨first, hfirst, hall asset hasset⟩

theorem gathered_first_of_confirmed {subject : Option Uuid} (hne : members ≠ [])
    (h : ∀ asset ∈ members, ConfirmedOn subject (prior asset)) :
    ∃ first, (gathered members prior).first = some first ∧ first.subjectId = subject := by
  obtain ⟨asset, members, rfl⟩ := List.exists_cons_of_ne_nil hne
  obtain ⟨first, hfirst⟩ : ∃ first,
      (Inheriting.take ⟨none, true, false, []⟩ (prior asset)).first = some first :=
    Inheriting.take_first_of_confirmed (h asset List.mem_cons_self)
  have hgathered : (gathered (asset :: members) prior).first = some first := by
    rw [gathered, List.map_cons, List.foldl_cons]
    exact Inheriting.foldl_first hfirst
  obtain ⟨other, hother, hprior, hconfirmed⟩ := gathered_first hgathered
  have hon : ConfirmedOn first.subjectId (prior other) := ⟨first, hprior, hconfirmed, rfl⟩
  exact ⟨first, hgathered, hon.subject_eq (h other hother)⟩

theorem inherited_inherits : Inherits members (fun asset => (oldSessionOf asset).bind (index · kind))
    (inherited session members index oldSessionOf basis kind) := by
  have heq : (members.map fun asset => (oldSessionOf asset).bind (index · kind)).foldl
      Inheriting.take ⟨none, true, false, []⟩ =
        gathered members fun asset => (oldSessionOf asset).bind (index · kind) := rfl
  unfold inherited
  simp only [heq, Bool.not_eq_true']
  generalize (fun asset => (oldSessionOf asset).bind (index · kind)) = prior
  split
  · next hnot =>
    have hnone : ∀ asset ∈ members, (prior asset).any userOwned = false := by
      intro asset hasset
      refine Bool.eq_false_iff.mpr fun htrue => ?_
      rw [gathered_userDecided.mpr ⟨asset, hasset, htrue⟩] at hnot
      cases hnot
    refine ⟨by simpa using hnone, fun subject => ⟨?_, ?_⟩, by simp⟩
    · rintro ⟨_, hmem, -⟩
      cases hmem
    · rintro ⟨hne, hall⟩
      obtain ⟨asset, hasset⟩ := List.exists_mem_of_ne_nil _ hne
      have := hnone asset hasset
      rw [userOwned_of_confirmed (hall asset hasset)] at this
      cases this
  · next hyes =>
    obtain ⟨asset, hasset, howned⟩ := gathered_userDecided.mp (Bool.eq_true_of_not_eq_false hyes)
    have hne : members ≠ [] := List.ne_nil_of_mem hasset
    have hsome : ¬ ∀ asset ∈ members, (prior asset).any userOwned = false := fun hnone => by
      rw [hnone asset hasset] at howned
      cases howned
    split
    · next hshared =>
      obtain ⟨first, hfirst, hall⟩ := (gathered_shared hne).mp hshared
      obtain ⟨-, -, -, hstate⟩ := gathered_first hfirst
      rw [hfirst, Option.map_some]
      refine ⟨⟨nofun, fun hnone => absurd hnone hsome⟩, fun subject => ⟨?_, ?_⟩, ?_⟩
      · rintro ⟨_, ⟨⟩, -, rfl⟩
        exact ⟨hne, hall⟩
      · rintro ⟨-, hsubject⟩
        exact ⟨_, rfl, hstate, (hall asset hasset).subject_eq (hsubject asset hasset)⟩
      · rintro _ ⟨⟩ hnot
        exact absurd hstate hnot
    · next hnot =>
      refine ⟨⟨nofun, fun hnone => absurd hnone hsome⟩, fun subject => ⟨?_, ?_⟩, ?_⟩
      · rintro ⟨_, ⟨⟩, hstate, -⟩
        cases hstate
      · rintro ⟨-, hall⟩
        obtain ⟨first, hfirst, rfl⟩ := gathered_first_of_confirmed hne hall
        exact absurd ((gathered_shared hne).mpr ⟨first, hfirst, hall⟩) hnot
      · rintro _ ⟨⟩ -
        refine ⟨by simp [pendingInheritance], rfl, fun value => ?_⟩
        rw [← mem_gathered_values]
        simp [conflictValues]

theorem inherited_names (hindex : ∀ session kind, ∀ association ∈ index session kind,
    association.kind = kind) : ∀ association ∈ inherited session members index oldSessionOf basis kind,
      association.sessionId = session ∧ association.kind = kind := by
  have heq : (members.map fun asset => (oldSessionOf asset).bind (index · kind)).foldl
      Inheriting.take ⟨none, true, false, []⟩ =
        gathered members fun asset => (oldSessionOf asset).bind (index · kind) := rfl
  intro association hassociation
  rw [Option.mem_def] at hassociation
  unfold inherited at hassociation
  simp only [heq] at hassociation
  split at hassociation
  · cases hassociation
  · split at hassociation
    · obtain ⟨first, hfirst, rfl⟩ := Option.map_eq_some_iff.mp hassociation
      obtain ⟨asset, -, hprior, -⟩ := gathered_first hfirst
      obtain ⟨old, -, hold⟩ := Option.bind_eq_some_iff.mp hprior
      exact ⟨rfl, hindex old kind first hold⟩
    · cases hassociation
      exact ⟨rfl, rfl⟩

end

end PlateVault.Library
