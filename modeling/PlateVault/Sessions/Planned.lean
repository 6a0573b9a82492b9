import PlateVault.Sessions.Calls

/-!
# What a checked grouping and its plan are

A grouping that passes the check splits the expected assets among its candidates. The plan keeps a
session exactly where one candidate continues it, and creates a session for every other candidate.
-/

namespace PlateVault.Library

variable {P : Platform} {R : Reader}

/-! ## The check -/

theorem checkIds_eq_ok {expected seen ids seen' : List Uuid}
    (h : checkIds expected seen ids = .ok seen') :
    seen' = ids.reverse ++ seen ∧ ids.Nodup ∧ (∀ id ∈ ids, id ∈ expected) ∧
      ∀ id ∈ ids, id ∉ seen := by
  induction ids generalizing seen with
  | nil =>
    cases h
    simp
  | cons id ids ih =>
    simp only [checkIds, Result.bind_eq_ok, Result.require_eq_ok, Bool.and_eq_true,
      Bool.not_eq_true', List.contains_eq_mem, decide_eq_true_eq, decide_eq_false_iff_not] at h
    obtain ⟨-, ⟨hexpected, hseen⟩, hrest⟩ := h
    obtain ⟨rfl, hnodup, hall, hnew⟩ := ih hrest
    refine ⟨by simp, List.nodup_cons.mpr ⟨fun hmem => ?_, hnodup⟩, ?_, ?_⟩
    · exact hnew id hmem List.mem_cons_self
    · rintro other (_ | ⟨_, hmem⟩)
      · exact hexpected
      · exact hall other hmem
    · rintro other (_ | ⟨_, hmem⟩)
      · exact hseen
      · exact fun hother => hnew other hmem (List.mem_cons_of_mem _ hother)

/-- A candidate by itself: it is not empty, and its framing is valid and anchored in it. -/
structure SoundCandidate (candidate : SessionCandidate P) : Prop where
  key : candidate.key ≠ []
  inhabited : candidate.assetIds ≠ []
  framing : ∀ framing ∈ candidate.framing, framing.validate = .ok () ∧
    framing.anchorAssetId ∈ candidate.assetIds

theorem checkAnchor_eq_ok {candidate : SessionCandidate P} {u : Unit}
    (h : checkAnchor candidate = .ok u) : ∀ framing ∈ candidate.framing,
      framing.validate = .ok () ∧ framing.anchorAssetId ∈ candidate.assetIds := by
  intro framing hframing
  rw [Option.mem_def] at hframing
  simp only [checkAnchor, hframing, Result.bind_eq_ok, Result.require_eq_ok] at h
  obtain ⟨_, hvalid, hanchor⟩ := h
  exact ⟨hvalid, by simpa using hanchor⟩

theorem checkCandidates_eq_ok {expected seen seen' : List Uuid}
    {candidates : List (SessionCandidate P)}
    (h : checkCandidates expected seen candidates = .ok seen') :
    seen' = (candidates.flatMap SessionCandidate.assetIds).reverse ++ seen ∧
      (candidates.flatMap SessionCandidate.assetIds).Nodup ∧
      (∀ id ∈ candidates.flatMap SessionCandidate.assetIds, id ∈ expected ∧ id ∉ seen) ∧
      ∀ candidate ∈ candidates, SoundCandidate candidate := by
  induction candidates generalizing seen with
  | nil =>
    cases h
    simp
  | cons candidate candidates ih =>
    simp only [checkCandidates, Result.bind_eq_ok, Result.require_eq_ok, Bool.and_eq_true,
      Bool.not_eq_true', List.isEmpty_eq_false_iff] at h
    obtain ⟨_, ⟨hkey, hids⟩, _, hanchor, seen₁, hcheck, hrest⟩ := h
    obtain ⟨rfl, hnodup, hall, hnew⟩ := checkIds_eq_ok hcheck
    obtain ⟨rfl, hnodup', hall', hsound⟩ := ih hrest
    have hdisjoint : ∀ id ∈ candidates.flatMap SessionCandidate.assetIds,
        id ∉ candidate.assetIds := fun id hid hmem =>
      (hall' id hid).2 (by simp [hmem])
    refine ⟨by simp, ?_, ?_, ?_⟩
    · rw [List.flatMap_cons]
      exact List.nodup_append.mpr ⟨hnodup, hnodup', fun a ha b hb hab =>
        hdisjoint b hb (hab ▸ ha)⟩
    · intro id hid
      rw [List.flatMap_cons, List.mem_append] at hid
      rcases hid with hid | hid
      · exact ⟨hall id hid, hnew id hid⟩
      · exact ⟨(hall' id hid).1, fun hseen => (hall' id hid).2 (by simp [hseen])⟩
    · rintro other (_ | ⟨_, hmem⟩)
      · exact ⟨hkey, hids, checkAnchor_eq_ok hanchor⟩
      · exact hsound other hmem

/-- What a grouping of the expected assets returns once it passes the check. -/
structure Checked (result : List (SessionCandidate P)) (expected : List Uuid) : Prop where
  sound : ∀ candidate ∈ result, SoundCandidate candidate
  nodup : (result.flatMap SessionCandidate.assetIds).Nodup
  mem : ∀ id, id ∈ result.flatMap SessionCandidate.assetIds ↔ id ∈ expected

theorem checkedGrouping_eq_ok {result result' : List (SessionCandidate P)} {expected : List Uuid}
    (h : checkedGrouping result expected = .ok result') :
    result' = result ∧ Checked result expected := by
  simp only [checkedGrouping, Result.bind_eq_ok, Result.require_eq_ok, decide_eq_true_eq,
    Result.pure_eq_ok] at h
  obtain ⟨seen, hcheck, -, hlength, rfl⟩ := h
  obtain ⟨rfl, hnodup, hall, hsound⟩ := checkCandidates_eq_ok hcheck
  refine ⟨rfl, hsound, hnodup, fun id => ⟨fun hid => (hall id hid).1, fun hid => ?_⟩⟩
  -- as many distinct ids as expected, all of them expected
  have hsub := List.subperm_of_subset hnodup fun id hid => (hall id hid).1
  have hperm := hsub.perm_of_length_le (by simpa using hlength.ge)
  exact hperm.mem_iff.mpr hid

namespace Checked

variable {result : List (SessionCandidate P)} {expected : List Uuid}

theorem mem_expected (h : Checked result expected) {candidate : SessionCandidate P}
    (hcandidate : candidate ∈ result) {id : Uuid} (hid : id ∈ candidate.assetIds) :
    id ∈ expected :=
  (h.mem id).mp (List.mem_flatMap.mpr ⟨candidate, hcandidate, hid⟩)

theorem disjoint (h : Checked result expected) :
    result.Pairwise fun c c' => ∀ id ∈ c.assetIds, id ∉ c'.assetIds := by
  have hpairwise := (List.nodup_flatMap.mp h.nodup).2
  exact hpairwise.imp fun hdisjoint id hid hid' => hdisjoint hid hid'

end Checked

/-! ## The plan -/

@[simp] theorem mem_candidateMembers {candidate : SessionCandidate P} {id : Uuid} :
    id ∈ candidateMembers candidate ↔ id ∈ candidate.assetIds := Ordered.mem_ascending

/-- The candidate is the session with assets in no session added, if any. -/
structure Continues (session : PriorSession P) (oldSessionOf : Uuid → Option Uuid)
    (candidate : SessionCandidate P) : Prop where
  key : session.key = candidate.key
  inhabited : session.members ≠ []
  members : ∀ id ∈ session.members, id ∈ candidate.assetIds
  added : ∀ id ∈ candidate.assetIds, id ∈ session.members ∨ oldSessionOf id = none

section

variable {prior : List (PriorSession P)} {oldSessionOf : Uuid → Option Uuid}

theorem keeper_pred {kept : List Uuid} {candidate : SessionCandidate P}
    {session : PriorSession P} :
    (!kept.contains session.id && session.key = candidate.key && !session.members.isEmpty &&
      session.members.all (candidateMembers candidate).contains &&
      (candidateMembers candidate).all fun asset =>
        session.members.contains asset || (oldSessionOf asset).isNone) = true ↔
      session.id ∉ kept ∧ Continues session oldSessionOf candidate := by
  simp only [Bool.and_eq_true, Bool.not_eq_true', List.contains_eq_mem, decide_eq_true_eq,
    decide_eq_false_iff_not, List.isEmpty_eq_false_iff, List.all_eq_true, mem_candidateMembers,
    Bool.or_eq_true, Option.isNone_iff_eq_none]
  constructor
  · rintro ⟨⟨⟨⟨hkept, hkey⟩, hinhabited⟩, hmembers⟩, hadded⟩
    exact ⟨hkept, hkey, hinhabited, hmembers, hadded⟩
  · rintro ⟨hkept, hkey, hinhabited, hmembers, hadded⟩
    exact ⟨⟨⟨⟨hkept, hkey⟩, hinhabited⟩, hmembers⟩, hadded⟩

theorem keeper_eq_some {kept : List Uuid} {candidate : SessionCandidate P}
    {session : PriorSession P} (h : keeper prior oldSessionOf kept candidate = some session) :
    session ∈ prior ∧ session.id ∉ kept ∧ Continues session oldSessionOf candidate := by
  have hpred := List.find?_some h
  exact ⟨List.mem_of_find?_eq_some h, keeper_pred.mp hpred⟩

theorem keeper_eq_none {kept : List Uuid} {candidate : SessionCandidate P}
    (h : keeper prior oldSessionOf kept candidate = none) {session : PriorSession P}
    (hsession : session ∈ prior) (hkept : session.id ∉ kept) :
    ¬ Continues session oldSessionOf candidate := fun hcontinues =>
  List.find?_eq_none.mp h session hsession (keeper_pred.mpr ⟨hkept, hcontinues⟩)

/-- A kept session is a prior one its candidate continues. -/
structure Keeps (prior : List (PriorSession P)) (oldSessionOf : Uuid → Option Uuid)
    (kept : KeptSession P) (session : PriorSession P) : Prop where
  mem : session ∈ prior
  id : session.id = kept.id
  continues : Continues session oldSessionOf kept.candidate
  added : ∀ id, id ∈ kept.added ↔ id ∈ kept.candidate.assetIds ∧ id ∉ session.members

/-- A plan of the candidates `done`, each kept or created. -/
structure Planned (prior : List (PriorSession P)) (oldSessionOf : Uuid → Option Uuid)
    (done : List (SessionCandidate P)) (plan : GroupPlan P) : Prop where
  perm : (plan.kept.map KeptSession.candidate ++ plan.created).Perm done
  keptOnce : (plan.kept.map KeptSession.id).Nodup
  kept : ∀ kept ∈ plan.kept, ∃ session, Keeps prior oldSessionOf kept session
  created : ∀ candidate ∈ plan.created, ∀ session ∈ prior,
    ¬ Continues session oldSessionOf candidate

namespace Planned

variable {done : List (SessionCandidate P)} {plan : GroupPlan P}

theorem mem_done (h : Planned prior oldSessionOf done plan) {candidate : SessionCandidate P} :
    candidate ∈ done ↔
      (∃ kept ∈ plan.kept, kept.candidate = candidate) ∨ candidate ∈ plan.created := by
  rw [← h.perm.mem_iff, List.mem_append, List.mem_map]

theorem next (hprior : (prior.map PriorSession.id).Nodup) {candidate : SessionCandidate P}
    (hdisjoint : ∀ other ∈ done, ∀ id ∈ other.assetIds, id ∉ candidate.assetIds)
    (h : Planned prior oldSessionOf done plan) :
    Planned prior oldSessionOf (done ++ [candidate])
      (match keeper prior oldSessionOf (plan.kept.map KeptSession.id) candidate with
        | some session =>
          { plan with
            kept := plan.kept ++ [{
              id := session.id, candidate
              added := (candidateMembers candidate).filter (!session.members.contains ·) }] }
        | none => { plan with created := plan.created ++ [candidate] }) := by
  split
  · next session hkeeper =>
    obtain ⟨hmem, hfresh, hcontinues⟩ := keeper_eq_some hkeeper
    constructor
    · simp only [List.map_append, List.map_cons, List.map_nil, List.append_assoc]
      exact (List.perm_append_comm.append_left _).trans
        (by simpa using h.perm.append_right [candidate])
    · simp only [List.map_append, List.map_cons, List.map_nil]
      exact List.nodup_append.mpr ⟨h.keptOnce, by simp, by
        rintro a ha b hb rfl
        rw [List.mem_singleton] at hb
        exact hfresh (hb ▸ ha)⟩
    · intro kept hkept
      rcases List.mem_append.mp hkept with hkept | hkept
      · exact h.kept kept hkept
      · rw [List.mem_singleton] at hkept
        subst hkept
        exact ⟨session, hmem, rfl, hcontinues, fun id => by simp⟩
    · exact h.created
  · next hkeeper =>
    refine ⟨?_, h.keptOnce, h.kept, ?_⟩
    · rw [← List.append_assoc]
      exact h.perm.append_right _
    · intro other hother session hsession
      rcases List.mem_append.mp hother with hother | hother
      · exact h.created other hother session hsession
      · rw [List.mem_singleton] at hother
        subst hother
        by_cases hkept : session.id ∈ plan.kept.map KeptSession.id
        · -- an earlier candidate holds the session's members
          obtain ⟨kept, hin, hid⟩ := List.mem_map.mp hkept
          obtain ⟨session', hkeeps⟩ := h.kept kept hin
          obtain rfl : session' = session := List.inj_on_of_nodup_map hprior hkeeps.mem hsession
            (hkeeps.id.trans hid)
          obtain ⟨id, hmember⟩ := List.exists_mem_of_ne_nil _ hkeeps.continues.inhabited
          exact fun hcontinues => hdisjoint kept.candidate
            (h.mem_done.mpr (.inl ⟨kept, hin, rfl⟩)) id (hkeeps.continues.members id hmember)
            (hcontinues.members id hmember)
        · exact keeper_eq_none hkeeper hsession hkept

theorem planCandidates (hprior : (prior.map PriorSession.id).Nodup)
    {candidates : List (SessionCandidate P)}
    (hdisjoint : (done ++ candidates).Pairwise fun c c' => ∀ id ∈ c.assetIds, id ∉ c'.assetIds)
    (h : Planned prior oldSessionOf done plan) :
    Planned prior oldSessionOf (done ++ candidates)
      (planCandidates prior oldSessionOf plan candidates) := by
  induction candidates generalizing done plan with
  | nil => simpa [Library.planCandidates] using h
  | cons candidate candidates ih =>
    have hsplit : done ++ candidate :: candidates = (done ++ [candidate]) ++ candidates := by simp
    rw [hsplit] at hdisjoint ⊢
    refine ih hdisjoint (h.next hprior fun other hother => ?_)
    exact (List.pairwise_append.mp (List.pairwise_append.mp hdisjoint).1).2.2 other hother
      candidate (List.mem_singleton_self _)

end Planned

theorem planGrouping_planned (hprior : (prior.map PriorSession.id).Nodup)
    {result : List (SessionCandidate P)} {expected : List Uuid}
    (hchecked : Checked result expected) :
    Planned prior oldSessionOf result (planGrouping prior oldSessionOf result) := by
  have hstart : Planned prior oldSessionOf [] ⟨[], [], []⟩ :=
    ⟨.nil, .nil, by simp, by simp⟩
  obtain ⟨hperm, honce, hkept, hcreated⟩ := hstart.planCandidates hprior
    (by simpa using hchecked.disjoint)
  exact ⟨hperm, honce, hkept, hcreated⟩

theorem mem_superseded {result : List (SessionCandidate P)} {id : Uuid} :
    id ∈ (planGrouping prior oldSessionOf result).superseded ↔
      (∃ session ∈ prior, session.id = id) ∧
        ∀ kept ∈ (planGrouping prior oldSessionOf result).kept, kept.id ≠ id := by
  simp [planGrouping]

end

end PlateVault.Library
