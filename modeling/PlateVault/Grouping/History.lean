import PlateVault.Grouping.Standing

/-!
# Regrouping over an intake history

Each regroup is given the sessions of the last one. `Grounded` is what carries over: the assignments
behind the sessions fit together, so the next regroup seeds them as they were. A session then keeps
its assets, its anchor, its label and its limits, whatever the margins of the regroups to come.
-/

namespace PlateVault

variable {P : Platform} {S : Sky P}

theorem grounded_nil {frames : List (Frame P)} (hids : (frames.map Frame.id).Nodup) (margins : FramingMargins P) :
    Grounded S frames [] margins :=
  ⟨hids, .nil, fun key _ => (fresh_bucketAssignment S margins key hids).sound⟩

section Step

variable {frames frames' : List (Frame P)} {standing : List (StandingSession P)}
  {margins : FramingMargins P} {key : Text}

theorem Grounded.pairwise_disjoint (h : Grounded S frames standing margins) :
    ((groupFrames S frames standing margins).Pairwise fun left right =>
      left.assetIds.Disjoint right.assetIds) := by
  have hnodup := (perm_session_ids (S := S) h.ids h.disjoint margins).nodup_iff.mpr h.ids
  exact (List.nodup_flatMap.mp hnodup).2

theorem Grounded.eq_of_mem (h : Grounded S frames standing margins)
    {session other : SessionCandidate P} (hsession : session ∈ groupFrames S frames standing margins)
    (hother : other ∈ groupFrames S frames standing margins) {id : Uuid}
    (hid : id ∈ session.assetIds) (hid' : id ∈ other.assetIds) : session = other := by
  have : Std.Symm fun left right : SessionCandidate P => left.assetIds.Disjoint right.assetIds :=
    ⟨fun _ _ h => h.symm⟩
  by_contra hne
  exact h.pairwise_disjoint.forall hsession hother hne hid hid'

theorem mem_standing_members (h : Grounded S frames standing margins)
    (hids : (frames'.map Frame.id).Nodup) (hsub : ∀ frame ∈ frames, frame ∈ frames')
    (hkey : key ∈ frames.map Frame.key) {frame : Frame P} :
    frame ∈ (standingIn key (bucketOf frames' key).members
      ((groupFrames S frames standing margins).map SessionCandidate.standing)).flatMap
        Standing.members ↔ frame ∈ (bucketOf frames key).members := by
  have hpart := isPartition_splits (S := S) h.ids h.disjoint margins key
  have hpool : ∀ split ∈ (bucketOf frames key).splits S standing margins,
      ∀ member ∈ split.members, member ∈ (bucketOf frames' key).members :=
    fun split hsplit member hmember =>
      mem_bucketOf_mono hsub (hpart.mem (List.mem_map_of_mem hsplit) hmember)
  rw [((perm_standingIn h hsub hkey).flatMap_right _).mem_iff, hpart.cover frame]
  simp only [List.mem_flatMap, List.mem_map, exists_exists_and_eq_and]
  exact exists_congr fun split => and_congr_right fun hsplit =>
    mem_lookUp (nodup_pool hids) (hpool split hsplit)

theorem sound_again (hfinite : S.FiniteRa) (h : Grounded S frames standing margins)
    (hids : (frames'.map Frame.id).Nodup) (hsub : ∀ frame ∈ frames, frame ∈ frames')
    (margins' : FramingMargins P) (hlights : (bucketOf frames' key).lights = true) :
    (seedAll S (bucketRank frames' key) margins' (standingIn key (bucketOf frames' key).members
      ((groupFrames S frames standing margins).map SessionCandidate.standing))).Sound S := by
  by_cases hkey : key ∈ frames.map Frame.key
  · obtain ⟨frame, hframe, rfl⟩ := List.mem_map.mp hkey
    have hold := (bucketOf_lights hframe rfl).trans (bucketOf_lights (hsub frame hframe) rfl).symm
    exact sound_seedAll hfinite h hids hsub (hold.trans hlights) _ margins'
  · rw [standingIn_of_notMem hkey]
    exact .empty

theorem Grounded.again (hfinite : S.FiniteRa) (h : Grounded S frames standing margins)
    (hids : (frames'.map Frame.id).Nodup) (hsub : ∀ frame ∈ frames, frame ∈ frames')
    (margins' : FramingMargins P) :
    Grounded S frames' ((groupFrames S frames standing margins).map SessionCandidate.standing)
      margins' where
  ids := hids
  disjoint := by
    rw [List.map_map, List.pairwise_map]
    exact h.pairwise_disjoint
  sound key hlights :=
    (sound_assigned (nodup_bucketOrder hids key)
      (sound_again hfinite h hids hsub margins' hlights)).1

/-- A session as a later regroup keeps it: the same key, all its assets, no other asset of before,
and what it records of its framing. -/
structure Kept (before : List Uuid) (session session' : SessionCandidate P) : Prop where
  key : session'.key = session.key
  assetIds : ∀ id ∈ session.assetIds, id ∈ session'.assetIds
  later : ∀ id ∈ session'.assetIds, id ∈ session.assetIds ∨ id ∉ before
  framing : ∀ record, session.framing = some record → ∃ record', session'.framing = some record' ∧
    record'.anchorAssetId = record.anchorAssetId ∧ record'.label = record.label ∧
      record'.splitLimits = record.splitLimits

theorem Grounded.extends (hfinite : S.FiniteRa) (h : Grounded S frames standing margins)
    (hids : (frames'.map Frame.id).Nodup) (hsub : ∀ frame ∈ frames, frame ∈ frames')
    (margins' : FramingMargins P) (hlights : (bucketOf frames key).lights = true)
    (hlights' : (bucketOf frames' key).lights = true) :
    Assignment.Extends (bucketOf frames key).members
      (seedAll S (bucketRank frames' key) margins' (standingIn key (bucketOf frames' key).members
        ((groupFrames S frames standing margins).map SessionCandidate.standing)))
      (bucketAssignment S frames'
        ((groupFrames S frames standing margins).map SessionCandidate.standing) margins' key) := by
  have hextends := (sound_assigned (nodup_bucketOrder hids key)
    (sound_again hfinite h hids hsub margins' hlights')).2
  exact hextends.congr fun frame =>
    (mem_standing_members h hids hsub (key_of_lights hlights)).symm

theorem Kept.ofSplits (hids : (frames'.map Frame.id).Nodup)
    (hsub : ∀ frame ∈ frames, frame ∈ frames') {split split' : Split P}
    (hmembers : ∀ member ∈ split.members, member ∈ split'.members)
    (hpool : ∀ member ∈ split'.members, member ∈ (bucketOf frames' key).members)
    (hlater : ∀ member ∈ split'.members,
      member ∈ split.members ∨ member ∉ (bucketOf frames key).members)
    (hframing : ∀ record, split.framing = some record → ∃ record', split'.framing = some record' ∧
      record'.anchorAssetId = record.anchorAssetId ∧ record'.label = record.label ∧
        record'.splitLimits = record.splitLimits) :
    Kept (frames.map Frame.id) (candidate (bucketOf frames key) split)
      (candidate (bucketOf frames' key) split') := by
  refine ⟨rfl, fun id hid => ?_, fun id hid => ?_, hframing⟩
  · obtain ⟨member, hmember, rfl⟩ := mem_assetIds_candidate.mp hid
    exact mem_assetIds_candidate.mpr ⟨member, hmembers member hmember, rfl⟩
  · obtain ⟨member, hmember, rfl⟩ := mem_assetIds_candidate.mp hid
    have hmember' := mem_bucketOf.mp (hpool member hmember)
    refine (hlater member hmember).imp (fun hold => mem_assetIds_candidate.mpr ⟨member, hold, rfl⟩)
      fun hnew hid => ?_
    obtain ⟨other, hother, hid⟩ := List.mem_map.mp hid
    obtain rfl := eq_of_id_eq hids (hsub other hother) hmember'.1 hid
    exact hnew (mem_bucketOf.mpr ⟨hother, hmember'.2⟩)

theorem Grounded.mem_pool (h : Grounded S frames standing margins) {block : List (Frame P)}
    (hblock : block ∈ (bucketAssignment S frames standing margins key).blocks) :
    ∀ member ∈ block, member ∈ (bucketOf frames key).members := fun _ hmember =>
  mem_captureOrder.mp ((isPartition_bucketAssignment S margins key h.ids h.disjoint).mem hblock
    hmember)

theorem mem_blocks_framing {state : Assignment P} {framing : Framing P}
    (hframing : framing ∈ state.framings) : framing.members ∈ state.blocks :=
  List.mem_append_left _ (List.mem_map_of_mem hframing)

theorem mem_blocks_unframed {state : Assignment P} : state.unframed ∈ state.blocks :=
  List.mem_append_right _ (List.mem_singleton.mpr rfl)

theorem kept_framing (hfinite : S.FiniteRa) (h : Grounded S frames standing margins)
    (hids : (frames'.map Frame.id).Nodup) (hsub : ∀ frame ∈ frames, frame ∈ frames')
    (margins' : FramingMargins P) (hlights : (bucketOf frames key).lights = true)
    (hlights' : (bucketOf frames' key).lights = true) {framing : Framing P}
    (hframing : framing ∈ (bucketAssignment S frames standing margins key).framings) :
    ∃ session' ∈ groupFrames S frames'
        ((groupFrames S frames standing margins).map SessionCandidate.standing) margins',
      Kept (frames.map Frame.id) (candidate (bucketOf frames key)
        ((bucketAssignment S frames standing margins key).finished S (bucketRank frames key)
          framing)) session' := by
  have hagain := h.again hfinite hids hsub margins'
  have hlookUp : ∀ member, member ∈ (framing.reseed (bucketOf frames' key).members margins').members
      ↔ member ∈ framing.members := fun member =>
    mem_lookUp (nodup_pool hids) fun member hmember =>
      mem_bucketOf_mono hsub (h.mem_pool (mem_blocks_framing hframing) member hmember)
  obtain ⟨framing', hframing', hext⟩ := (h.extends hfinite hids hsub margins' hlights hlights').framing
    _ ((perm_seedAll hfinite h hids hsub hlights _ margins').mem_iff.mpr
      (List.mem_map_of_mem hframing))
  refine ⟨_, ((mem_groupFrames_lights hlights' (key_of_lights hlights')).mpr
    ⟨_, Assignment.mem_splits.mpr (.inl ⟨framing', hframing', rfl⟩), rfl⟩).1,
    .ofSplits hids hsub ?_ (hagain.mem_pool (mem_blocks_framing hframing')) ?_ ?_⟩
  · exact fun member hmember => hext.members member ((hlookUp member).mpr hmember)
  · exact fun member hmember => (hext.later member hmember).imp_left (hlookUp member).mp
  · intro record hrecord
    cases hanchor : framing.anchor with
    | none =>
      rw [Assignment.finished_none hanchor] at hrecord
      cases hrecord
    | some anchor =>
      obtain ⟨found, -, hfound, -, -, hid, hlabel, hlimits⟩ := (h.sound key hlights).finished hfinite
        (nodup_bucketOrder h.ids key) (isPartition_bucketAssignment S margins key h.ids h.disjoint)
        hframing hanchor
      obtain ⟨record', -, hrecord', -, -, hid', hlabel', hlimits'⟩ :=
        (hagain.sound key hlights').finished hfinite (nodup_bucketOrder hids key)
          (isPartition_bucketAssignment S margins' key hids hagain.disjoint) hframing'
          (hext.anchor anchor hanchor)
      obtain rfl : found = record := Option.some.inj (hfound.symm.trans hrecord)
      refine ⟨record', hrecord', hid'.trans hid.symm, hlabel'.trans (hext.label.trans hlabel.symm), ?_⟩
      rw [hlimits', hext.limits, hlimits]
      simp [Framing.reseed, hanchor]

theorem kept_unframed (hfinite : S.FiniteRa) (h : Grounded S frames standing margins)
    (hids : (frames'.map Frame.id).Nodup) (hsub : ∀ frame ∈ frames, frame ∈ frames')
    (margins' : FramingMargins P) (hlights : (bucketOf frames key).lights = true)
    (hlights' : (bucketOf frames' key).lights = true)
    (hunframed : (bucketAssignment S frames standing margins key).unframed ≠ [])
    (notes : List Text) :
    ∃ session' ∈ groupFrames S frames'
        ((groupFrames S frames standing margins).map SessionCandidate.standing) margins',
      Kept (frames.map Frame.id) (candidate (bucketOf frames key) {
        members := (bucketAssignment S frames standing margins key).unframed
        framing := none
        notes }) session' := by
  have hagain := h.again hfinite hids hsub margins'
  have hext := h.extends hfinite hids hsub margins' hlights hlights'
  have hseed : ∀ frame, frame ∈ (seedAll S (bucketRank frames' key) margins' (standingIn key
      (bucketOf frames' key).members ((groupFrames S frames standing margins).map
        SessionCandidate.standing))).unframed ↔
      frame ∈ (bucketAssignment S frames standing margins key).unframed := fun _ =>
    mem_unframed_seedAll hfinite h hids hsub hlights _ margins'
  have hmembers := fun frame hframe => hext.unframed frame ((hseed frame).mpr hframe)
  obtain ⟨frame, hframe⟩ := List.exists_mem_of_ne_nil _ hunframed
  refine ⟨_, ((mem_groupFrames_lights hlights' (key_of_lights hlights')).mpr
    ⟨_, Assignment.mem_splits.mpr (.inr ⟨List.ne_nil_of_mem (hmembers frame hframe), rfl⟩), rfl⟩).1,
    .ofSplits hids hsub hmembers (hagain.mem_pool mem_blocks_unframed) ?_ (by simp)⟩
  exact fun member hmember => (hext.later member hmember).imp_left (hseed member).mp

theorem exists_kept (hfinite : S.FiniteRa) (h : Grounded S frames standing margins)
    (hids : (frames'.map Frame.id).Nodup) (hsub : ∀ frame ∈ frames, frame ∈ frames')
    (margins' : FramingMargins P) {session : SessionCandidate P}
    (hsession : session ∈ groupFrames S frames standing margins) :
    ∃ session' ∈ groupFrames S frames'
        ((groupFrames S frames standing margins).map SessionCandidate.standing) margins',
      Kept (frames.map Frame.id) session session' := by
  obtain ⟨key, hkey, hmem⟩ := mem_groupFrames.mp hsession
  obtain ⟨split, hsplit, rfl⟩ := mem_sessions.mp hmem
  obtain ⟨frame, hframe, rfl⟩ := List.mem_map.mp hkey
  have hsame := (bucketOf_lights hframe rfl).trans (bucketOf_lights (hsub frame hframe) rfl).symm
  by_cases hlights : (bucketOf frames frame.key).lights = true
  · rw [splits_lights standing margins hlights] at hsplit
    rcases Assignment.mem_splits.mp hsplit with ⟨framing, hframing, rfl⟩ | ⟨hunframed, rfl⟩
    · exact kept_framing hfinite h hids hsub margins' hlights (hsame ▸ hlights) hframing
    · exact kept_unframed hfinite h hids hsub margins' hlights (hsame ▸ hlights) hunframed _
  · rw [Bucket.splits, if_neg hlights, List.mem_singleton] at hsplit
    subst hsplit
    refine ⟨candidate (bucketOf frames' frame.key) {
      members := (bucketOf frames' frame.key).members, framing := none, notes := [] },
      mem_groupFrames.mpr ⟨frame.key, List.mem_map_of_mem (hsub frame hframe),
        mem_sessions.mpr ⟨_, ?_, rfl⟩⟩, .ofSplits hids hsub ?_ (fun _ h => h) ?_ (by simp)⟩
    · rw [Bucket.splits, if_neg (hsame ▸ hlights)]
      exact List.mem_singleton.mpr rfl
    · exact fun member hmember => mem_bucketOf_mono hsub hmember
    · exact fun member _ => Classical.em _

/-! ## The same assets -/

theorem finishOne_reseed (rank : Frame P → Nat) (anchors : List Nat) (pool : List (Frame P))
    (margins : FramingMargins P) (framing : Framing P) :
    (finishOne S rank anchors (framing.reseed pool margins)).framing =
        (finishOne S rank anchors framing).framing ∧
      (finishOne S rank anchors (framing.reseed pool margins)).notes =
        (finishOne S rank anchors framing).notes := by
  cases hanchor : framing.anchor with
  | none => simp [finishOne, Framing.reseed, hanchor]
  | some anchor =>
    have hrecord : ∀ ordinal, sessionFraming S anchor ordinal (framing.reseed pool margins) =
        sessionFraming S anchor ordinal framing := by
      intro ordinal
      simp [sessionFraming, Framing.reseed, hanchor]
    have hsame : (framing.reseed pool margins).anchor = some anchor := hanchor
    simp [finishOne, hanchor, hsame, hrecord]

theorem candidate_congr {bucket : Bucket P} {split split' : Split P}
    (hmembers : ∀ member, member ∈ split.members ↔ member ∈ split'.members)
    (hframing : split.framing = split'.framing) (hnotes : split.notes = split'.notes) :
    candidate bucket split = candidate bucket split' := by
  have hids : Ordered.ascending (split.members.map Frame.id) =
      Ordered.ascending (split'.members.map Frame.id) :=
    Ordered.ascending_congr fun id => by simp only [List.mem_map, hmembers]
  have hprovisional : ∀ notes : List Text, Ordered.ascending (notes ++
        split.members.flatMap fun frame => (derive frame.metadata).provisional) =
      Ordered.ascending (notes ++
        split'.members.flatMap fun frame => (derive frame.metadata).provisional) := fun notes =>
    Ordered.ascending_congr fun note => by simp only [List.mem_append, List.mem_flatMap, hmembers]
  simp only [candidate, hids, hframing, hnotes, hprovisional]

theorem sortKey_ne {left right : SessionCandidate P} (h : left.assetIds.Disjoint right.assetIds)
    (hleft : left.assetIds ≠ []) : left.sortKey ≠ right.sortKey := by
  intro heq
  obtain ⟨first, rest, hids⟩ := List.exists_cons_of_ne_nil hleft
  simp only [SessionCandidate.sortKey, hids, List.head?_cons, EmbeddingLike.apply_eq_iff_eq,
    Prod.mk.injEq] at heq
  cases hright : right.assetIds with
  | nil => simp [hright] at heq
  | cons other others =>
    simp only [hright, List.head?_cons, WithBot.coe_inj] at heq
    refine h (a := first) (hids ▸ List.mem_cons_self) ?_
    rw [hright, heq.2]
    exact List.mem_cons_self

theorem nonempty_splits (h : Grounded S frames standing margins) (hkey : key ∈ frames.map Frame.key) :
    ∀ split ∈ (bucketOf frames key).splits S standing margins, split.members ≠ [] := by
  intro split hsplit
  by_cases hlights : (bucketOf frames key).lights = true
  · rw [splits_lights standing margins hlights] at hsplit
    rcases Assignment.mem_splits.mp hsplit with ⟨framing, hframing, rfl⟩ | ⟨hunframed, rfl⟩
    · obtain ⟨member, hmember⟩ := ((h.sound key hlights).framing framing hframing).nonempty
      exact List.ne_nil_of_mem hmember
    · exact hunframed
  · rw [Bucket.splits, if_neg hlights, List.mem_singleton] at hsplit
    obtain ⟨frame, hframe, rfl⟩ := List.mem_map.mp hkey
    exact hsplit ▸ List.ne_nil_of_mem (mem_bucketOf.mpr ⟨hframe, rfl⟩)

theorem Grounded.nonempty (h : Grounded S frames standing margins) {session : SessionCandidate P}
    (hsession : session ∈ groupFrames S frames standing margins) :
    ∃ id ∈ session.assetIds, id ∈ frames.map Frame.id := by
  obtain ⟨key, hkey, hmem⟩ := mem_groupFrames.mp hsession
  obtain ⟨split, hsplit, rfl⟩ := mem_sessions.mp hmem
  obtain ⟨member, hmember⟩ := List.exists_mem_of_ne_nil _ (nonempty_splits h hkey split hsplit)
  have hpool := (isPartition_splits h.ids h.disjoint margins key).mem (List.mem_map_of_mem hsplit)
    hmember
  exact ⟨member.id, mem_assetIds_candidate.mpr ⟨member, hmember, rfl⟩,
    List.mem_map_of_mem (mem_bucketOf.mp hpool).1⟩

theorem pairwise_sortKey (h : Grounded S frames standing margins)
    (hlights : (bucketOf frames key).lights = true) :
    (((bucketOf frames key).splits S standing margins).map (candidate (bucketOf frames key))).Pairwise
      fun left right => left.sortKey ≠ right.sortKey := by
  have hpart := isPartition_splits (S := S) h.ids h.disjoint margins key
  have hnonempty := nonempty_splits h (key_of_lights hlights)
  have hdisjoint := hpart.disjoint
  rw [List.pairwise_map] at hdisjoint ⊢
  refine hdisjoint.imp_of_mem fun {left right} hleft hright hdisjoint => ?_
  refine sortKey_ne (fun id hid hid' => ?_) ?_
  · obtain ⟨member, hmember, rfl⟩ := mem_assetIds_candidate.mp hid
    obtain ⟨other, hother, heq⟩ := mem_assetIds_candidate.mp hid'
    have hmem := fun {split frame} hsplit (hframe : frame ∈ Split.members split) =>
      (mem_bucketOf.mp (hpart.mem (List.mem_map_of_mem hsplit) hframe)).1
    obtain rfl := eq_of_id_eq h.ids (hmem hright hother) (hmem hleft hmember) heq
    exact hdisjoint hmember hother
  · obtain ⟨member, hmember⟩ := List.exists_mem_of_ne_nil _ (hnonempty left hleft)
    exact List.ne_nil_of_mem (mem_assetIds_candidate.mpr ⟨member, hmember, rfl⟩)

theorem anchorRanks_reseed {rank : Frame P → Nat} {framings seeds : List (Framing P)}
    {pool : List (Frame P)} (hperm : seeds.Perm (framings.map (Framing.reseed pool margins))) :
    anchorRanks rank seeds = anchorRanks rank framings := by
  have hranks : (seeds.filterMap fun framing => framing.anchor.map rank).Perm
      (framings.filterMap fun framing => framing.anchor.map rank) := by
    refine (hperm.filterMap _).trans (List.Perm.of_eq ?_)
    rw [List.filterMap_map]
    rfl
  have hsorted := fun l : List Nat => Ordered.pairwise_sortBy id l
  exact (((Ordered.perm_sortBy _ _).trans hranks).trans (Ordered.perm_sortBy _ _).symm).eq_of_pairwise
    (fun _ _ _ _ => le_antisymm) (hsorted _) (hsorted _)

theorem bucketAssignment_again (h : Grounded S frames standing margins)
    (margins' : FramingMargins P) (hlights : (bucketOf frames key).lights = true) :
    bucketAssignment S frames
      ((groupFrames S frames standing margins).map SessionCandidate.standing) margins' key =
      seedAll S (bucketRank frames key) margins' (standingIn key (bucketOf frames key).members
        ((groupFrames S frames standing margins).map SessionCandidate.standing)) := by
  have hplaced : ∀ frame, frame ∈ (standingIn key (bucketOf frames key).members
      ((groupFrames S frames standing margins).map SessionCandidate.standing)).flatMap
        Standing.members ↔ frame ∈ (bucketOf frames key).members := fun _ =>
    mem_standing_members h h.ids (fun _ h => h) (key_of_lights hlights)
  have hnone : unplaced (captureOrder (bucketOf frames key).members) (standingIn key
      (bucketOf frames key).members ((groupFrames S frames standing margins).map
        SessionCandidate.standing)) = [] := by
    refine List.eq_nil_iff_forall_not_mem.mpr fun frame hframe => ?_
    rw [mem_unplaced (nodup_bucketOrder h.ids key)
      fun frame hframe => mem_captureOrder.mpr ((hplaced frame).mp hframe)] at hframe
    exact hframe.2 ((hplaced frame).mpr (mem_captureOrder.mp hframe.1))
  exact congrArg (List.foldl (place S (bucketRank frames key) margins') _) hnone

theorem perm_candidates (hfinite : S.FiniteRa) (h : Grounded S frames standing margins)
    (margins' : FramingMargins P) (hlights : (bucketOf frames key).lights = true) :
    (((bucketOf frames key).splits S
      ((groupFrames S frames standing margins).map SessionCandidate.standing) margins').map
        (candidate (bucketOf frames key))).Perm
      (((bucketOf frames key).splits S standing margins).map (candidate (bucketOf frames key))) := by
  have hseeds := perm_seedAll hfinite h h.ids (fun _ h => h) hlights (bucketRank frames key) margins'
  have hunframed : ∀ frame, frame ∈ (seedAll S (bucketRank frames key) margins' (standingIn key
      (bucketOf frames key).members ((groupFrames S frames standing margins).map
        SessionCandidate.standing))).unframed ↔
      frame ∈ (bucketAssignment S frames standing margins key).unframed := fun _ =>
    mem_unframed_seedAll hfinite h h.ids (fun _ h => h) hlights _ margins'
  rw [← bucketAssignment_again h margins' hlights] at hseeds hunframed
  rw [splits_lights _ margins' hlights, splits_lights standing margins hlights, Assignment.splits,
    Assignment.splits, List.map_append, List.map_append]
  refine List.Perm.append ?_ (List.Perm.of_eq ?_)
  · rw [finish, finish, List.map_map, List.map_map, anchorRanks_reseed hseeds]
    refine (hseeds.map _).trans (List.Perm.of_eq ?_)
    rw [List.map_map]
    refine List.map_congr_left fun framing hframing => ?_
    obtain ⟨hrecord, hnotes⟩ := finishOne_reseed (S := S) (bucketRank frames key)
      (anchorRanks (bucketRank frames key) (bucketAssignment S frames standing margins key).framings)
      (bucketOf frames key).members margins' framing
    exact candidate_congr (fun member => mem_lookUp (nodup_pool h.ids)
      (h.mem_pool (mem_blocks_framing hframing))) hrecord hnotes
  · have hempty : (bucketAssignment S frames ((groupFrames S frames standing margins).map
        SessionCandidate.standing) margins' key).unframed = [] ↔
        (bucketAssignment S frames standing margins key).unframed = [] := by
      simp only [List.eq_nil_iff_forall_not_mem, hunframed]
    simp only [List.isEmpty_iff, hempty]
    split
    · rfl
    · simp only [List.map_cons, List.map_nil, List.cons.injEq, and_true]
      exact candidate_congr hunframed rfl rfl

theorem groupFrames_again (hfinite : S.FiniteRa) (h : Grounded S frames standing margins)
    (margins' : FramingMargins P) :
    groupFrames S frames ((groupFrames S frames standing margins).map SessionCandidate.standing)
      margins' = groupFrames S frames standing margins := by
  have hsessions : ∀ key, (bucketOf frames key).sessions S
      ((groupFrames S frames standing margins).map SessionCandidate.standing) margins' =
        (bucketOf frames key).sessions S standing margins := by
    intro key
    by_cases hlights : (bucketOf frames key).lights = true
    · exact (Ordered.sortBy_congr (pairwise_sortKey h hlights)
        (perm_candidates hfinite h margins' hlights).symm).symm
    · rw [Bucket.sessions, Bucket.sessions, Bucket.splits, Bucket.splits, if_neg hlights,
        if_neg hlights]
  rw [groupFrames, buckets, List.flatMap_map]
  conv_rhs => rw [groupFrames, buckets, List.flatMap_map]
  exact List.flatMap_congr fun key _ => hsessions key

end Step

/-! ## Histories -/

/-- The sessions after each intake: every regroup is given those of the last one. -/
def regroupHistory (S : Sky P) (assets : Nat → List (Asset P)) (margins : Nat → FramingMargins P) :
    Nat → List (SessionCandidate P)
  | 0 => regroupAssets S (assets 0) [] (margins 0)
  | n + 1 => regroupAssets S (assets (n + 1))
      ((regroupHistory S assets margins n).map SessionCandidate.standing) (margins (n + 1))

/-- How sessions carry over to the next regroup: none is empty, each lies inside exactly one session
of its key, no two inside the same one, and a recorded framing keeps its anchor, its label and its
limits. -/
structure Stable (sessions sessions' : List (SessionCandidate P)) : Prop where
  nonempty : ∀ session ∈ sessions, session.assetIds ≠ []
  inside : ∀ session ∈ sessions, ∃ session' ∈ sessions', session'.key = session.key ∧
    session.assetIds ⊆ session'.assetIds ∧
      ∀ other ∈ sessions', (∃ id ∈ session.assetIds, id ∈ other.assetIds) → other = session'
  apart : sessions.Pairwise fun left right => ∀ session' ∈ sessions',
    left.assetIds ⊆ session'.assetIds → ¬ right.assetIds ⊆ session'.assetIds
  framing : ∀ session ∈ sessions, ∀ session' ∈ sessions', session.assetIds ⊆ session'.assetIds →
    ∀ record, session.framing = some record → ∃ record', session'.framing = some record' ∧
      record'.anchorAssetId = record.anchorAssetId ∧ record'.label = record.label ∧
        record'.splitLimits = record.splitLimits

theorem Grounded.stable (hfinite : S.FiniteRa) {frames frames' : List (Frame P)}
    {standing : List (StandingSession P)} {margins : FramingMargins P}
    (h : Grounded S frames standing margins) (hids : (frames'.map Frame.id).Nodup)
    (hsub : ∀ frame ∈ frames, frame ∈ frames') (margins' : FramingMargins P) :
    Stable (groupFrames S frames standing margins) (groupFrames S frames'
      ((groupFrames S frames standing margins).map SessionCandidate.standing) margins') := by
  have hagain := h.again hfinite hids hsub margins'
  -- the session that keeps `session` is the only one that shares an asset with it
  have hkept : ∀ session ∈ groupFrames S frames standing margins, ∃ session' ∈ groupFrames S frames'
      ((groupFrames S frames standing margins).map SessionCandidate.standing) margins',
      Kept (frames.map Frame.id) session session' ∧ ∀ other ∈ groupFrames S frames'
        ((groupFrames S frames standing margins).map SessionCandidate.standing) margins',
        (∃ id ∈ session.assetIds, id ∈ other.assetIds) → other = session' := by
    intro session hsession
    obtain ⟨session', hsession', hkept⟩ := exists_kept hfinite h hids hsub margins' hsession
    refine ⟨session', hsession', hkept, ?_⟩
    rintro other hother ⟨id, hid, hid'⟩
    exact hagain.eq_of_mem hother hsession' hid' (hkept.assetIds id hid)
  refine ⟨?_, ?_, ?_, ?_⟩
  · intro session hsession
    obtain ⟨id, hid, -⟩ := h.nonempty hsession
    exact List.ne_nil_of_mem hid
  · intro session hsession
    obtain ⟨session', hsession', hkept, honly⟩ := hkept session hsession
    exact ⟨session', hsession', hkept.key, hkept.assetIds, honly⟩
  · refine h.pairwise_disjoint.imp_of_mem fun {left right} hleft hright hdisjoint => ?_
    intro session' hsession' hleftSub hrightSub
    obtain ⟨kept, hmem, hkept, honly⟩ := hkept left hleft
    obtain ⟨id, hid, -⟩ := h.nonempty hleft
    obtain ⟨other, hother, hbefore⟩ := h.nonempty hright
    obtain rfl := honly session' hsession' ⟨id, hid, hleftSub hid⟩
    rcases hkept.later other (hrightSub hother) with hold | hnew
    · exact hdisjoint hold hother
    · exact hnew hbefore
  · intro session hsession session' hsession' hsub' record hrecord
    obtain ⟨kept, hmem, hkept, honly⟩ := hkept session hsession
    obtain ⟨id, hid, -⟩ := h.nonempty hsession
    obtain rfl := honly session' hsession' ⟨id, hid, hsub' hid⟩
    exact hkept.framing record hrecord

theorem exists_grounded (hfinite : S.FiniteRa) {assets : Nat → List (Asset P)}
    (margins : Nat → FramingMargins P) (hids : ∀ n, ((assets n).map Asset.id).Nodup)
    (hsub : ∀ n, ∀ asset ∈ assets n, asset ∈ assets (n + 1)) (n : Nat) :
    ∃ standing, Grounded S ((assets n).map Frame.ofAsset) standing (margins n) ∧
      regroupHistory S assets margins n = regroupAssets S (assets n) standing (margins n) := by
  have hframes : ∀ n, (((assets n).map Frame.ofAsset).map Frame.id).Nodup := fun n => by
    rw [List.map_map]
    exact hids n
  induction n with
  | zero => exact ⟨[], grounded_nil (hframes 0) _, rfl⟩
  | succ n ih =>
    obtain ⟨standing, hgrounded, hhistory⟩ := ih
    refine ⟨(regroupHistory S assets margins n).map SessionCandidate.standing, ?_, rfl⟩
    rw [hhistory]
    refine hgrounded.again hfinite (hframes (n + 1)) ?_ (margins (n + 1))
    exact fun frame hframe => List.map_subset _ (hsub n) hframe

/-- Regrouping is stable over an intake history. -/
theorem regroupHistory_stable (S : Sky P) (hfinite : S.FiniteRa) (assets : Nat → List (Asset P))
    (margins : Nat → FramingMargins P) (hids : ∀ n, ((assets n).map Asset.id).Nodup)
    (hsub : ∀ n, ∀ asset ∈ assets n, asset ∈ assets (n + 1)) (n : Nat) :
    Stable (regroupHistory S assets margins n) (regroupHistory S assets margins (n + 1)) ∧
      ((∀ asset ∈ assets (n + 1), asset ∈ assets n) →
        regroupHistory S assets margins (n + 1) = regroupHistory S assets margins n) := by
  obtain ⟨standing, hgrounded, hhistory⟩ := exists_grounded hfinite margins hids hsub n
  have hframes : ∀ n, (((assets n).map Frame.ofAsset).map Frame.id).Nodup := fun n => by
    rw [List.map_map]
    exact hids n
  rw [regroupHistory, hhistory]
  constructor
  · exact hgrounded.stable hfinite (hframes (n + 1)) (List.map_subset _ (hsub n)) _
  · intro hsame
    have hperm : (assets (n + 1)).Perm (assets n) :=
      (List.perm_ext_iff_of_nodup ((hids _).of_map _) ((hids _).of_map _)).mpr fun asset =>
        ⟨hsame asset, hsub n asset⟩
    rw [regroupAssets, groupFrames_congr (hframes (n + 1)) (hperm.map _)]
    exact groupFrames_again hfinite hgrounded (margins (n + 1))

def growingLights : Nat → List (Asset wholePlatform)
  | 0 => threeLights.take 1
  | _ + 1 => threeLights

theorem regroupHistory_stable_growingLights :
    Stable (regroupHistory flatSky growingLights (fun _ => wideMargins) 0)
        (regroupHistory flatSky growingLights (fun _ => wideMargins) 1) ∧
      ((∀ asset ∈ growingLights 1, asset ∈ growingLights 0) →
        regroupHistory flatSky growingLights (fun _ => wideMargins) 1 =
          regroupHistory flatSky growingLights (fun _ => wideMargins) 0) :=
  regroupHistory_stable flatSky flatSky_finiteRa growingLights (fun _ => wideMargins)
    (fun | 0 => by decide | _ + 1 => (by decide : (threeLights.map Asset.id).Nodup))
    (fun | 0 => fun _ h => List.mem_of_mem_take h | _ + 1 => fun _ h => h) 0

end PlateVault
