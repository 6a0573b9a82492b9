import PlateVault.Grouping.Buckets

/-!
# A regroup is a partition

Whatever sessions stand, every asset is in exactly one session of a regroup, the assets of a session
share its key, and the result depends on the assets only, not on how they are listed.
-/

namespace PlateVault

variable {P : Platform} {S : Sky P}

/-! ## The standing sessions among the frames of a key -/

theorem mapM_find_ids {frames members : List (Frame P)} {ids : List Uuid}
    (h : (ids.mapM fun id => frames.find? fun frame => frame.id = id) = some members) :
    members.map Frame.id = ids ∧ ∀ member ∈ members, member ∈ frames := by
  induction ids generalizing members with
  | nil =>
    cases h
    simp
  | cons id ids ih =>
    simp only [List.mapM_cons, Option.bind_eq_bind, Option.bind_eq_some_iff, Option.pure_def,
      Option.some.injEq] at h
    obtain ⟨frame, hframe, rest, hrest, rfl⟩ := h
    obtain ⟨hids, hmem⟩ := ih hrest
    have hid : frame.id = id := by simpa using List.find?_some hframe
    refine ⟨by simp [hid, hids], fun member hmember => ?_⟩
    rcases List.mem_cons.mp hmember with rfl | hmember
    · exact List.mem_of_find?_eq_some hframe
    · exact hmem member hmember

theorem mem_standingIn {key : Text} {frames : List (Frame P)}
    {standing : List (StandingSession P)} {session : Standing P} :
    session ∈ standingIn key frames standing ↔ ∃ recorded ∈ standing, recorded.key = key ∧
      (recorded.assetIds.mapM fun id => frames.find? fun frame => frame.id = id) =
        some session.members ∧ session.framing = recorded.framing := by
  simp only [standingIn, List.mem_filterMap, List.mem_filter, decide_eq_true_eq,
    Option.bind_eq_bind, Option.bind_eq_some_iff, Option.some.injEq]
  constructor
  · rintro ⟨recorded, ⟨hmem, hkey⟩, members, hmembers, rfl⟩
    exact ⟨recorded, hmem, hkey, hmembers, rfl⟩
  · rintro ⟨recorded, hmem, hkey, hmembers, hframing⟩
    exact ⟨recorded, ⟨hmem, hkey⟩, session.members, hmembers, by rw [← hframing]⟩

theorem standingIn_subset {key : Text} {frames : List (Frame P)}
    {standing : List (StandingSession P)} :
    ∀ frame ∈ (standingIn key frames standing).flatMap Standing.members, frame ∈ frames := by
  intro frame hframe
  obtain ⟨session, hsession, hmember⟩ := List.mem_flatMap.mp hframe
  obtain ⟨_, -, -, hmembers, -⟩ := mem_standingIn.mp hsession
  exact (mapM_find_ids hmembers).2 frame hmember

theorem disjoint_standingIn {key : Text} {frames : List (Frame P)}
    {standing : List (StandingSession P)}
    (h : (standing.map StandingSession.assetIds).Pairwise List.Disjoint) :
    ((standingIn key frames standing).map Standing.members).Pairwise List.Disjoint := by
  rw [List.pairwise_map] at h ⊢
  refine List.Pairwise.filterMap _ (R := fun left right : StandingSession P =>
    left.assetIds.Disjoint right.assetIds) ?_ (h.filter _)
  intro left right hdisjoint session hsession other hother frame hframe hframe'
  simp only [Option.bind_eq_bind, Option.bind_eq_some_iff, Option.some.injEq] at hsession hother
  obtain ⟨members, hmembers, rfl⟩ := hsession
  obtain ⟨others, hothers, rfl⟩ := hother
  refine hdisjoint (a := frame.id) ?_ ?_
  · rw [← (mapM_find_ids hmembers).1]
    exact List.mem_map_of_mem hframe
  · rw [← (mapM_find_ids hothers).1]
    exact List.mem_map_of_mem hframe'

/-! ## The splits of a bucket -/

def unplaced (order : List (Frame P)) (standing : List (Standing P)) : List (Frame P) :=
  order.filter fun frame => !(standing.flatMap Standing.members).any fun member =>
    member.id = frame.id

theorem mem_unplaced {order : List (Frame P)} (hids : (order.map Frame.id).Nodup)
    {standing : List (Standing P)}
    (hsub : ∀ frame ∈ standing.flatMap Standing.members, frame ∈ order) {frame : Frame P} :
    frame ∈ unplaced order standing ↔
      frame ∈ order ∧ frame ∉ standing.flatMap Standing.members := by
  rw [unplaced, List.mem_filter, Bool.not_eq_true', List.any_eq_false]
  refine and_congr_right fun hframe => ⟨?_, ?_⟩
  · intro h hmem
    exact h frame hmem (decide_eq_true rfl)
  · intro h member hmember hid
    rw [decide_eq_true_eq] at hid
    exact h (eq_of_id_eq hids (hsub member hmember) hframe hid ▸ hmember)

theorem ne_of_mem_unplaced {order : List (Frame P)} {standing : List (Standing P)} :
    ∀ other ∈ standing.flatMap Standing.members, ∀ frame ∈ unplaced order standing,
      other ≠ frame := by
  rintro other hother frame hframe rfl
  rw [unplaced, List.mem_filter, Bool.not_eq_true', List.any_eq_false] at hframe
  exact hframe.2 other hother (decide_eq_true rfl)

theorem isPartition_assigned {order : List (Frame P)} (hids : (order.map Frame.id).Nodup)
    {standing : List (Standing P)}
    (hdisjoint : (standing.map Standing.members).Pairwise List.Disjoint)
    (hsub : ∀ frame ∈ standing.flatMap Standing.members, frame ∈ order)
    (margins : FramingMargins P) :
    IsPartition (assigned S order standing margins).blocks order := by
  have hnodup : (unplaced order standing).Nodup := (hids.of_map _).filter _
  have hrun := isPartition_foldl S (rank order) margins
    (isPartition_seedAll S (rank order) margins hdisjoint) ne_of_mem_unplaced hnodup
  refine hrun.congr fun frame => ?_
  rw [List.mem_append, mem_unplaced hids hsub]
  constructor
  · intro hframe
    by_cases hmem : frame ∈ standing.flatMap Standing.members
    · exact .inl hmem
    · exact .inr ⟨hframe, hmem⟩
  · rintro (hmem | hframe)
    · exact hsub frame hmem
    · exact hframe.1

theorem sound_assigned {order : List (Frame P)} (hids : (order.map Frame.id).Nodup)
    {standing : List (Standing P)} {margins : FramingMargins P}
    (hseed : (seedAll S (rank order) margins standing).Sound S) :
    (assigned S order standing margins).Sound S ∧
      Assignment.Extends (standing.flatMap Standing.members)
        (seedAll S (rank order) margins standing) (assigned S order standing margins) :=
  sound_foldl S (rank order) margins hseed ne_of_mem_unplaced ((hids.of_map _).filter _)

theorem isPartition_assignmentSplits {rank : Frame P → Nat} {state : Assignment P}
    {frames : List (Frame P)} (h : IsPartition state.blocks frames) :
    IsPartition ((state.splits S rank).map Split.members) frames := by
  have hfinish : (finish S rank state.framings).map Split.members =
      state.framings.map Framing.members := by
    simp [finish, Function.comp_def, finishOne]
  rw [Assignment.splits, List.map_append, hfinish]
  split
  · next hempty =>
    rw [Assignment.blocks, List.isEmpty_iff.mp hempty] at h
    simpa using h.dropEmpty
  · exact h

theorem isPartition_splits {frames : List (Frame P)} (hids : (frames.map Frame.id).Nodup)
    {standing : List (StandingSession P)}
    (hstanding : (standing.map StandingSession.assetIds).Pairwise List.Disjoint)
    (margins : FramingMargins P) (key : Text) :
    IsPartition (((bucketOf frames key).splits S standing margins).map Split.members)
      (bucketOf frames key).members := by
  have hmembers : ((bucketOf frames key).members.map Frame.id).Nodup :=
    hids.sublist (List.filter_sublist.map _)
  unfold Bucket.splits
  split
  · refine IsPartition.congr (isPartition_assignmentSplits (isPartition_assigned
      (nodup_captureOrder hmembers) (disjoint_standingIn hstanding) ?_ margins))
      fun frame => mem_captureOrder.symm
    exact fun frame hframe => mem_captureOrder.mpr (standingIn_subset frame hframe)
  · exact ⟨by simp, by simp⟩

/-! ## The sessions -/

theorem perm_bucket_ids {frames : List (Frame P)} (hids : (frames.map Frame.id).Nodup)
    {standing : List (StandingSession P)}
    (hstanding : (standing.map StandingSession.assetIds).Pairwise List.Disjoint)
    (margins : FramingMargins P) (key : Text) :
    (((bucketOf frames key).sessions S standing margins).flatMap SessionCandidate.assetIds).Perm
      ((bucketOf frames key).members.map Frame.id) := by
  have hmembers : ((bucketOf frames key).members.map Frame.id).Nodup :=
    hids.sublist (List.filter_sublist.map _)
  have hperm := (isPartition_splits (S := S) hids hstanding margins key).perm_ids Frame.id hmembers
  refine ((Ordered.perm_sortBy _ _).flatMap_right _).trans ?_
  simpa [List.flatMap_map, candidate] using hperm

theorem perm_session_ids {frames : List (Frame P)} (hids : (frames.map Frame.id).Nodup)
    {standing : List (StandingSession P)}
    (hstanding : (standing.map StandingSession.assetIds).Pairwise List.Disjoint)
    (margins : FramingMargins P) :
    ((groupFrames S frames standing margins).flatMap SessionCandidate.assetIds).Perm
      (frames.map Frame.id) := by
  have hbuckets : (groupFrames S frames standing margins).flatMap SessionCandidate.assetIds =
      (Ordered.ascending (frames.map Frame.key)).flatMap fun key =>
        ((bucketOf frames key).sessions S standing margins).flatMap SessionCandidate.assetIds := by
    rw [groupFrames, buckets, List.flatMap_map, List.flatMap_assoc]
  rw [hbuckets]
  refine (List.Perm.flatMap_left _ fun key _ => perm_bucket_ids hids hstanding margins key).trans ?_
  rw [← List.map_flatMap]
  have hfilter := (perm_flatMap_filter (hids.of_map _) Frame.key).map Frame.id
  exact hfilter

theorem key_of_mem_session {frames : List (Frame P)} (hids : (frames.map Frame.id).Nodup)
    {standing : List (StandingSession P)}
    (hstanding : (standing.map StandingSession.assetIds).Pairwise List.Disjoint)
    {margins : FramingMargins P} {session : SessionCandidate P}
    (hsession : session ∈ groupFrames S frames standing margins) {frame : Frame P}
    (hframe : frame ∈ frames) (hmem : frame.id ∈ session.assetIds) : frame.key = session.key := by
  obtain ⟨key, -, hsession⟩ := mem_groupFrames.mp hsession
  obtain ⟨split, hsplit, rfl⟩ := mem_sessions.mp hsession
  simp only [candidate, Ordered.mem_ascending, List.mem_map] at hmem
  obtain ⟨member, hmember, hid⟩ := hmem
  have hbucket := (isPartition_splits hids hstanding margins key).mem
    (List.mem_map_of_mem hsplit) hmember
  obtain ⟨hmem, hkey⟩ := mem_bucketOf.mp hbucket
  rw [← eq_of_id_eq hids hmem hframe hid]
  exact hkey

/-! ## Permutations -/

theorem find?_id_congr {frames frames' : List (Frame P)} (hids : (frames.map Frame.id).Nodup)
    (hperm : frames.Perm frames') (id : Uuid) :
    (frames.find? fun frame => frame.id = id) = frames'.find? fun frame => frame.id = id := by
  cases hfind : frames'.find? fun frame => frame.id = id with
  | none =>
    rw [List.find?_eq_none] at hfind ⊢
    exact fun frame hframe => hfind frame (hperm.mem_iff.mp hframe)
  | some frame =>
    have hid : frame.id = id := by simpa using List.find?_some hfind
    have hmem : frame ∈ frames := hperm.mem_iff.mpr (List.mem_of_find?_eq_some hfind)
    cases hother : frames.find? fun frame => frame.id = id with
    | none =>
      have := List.find?_eq_none.mp hother frame hmem
      simp [hid] at this
    | some other =>
      have hother' : other.id = id := by simpa using List.find?_some hother
      rw [eq_of_id_eq hids (List.mem_of_find?_eq_some hother) hmem (hother'.trans hid.symm)]

theorem standingIn_congr {key : Text} {frames frames' : List (Frame P)}
    (hids : (frames.map Frame.id).Nodup) (hperm : frames.Perm frames')
    (standing : List (StandingSession P)) :
    standingIn key frames standing = standingIn key frames' standing := by
  simp only [standingIn, find?_id_congr hids hperm]

theorem sessions_congr {frames frames' : List (Frame P)} (hids : (frames.map Frame.id).Nodup)
    (hperm : frames.Perm frames') (standing : List (StandingSession P))
    (margins : FramingMargins P) {key : Text} (hkey : key ∈ frames.map Frame.key) :
    (bucketOf frames key).sessions S standing margins =
      (bucketOf frames' key).sessions S standing margins := by
  obtain ⟨frame, hframe, rfl⟩ := List.mem_map.mp hkey
  have hframe' : frame ∈ frames' := hperm.mem_iff.mp hframe
  have hmembers : (bucketOf frames frame.key).members.Perm (bucketOf frames' frame.key).members :=
    hperm.filter _
  have hnodup : ((bucketOf frames frame.key).members.map Frame.id).Nodup :=
    hids.sublist (List.filter_sublist.map _)
  have hlights := (bucketOf_lights hframe rfl).trans (bucketOf_lights hframe' rfl).symm
  have hbasis := (bucketOf_dateBasis hframe rfl).trans (bucketOf_dateBasis hframe' rfl).symm
  have hcandidate : ∀ split : Split P,
      candidate (bucketOf frames frame.key) split = candidate (bucketOf frames' frame.key) split :=
    fun split => by simp only [candidate, hbasis]; rfl
  unfold Bucket.sessions Bucket.splits
  rw [← hlights]
  split
  · have hsplit : split S (bucketOf frames frame.key).members
        (standingIn (bucketOf frames frame.key).key (bucketOf frames frame.key).members standing)
        margins = split S (bucketOf frames' frame.key).members
        (standingIn (bucketOf frames' frame.key).key (bucketOf frames' frame.key).members standing)
        margins := by
      rw [standingIn_congr hnodup hmembers, split, split, captureOrder_congr hnodup hmembers]
      rfl
    rw [hsplit, List.map_congr_left fun split _ => hcandidate split]
  · simp only [List.map_cons, List.map_nil, hcandidate]
    congr 2
    simp only [candidate, SessionCandidate.mk.injEq, true_and, and_true, List.nil_append]
    exact ⟨Ordered.ascending_congr fun id => (hmembers.map Frame.id).mem_iff,
      Ordered.ascending_congr fun note => (hmembers.flatMap_right _).mem_iff⟩

theorem groupFrames_congr {frames frames' : List (Frame P)} (hids : (frames.map Frame.id).Nodup)
    (hperm : frames.Perm frames') (standing : List (StandingSession P))
    (margins : FramingMargins P) :
    groupFrames S frames standing margins = groupFrames S frames' standing margins := by
  have hkeys : Ordered.ascending (frames.map Frame.key) =
      Ordered.ascending (frames'.map Frame.key) :=
    Ordered.ascending_congr fun key => (hperm.map Frame.key).mem_iff
  rw [groupFrames, groupFrames, buckets, buckets, hkeys, List.flatMap_map, List.flatMap_map]
  refine List.flatMap_congr fun key hkey => sessions_congr hids hperm standing margins ?_
  rw [← hkeys] at hkey
  exact Ordered.mem_ascending.mp hkey

end PlateVault
