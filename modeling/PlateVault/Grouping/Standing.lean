import PlateVault.Grouping.Laws

/-!
# Sessions that stand

A regroup's sessions, given back to a regroup of more assets, are seeded as they were: each framing
with its anchor, its label and its members, an anchored one with its limits, and the unframed lights
as such. What the new frames then do only extends them.
-/

namespace PlateVault

variable {P : Platform} {S : Sky P}

def SessionCandidate.standing (session : SessionCandidate P) : StandingSession P where
  key := session.key
  assetIds := session.assetIds
  framing := session.framing

/-! ## Looking members up -/

def lookUp (pool : List (Frame P)) (ids : List Uuid) : List (Frame P) :=
  ids.filterMap fun id => pool.find? fun frame => frame.id = id

theorem find?_id {pool : List (Frame P)} (hpool : (pool.map Frame.id).Nodup) {frame : Frame P}
    (hframe : frame ∈ pool) : (pool.find? fun other => other.id = frame.id) = some frame := by
  cases hfind : pool.find? fun other => other.id = frame.id with
  | none =>
    have := List.find?_eq_none.mp hfind frame hframe
    simp at this
  | some other =>
    have hid : other.id = frame.id := by simpa using List.find?_some hfind
    rw [eq_of_id_eq hpool (List.mem_of_find?_eq_some hfind) hframe hid]

theorem mem_lookUp {pool members : List (Frame P)} (hpool : (pool.map Frame.id).Nodup)
    (hsub : ∀ member ∈ members, member ∈ pool) {frame : Frame P} :
    frame ∈ lookUp pool (Ordered.ascending (members.map Frame.id)) ↔ frame ∈ members := by
  simp only [lookUp, List.mem_filterMap, Ordered.mem_ascending, List.mem_map]
  constructor
  · rintro ⟨_, ⟨member, hmember, rfl⟩, hfind⟩
    rw [find?_id hpool (hsub member hmember)] at hfind
    cases hfind
    exact hmember
  · intro hframe
    exact ⟨frame.id, ⟨frame, hframe, rfl⟩, find?_id hpool (hsub frame hframe)⟩

theorem mapM_find_eq {pool : List (Frame P)} {ids : List Uuid}
    (h : ∀ id ∈ ids, ∃ frame ∈ pool, frame.id = id) :
    (ids.mapM fun id => pool.find? fun frame => frame.id = id) = some (lookUp pool ids) := by
  induction ids with
  | nil => rfl
  | cons id ids ih =>
    obtain ⟨frame, hframe, hid⟩ := h id List.mem_cons_self
    obtain ⟨found, hfound⟩ := Option.isSome_iff_exists.mp
      (List.find?_isSome.mpr ⟨frame, hframe, decide_eq_true hid⟩ :
        (pool.find? fun frame => frame.id = id).isSome)
    rw [List.mapM_cons, hfound, ih fun other hother => h other (List.mem_cons_of_mem _ hother)]
    simp [lookUp, hfound]

theorem nodup_lookUp {pool members : List (Frame P)}
    (hsub : ∀ member ∈ members, member ∈ pool) :
    ((lookUp pool (Ordered.ascending (members.map Frame.id))).map Frame.id).Nodup := by
  have hfound : ∀ id ∈ Ordered.ascending (members.map Frame.id), ∃ frame ∈ pool, frame.id = id := by
    intro id hid
    obtain ⟨member, hmember, rfl⟩ := List.mem_map.mp (Ordered.mem_ascending.mp hid)
    exact ⟨member, hsub member hmember, rfl⟩
  rw [(mapM_find_ids (mapM_find_eq hfound)).1]
  exact Ordered.nodup_ascending _

/-! ## Seeding a framing again -/

def Framing.reseed (pool : List (Frame P)) (margins : FramingMargins P) (framing : Framing P) :
    Framing P where
  label := framing.label
  anchor := framing.anchor
  members := lookUp pool (Ordered.ascending (framing.members.map Frame.id))
  limits := if framing.anchor.isSome then framing.limits else margins.split

def Split.restored (pool : List (Frame P)) (split : Split P) : Standing P where
  members := lookUp pool (Ordered.ascending (split.members.map Frame.id))
  framing := split.framing

theorem Framing.Sound.congr {framing framing' : Framing P} (h : framing.Sound S)
    (hanchor : framing'.anchor = framing.anchor) (hlabel : framing'.label = framing.label)
    (hmembers : ∀ member, member ∈ framing'.members ↔ member ∈ framing.members) :
    framing'.Sound S where
  anchor := by
    intro anchor hmem
    obtain ⟨hmember, hpointed⟩ := h.anchor anchor (hanchor ▸ hmem)
    exact ⟨(hmembers anchor).mpr hmember, hpointed⟩
  unanchored := by
    intro hnone
    obtain ⟨hsome, hunpointed, member, hmember, heq⟩ := h.unanchored (hanchor ▸ hnone)
    exact ⟨hlabel ▸ hsome, fun member hmember => hunpointed member ((hmembers member).mp hmember),
      member, (hmembers member).mpr hmember, heq.trans hlabel.symm⟩
  labels := by
    intro member hmember label heq
    exact hlabel ▸ h.labels member ((hmembers member).mp hmember) label heq

theorem Framing.Sound.findSome?_label {framing : Framing P} (h : framing.Sound S)
    {members : List (Frame P)} (hmembers : ∀ member ∈ members, member ∈ framing.members) :
    (members.findSome? fun member => framingLabel member.metadata) = none ∨
      (members.findSome? fun member => framingLabel member.metadata) = framing.label := by
  cases hfind : members.findSome? fun member => framingLabel member.metadata with
  | none => exact .inl rfl
  | some label =>
    obtain ⟨member, hmember, hlabel⟩ := List.exists_of_findSome?_eq_some hfind
    exact .inr (h.labels member (hmembers member hmember) label hlabel).symm

theorem seeded_eq {rank : Frame P → Nat} {margins : FramingMargins P} {session : Standing P}
    {framing : Framing P}
    (hanchor : (recordedAnchor S session).or ((session.members.filter (pointed S)).argmin rank) =
      framing.anchor)
    (hlabel : (session.framing.bind SessionFraming.label).or
      (session.members.findSome? fun member => framingLabel member.metadata) = framing.label)
    (hframed : (framing.anchor.isNone && framing.label.isNone) = false)
    (hmembers : session.members = framing.members)
    (hlimits : (session.framing.map SessionFraming.splitLimits).getD margins.split =
      framing.limits) : seeded S rank margins session = some framing := by
  simp only [seeded, hanchor, hlabel, hframed, hlimits, if_neg Bool.false_ne_true]
  rw [hmembers]

theorem seeded_restored {pool : List (Frame P)} (hpool : (pool.map Frame.id).Nodup)
    (rank : Frame P → Nat) (margins : FramingMargins P) {framing : Framing P}
    (hsound : framing.Sound S) (hsub : ∀ member ∈ framing.members, member ∈ pool) {split : Split P}
    (hmembers : split.members = framing.members)
    (hanchored : ∀ anchor, framing.anchor = some anchor → ∃ record, split.framing = some record ∧
      record.anchorAssetId = anchor.id ∧ record.label = framing.label ∧
      record.splitLimits = framing.limits)
    (hunanchored : framing.anchor = none → split.framing = none) :
    seeded S rank margins (split.restored pool) = some (framing.reseed pool margins) := by
  have hmem : ∀ member, member ∈ (split.restored pool).members ↔ member ∈ framing.members :=
    fun member => (mem_lookUp hpool (hmembers ▸ hsub)).trans (by rw [hmembers])
  have hlabels := hsound.findSome?_label fun member hmember => (hmem member).mp hmember
  have hreseed : (split.restored pool).members = (framing.reseed pool margins).members := by
    simp [Split.restored, Framing.reseed, hmembers]
  cases hanchor : framing.anchor with
  | some anchor =>
    obtain ⟨record, hrecord, hid, hlabel, hlimits⟩ := hanchored anchor hanchor
    obtain ⟨hanchorMem, hpointed⟩ := hsound.anchor anchor hanchor
    have hframing : (split.restored pool).framing = some record := hrecord
    have hrecorded : recordedAnchor S (split.restored pool) = some anchor := by
      have hfind := find?_id (nodup_lookUp (hmembers ▸ hsub)) ((hmem anchor).mpr hanchorMem)
      rw [recordedAnchor, hframing, Option.bind_some, hid]
      exact (congrArg (Option.filter (pointed S)) hfind).trans (by simp [Option.filter, hpointed])
    have hown : (record.label).or ((split.restored pool).members.findSome? fun member =>
        framingLabel member.metadata) = framing.label := by
      rw [hlabel]
      cases hsome : framing.label with
      | some label => rfl
      | none =>
        rw [hsome] at hlabels
        simpa using hlabels
    refine seeded_eq ?_ ?_ (by simp [Framing.reseed, hanchor]) hreseed ?_
    · rw [hrecorded, Option.some_or]
      exact hanchor.symm
    · rw [hframing]
      exact hown
    · rw [hframing]
      simp [Framing.reseed, hanchor, hlimits]
  | none =>
    obtain ⟨⟨label, hlabel⟩, hunpointed, member, hmember, hown⟩ := hsound.unanchored hanchor
    have hframing : (split.restored pool).framing = none := hunanchored hanchor
    have hnone : (split.restored pool).members.filter (pointed S) = [] :=
      List.filter_eq_nil_iff.mpr fun other hother => by simp [hunpointed other ((hmem other).mp hother)]
    have hfound : ((split.restored pool).members.findSome? fun member =>
        framingLabel member.metadata) = framing.label := by
      refine hlabels.resolve_left fun hfind => ?_
      have := List.findSome?_eq_none_iff.mp hfind member ((hmem member).mpr hmember)
      rw [this, hlabel] at hown
      cases hown
    refine seeded_eq ?_ ?_ (by simp [Framing.reseed, hlabel]) hreseed ?_
    · rw [hnone, recordedAnchor, hframing]
      exact hanchor.symm
    · rw [hframing]
      exact hfound
    · rw [hframing]
      simp [Framing.reseed, hanchor]

theorem seeded_unframed {pool : List (Frame P)} (hpool : (pool.map Frame.id).Nodup)
    (rank : Frame P → Nat) (margins : FramingMargins P) {split : Split P}
    (hsub : ∀ member ∈ split.members, member ∈ pool)
    (hmembers : ∀ member ∈ split.members,
      framingLabel member.metadata = none ∧ pointed S member = false)
    (hframing : split.framing = none) :
    seeded S rank margins (split.restored pool) = none := by
  have hmem : ∀ member ∈ (split.restored pool).members, member ∈ split.members :=
    fun member hmember => (mem_lookUp hpool hsub).mp hmember
  have hnone : (split.restored pool).members.filter (pointed S) = [] :=
    List.filter_eq_nil_iff.mpr fun other hother => by simp [(hmembers other (hmem other hother)).2]
  have hlabel : ((split.restored pool).members.findSome? fun member =>
      framingLabel member.metadata) = none :=
    List.findSome?_eq_none_iff.mpr fun other hother => (hmembers other (hmem other hother)).1
  have hrestored : (split.restored pool).framing = none := hframing
  simp [seeded, recordedAnchor, hrestored, hnone, hlabel]

/-! ## The sessions of a key, standing -/

theorem filter_flatMap_key {β κ : Type*} [DecidableEq κ] {keys : List κ} (hkeys : keys.Nodup)
    (f : κ → List β) (g : β → κ) (hf : ∀ key, ∀ b ∈ f key, g b = key) (key : κ) :
    ((keys.flatMap f).filter fun b => g b = key) = if key ∈ keys then f key else [] := by
  induction keys with
  | nil => simp
  | cons first keys ih =>
    obtain ⟨hfirst, hkeys⟩ := List.nodup_cons.mp hkeys
    rw [List.flatMap_cons, List.filter_append, ih hkeys]
    by_cases heq : key = first
    · subst heq
      have hall : (f key).filter (fun b => g b = key) = f key :=
        List.filter_eq_self.mpr fun b hb => decide_eq_true (hf key b hb)
      simp [hall, hfirst]
    · have hnone : (f first).filter (fun b => g b = key) = [] :=
        List.filter_eq_nil_iff.mpr fun b hb => by simp [hf first b hb, Ne.symm heq]
      simp [hnone, heq]

theorem filter_groupFrames {frames : List (Frame P)} (standing : List (StandingSession P))
    (margins : FramingMargins P) (key : Text) :
    ((groupFrames S frames standing margins).filter fun session => session.key = key) =
      if key ∈ frames.map Frame.key then (bucketOf frames key).sessions S standing margins
      else [] := by
  have hgroup : groupFrames S frames standing margins = (Ordered.ascending
      (frames.map Frame.key)).flatMap fun key => (bucketOf frames key).sessions S standing margins := by
    rw [groupFrames, buckets, List.flatMap_map]
  rw [hgroup, filter_flatMap_key (Ordered.nodup_ascending _) _ SessionCandidate.key]
  · simp only [Ordered.mem_ascending]
  · intro key session hsession
    obtain ⟨split, -, rfl⟩ := mem_sessions.mp hsession
    rfl

structure Grounded (S : Sky P) (frames : List (Frame P)) (standing : List (StandingSession P))
    (margins : FramingMargins P) : Prop where
  ids : (frames.map Frame.id).Nodup
  disjoint : (standing.map StandingSession.assetIds).Pairwise List.Disjoint
  sound : ∀ key, (bucketOf frames key).lights = true →
    (bucketAssignment S frames standing margins key).Sound S

theorem key_of_lights {frames : List (Frame P)} {key : Text}
    (hlights : (bucketOf frames key).lights = true) : key ∈ frames.map Frame.key := by
  cases hmembers : (bucketOf frames key).members with
  | nil =>
    have hnil : frames.filter (fun frame => frame.key = key) = [] := hmembers
    simp [bucketOf, hnil] at hlights
  | cons frame rest =>
    obtain ⟨hframe, rfl⟩ := mem_bucketOf.mp (hmembers ▸ List.mem_cons_self)
    exact List.mem_map_of_mem hframe

section Again

variable {frames frames' : List (Frame P)} {standing : List (StandingSession P)}
  {margins : FramingMargins P} {key : Text}

theorem mem_bucketOf_mono (hsub : ∀ frame ∈ frames, frame ∈ frames') {frame : Frame P}
    (hframe : frame ∈ (bucketOf frames key).members) : frame ∈ (bucketOf frames' key).members :=
  mem_bucketOf.mpr ⟨hsub frame (mem_bucketOf.mp hframe).1, (mem_bucketOf.mp hframe).2⟩

theorem standingIn_standing (key : Text) (pool : List (Frame P))
    (sessions : List (SessionCandidate P)) :
    standingIn key pool (sessions.map SessionCandidate.standing) =
      (sessions.filter fun session => session.key = key).filterMap fun session =>
        (session.assetIds.mapM fun id => pool.find? fun frame => frame.id = id).map fun members =>
          { members, framing := session.framing } := by
  rw [standingIn, List.filter_map, List.filterMap_map]
  congr 1
  funext session
  simp only [Function.comp_apply, SessionCandidate.standing]
  cases session.assetIds.mapM fun id => pool.find? fun frame => frame.id = id <;> rfl

theorem standingIn_of_notMem (hkey : key ∉ frames.map Frame.key) (pool : List (Frame P)) :
    standingIn key pool
      ((groupFrames S frames standing margins).map SessionCandidate.standing) = [] := by
  rw [standingIn_standing, filter_groupFrames, if_neg hkey, List.filterMap_nil]

theorem perm_standingIn (h : Grounded S frames standing margins)
    (hsub : ∀ frame ∈ frames, frame ∈ frames') (hkey : key ∈ frames.map Frame.key) :
    (standingIn key (bucketOf frames' key).members
      ((groupFrames S frames standing margins).map SessionCandidate.standing)).Perm
      (((bucketOf frames key).splits S standing margins).map
        (Split.restored (bucketOf frames' key).members)) := by
  have hpart := isPartition_splits (S := S) h.ids h.disjoint margins key
  rw [standingIn_standing, filter_groupFrames, if_pos hkey, Bucket.sessions]
  refine ((Ordered.perm_sortBy _ _).filterMap _).trans ?_
  rw [List.filterMap_map, ← List.filterMap_eq_map]
  refine List.Perm.of_eq (List.filterMap_congr fun split hsplit => ?_)
  have hfound : ∀ id ∈ (candidate (bucketOf frames key) split).assetIds,
      ∃ frame ∈ (bucketOf frames' key).members, frame.id = id := by
    intro id hid
    obtain ⟨frame, hframe, rfl⟩ := mem_assetIds_candidate.mp hid
    exact ⟨frame, mem_bucketOf_mono hsub (hpart.mem (List.mem_map_of_mem hsplit) hframe), rfl⟩
  simp only [Function.comp_apply, mapM_find_eq hfound]
  rfl

theorem nodup_pool (hids : (frames'.map Frame.id).Nodup) :
    (((bucketOf frames' key).members).map Frame.id).Nodup :=
  hids.sublist (List.filter_sublist.map _)

theorem seeded_finished (hfinite : S.FiniteRa) (h : Grounded S frames standing margins)
    (hids : (frames'.map Frame.id).Nodup) (hsub : ∀ frame ∈ frames, frame ∈ frames')
    (hlights : (bucketOf frames key).lights = true) (rank : Frame P → Nat)
    (margins' : FramingMargins P) {framing : Framing P}
    (hframing : framing ∈ (bucketAssignment S frames standing margins key).framings) :
    seeded S rank margins' (((bucketAssignment S frames standing margins key).finished S
      (bucketRank frames key) framing).restored (bucketOf frames' key).members) =
        some (framing.reseed (bucketOf frames' key).members margins') := by
  have hpart := isPartition_bucketAssignment S margins key h.ids h.disjoint
  refine seeded_restored (nodup_pool hids) rank margins' ((h.sound key hlights).framing framing hframing)
    ?_ rfl ?_ Assignment.finished_none
  · intro member hmember
    have hmem := hpart.mem (List.mem_append_left _ (List.mem_map_of_mem hframing)) hmember
    exact mem_bucketOf_mono hsub (mem_captureOrder.mp hmem)
  · intro anchor hanchor
    obtain ⟨record, index, hrecord, -, -, hid, hlabel, hlimits⟩ :=
      (h.sound key hlights).finished hfinite (nodup_bucketOrder h.ids key) hpart hframing hanchor
    exact ⟨record, hrecord, hid, hlabel, hlimits⟩

theorem seeded_tail (h : Grounded S frames standing margins)
    (hids : (frames'.map Frame.id).Nodup) (hsub : ∀ frame ∈ frames, frame ∈ frames')
    (hlights : (bucketOf frames key).lights = true) (rank : Frame P → Nat)
    (margins' : FramingMargins P) (notes : List Text) :
    seeded S rank margins' (Split.restored (bucketOf frames' key).members {
      members := (bucketAssignment S frames standing margins key).unframed
      framing := none
      notes }) = none := by
  refine seeded_unframed (nodup_pool hids) rank margins' ?_ (h.sound key hlights).unframed rfl
  intro member hmember
  have hpart := isPartition_bucketAssignment S margins key h.ids h.disjoint
  exact mem_bucketOf_mono hsub (mem_captureOrder.mp (hpart.mem (by simp [Assignment.blocks]) hmember))

theorem perm_seedAll (hfinite : S.FiniteRa) (h : Grounded S frames standing margins)
    (hids : (frames'.map Frame.id).Nodup) (hsub : ∀ frame ∈ frames, frame ∈ frames')
    (hlights : (bucketOf frames key).lights = true) (rank : Frame P → Nat)
    (margins' : FramingMargins P) :
    (seedAll S rank margins' (standingIn key (bucketOf frames' key).members
      ((groupFrames S frames standing margins).map SessionCandidate.standing))).framings.Perm
      ((bucketAssignment S frames standing margins key).framings.map
        (Framing.reseed (bucketOf frames' key).members margins')) := by
  rw [seedAll_eq]
  refine ((perm_standingIn h hsub (key_of_lights hlights)).filterMap _).trans (List.Perm.of_eq ?_)
  have hframings : (bucketAssignment S frames standing margins key).framings.filterMap
      (((seeded S rank margins') ∘ Split.restored (bucketOf frames' key).members) ∘
        (bucketAssignment S frames standing margins key).finished S (bucketRank frames key)) =
      (bucketAssignment S frames standing margins key).framings.map
        (Framing.reseed (bucketOf frames' key).members margins') := by
    rw [← List.filterMap_eq_map]
    exact List.filterMap_congr fun framing hframing =>
      seeded_finished hfinite h hids hsub hlights rank margins' hframing
  have htail := seeded_tail h hids hsub hlights rank margins' [noPointing]
  rw [splits_lights standing margins hlights, Assignment.splits, finish, List.map_append,
    List.filterMap_append, List.filterMap_map, List.filterMap_map, List.filterMap_map]
  refine (congrArg₂ (· ++ ·) hframings ?_).trans (List.append_nil _)
  split
  · rfl
  · simp [htail]

theorem mem_unframed_seedAll (hfinite : S.FiniteRa) (h : Grounded S frames standing margins)
    (hids : (frames'.map Frame.id).Nodup) (hsub : ∀ frame ∈ frames, frame ∈ frames')
    (hlights : (bucketOf frames key).lights = true) (rank : Frame P → Nat)
    (margins' : FramingMargins P) {frame : Frame P} :
    frame ∈ (seedAll S rank margins' (standingIn key (bucketOf frames' key).members
      ((groupFrames S frames standing margins).map SessionCandidate.standing))).unframed ↔
      frame ∈ (bucketAssignment S frames standing margins key).unframed := by
  have hpart := isPartition_bucketAssignment S margins key h.ids h.disjoint
  have hpool : ∀ member ∈ (bucketAssignment S frames standing margins key).unframed,
      member ∈ (bucketOf frames' key).members := fun member hmember =>
    mem_bucketOf_mono hsub (mem_captureOrder.mp (hpart.mem (by simp [Assignment.blocks]) hmember))
  have hperm := fun session => (perm_standingIn h hsub (key_of_lights hlights)).mem_iff (a := session)
  rw [splits_lights standing margins hlights] at hperm
  simp only [seedAll_eq, List.mem_flatMap, List.mem_filter, hperm, List.mem_map,
    Assignment.mem_splits]
  constructor
  · rintro ⟨_, ⟨⟨split, ⟨framing, hframing, rfl⟩ | ⟨-, rfl⟩, rfl⟩, hnone⟩, hmem⟩
    · rw [seeded_finished hfinite h hids hsub hlights rank margins' hframing] at hnone
      cases hnone
    · exact (mem_lookUp (nodup_pool hids) hpool).mp hmem
  · intro hframe
    refine ⟨_, ⟨⟨_, .inr ⟨List.ne_nil_of_mem hframe, rfl⟩, rfl⟩, ?_⟩,
      (mem_lookUp (nodup_pool hids) hpool).mpr hframe⟩
    rw [seeded_tail h hids hsub hlights]
    rfl

theorem sound_seedAll (hfinite : S.FiniteRa) (h : Grounded S frames standing margins)
    (hids : (frames'.map Frame.id).Nodup) (hsub : ∀ frame ∈ frames, frame ∈ frames')
    (hlights : (bucketOf frames key).lights = true) (rank : Frame P → Nat)
    (margins' : FramingMargins P) :
    (seedAll S rank margins' (standingIn key (bucketOf frames' key).members
      ((groupFrames S frames standing margins).map SessionCandidate.standing))).Sound S := by
  have hperm := perm_seedAll hfinite h hids hsub hlights rank margins'
  have hsound := h.sound key hlights
  have hpart := isPartition_bucketAssignment S margins key h.ids h.disjoint
  refine ⟨?_, ?_, ?_⟩
  · intro framing hframing
    obtain ⟨old, hold, rfl⟩ := List.mem_map.mp (hperm.mem_iff.mp hframing)
    refine (hsound.framing old hold).congr rfl rfl fun member =>
      mem_lookUp (nodup_pool hids) fun member hmember => ?_
    have hmem := hpart.mem (List.mem_append_left _ (List.mem_map_of_mem hold)) hmember
    exact mem_bucketOf_mono hsub (mem_captureOrder.mp hmem)
  · refine hperm.symm.pairwise (List.pairwise_map.mpr hsound.distinct) ?_
    intro left right hne label hright hleft
    exact hne label hleft hright
  · intro frame hframe
    exact hsound.unframed frame
      ((mem_unframed_seedAll hfinite h hids hsub hlights rank margins').mp hframe)

end Again

end PlateVault
