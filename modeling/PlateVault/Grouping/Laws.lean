import PlateVault.Grouping.Nearest
import PlateVault.Grouping.Finish

/-!
# What a regroup makes

The laws of `regroupAssets`. Every asset is in one session, of its own key, whatever stands; where
nothing stands the lights of a key follow the nearest-anchor law, and the records of its sessions
are numbered in the capture order of their anchors.
-/

namespace PlateVault

variable {P : Platform} {S : Sky P}

/-! ## The sessions of a key -/

def bucketAssignment (S : Sky P) (frames : List (Frame P)) (standing : List (StandingSession P))
    (margins : FramingMargins P) (key : Text) : Assignment P :=
  assigned S (captureOrder (bucketOf frames key).members)
    (standingIn key (bucketOf frames key).members standing) margins

def bucketRank (frames : List (Frame P)) (key : Text) : Frame P → Nat :=
  rank (captureOrder (bucketOf frames key).members)

theorem nodup_bucketOrder {frames : List (Frame P)} (hids : (frames.map Frame.id).Nodup)
    (key : Text) : ((captureOrder (bucketOf frames key).members).map Frame.id).Nodup :=
  nodup_captureOrder (hids.sublist (List.filter_sublist.map _))

theorem mem_bucketOrder {frames : List (Frame P)} {key : Text} {frame : Frame P} :
    frame ∈ captureOrder (bucketOf frames key).members ↔ frame ∈ frames ∧ frame.key = key :=
  mem_captureOrder.trans mem_bucketOf

theorem key_of_mem_groupFrames {frames : List (Frame P)} {standing : List (StandingSession P)}
    {margins : FramingMargins P} {session : SessionCandidate P}
    (h : session ∈ groupFrames S frames standing margins) : session.key ∈ frames.map Frame.key := by
  obtain ⟨key, hkey, hsession⟩ := mem_groupFrames.mp h
  obtain ⟨split, -, rfl⟩ := mem_sessions.mp hsession
  exact hkey

theorem splits_lights {frames : List (Frame P)} (standing : List (StandingSession P))
    (margins : FramingMargins P) {key : Text} (hlights : (bucketOf frames key).lights = true) :
    (bucketOf frames key).splits S standing margins =
      (bucketAssignment S frames standing margins key).splits S (bucketRank frames key) := by
  simp only [Bucket.splits, hlights, if_true]
  rfl

theorem mem_groupFrames_lights {frames : List (Frame P)} {standing : List (StandingSession P)}
    {margins : FramingMargins P} {session : SessionCandidate P} {key : Text}
    (hlights : (bucketOf frames key).lights = true) (hkey : key ∈ frames.map Frame.key) :
    session ∈ groupFrames S frames standing margins ∧ session.key = key ↔
      ∃ split ∈ (bucketAssignment S frames standing margins key).splits S (bucketRank frames key),
        candidate (bucketOf frames key) split = session := by
  rw [← splits_lights standing margins hlights]
  constructor
  · rintro ⟨hsession, rfl⟩
    obtain ⟨key, -, hmem⟩ := mem_groupFrames.mp hsession
    obtain ⟨split, hsplit, rfl⟩ := mem_sessions.mp hmem
    exact ⟨split, hsplit, rfl⟩
  · rintro ⟨split, hsplit, rfl⟩
    exact ⟨mem_groupFrames.mpr ⟨key, hkey, mem_sessions.mpr ⟨split, hsplit, rfl⟩⟩, rfl⟩

theorem lights_of_framing {frames : List (Frame P)} {standing : List (StandingSession P)}
    {margins : FramingMargins P} {session : SessionCandidate P}
    (h : session ∈ groupFrames S frames standing margins) {record : SessionFraming P}
    (hrecord : session.framing = some record) :
    (bucketOf frames session.key).lights = true := by
  obtain ⟨key, -, hmem⟩ := mem_groupFrames.mp h
  obtain ⟨split, hsplit, rfl⟩ := mem_sessions.mp hmem
  by_contra hlights
  have hlights : ¬ (bucketOf frames key).lights = true := hlights
  rw [Bucket.splits, if_neg hlights, List.mem_singleton] at hsplit
  simp only [candidate, hsplit] at hrecord
  cases hrecord

section Assignment

variable {frames : List (Frame P)} {standing : List (StandingSession P)}
  {margins : FramingMargins P} {key : Text}

theorem isPartition_bucketAssignment (S : Sky P) (margins : FramingMargins P) (key : Text)
    (hids : (frames.map Frame.id).Nodup)
    (hstanding : (standing.map StandingSession.assetIds).Pairwise List.Disjoint) :
    IsPartition (bucketAssignment S frames standing margins key).blocks
      (captureOrder (bucketOf frames key).members) :=
  isPartition_assigned (nodup_bucketOrder hids key) (disjoint_standingIn hstanding)
    (fun frame hframe => mem_captureOrder.mpr (standingIn_subset frame hframe)) margins

theorem fresh_bucketAssignment (S : Sky P) (margins : FramingMargins P) (key : Text)
    (hids : (frames.map Frame.id).Nodup) :
    Fresh S (bucketRank frames key) margins (bucketAssignment S frames [] margins key)
      (captureOrder (bucketOf frames key).members) :=
  fresh_assigned (nodup_bucketOrder hids key) margins

theorem bucketRank_lt_iff (hids : (frames.map Frame.id).Nodup) {left right : Frame P}
    (hleft : left ∈ captureOrder (bucketOf frames key).members)
    (hright : right ∈ captureOrder (bucketOf frames key).members) :
    bucketRank frames key left < bucketRank frames key right ↔
      captureKey left < captureKey right :=
  rank_lt_iff (hids.sublist (List.filter_sublist.map _)) (mem_captureOrder.mp hleft)
    (mem_captureOrder.mp hright)

theorem mem_assetIds_candidate {bucket : Bucket P} {split : Split P} {id : Uuid} :
    id ∈ (candidate bucket split).assetIds ↔ ∃ frame ∈ split.members, frame.id = id := by
  simp [candidate]

end Assignment

/-! ## Where nothing stands -/

/-- The session records this frame as its framing's anchor. -/
def SessionCandidate.AnchoredBy (session : SessionCandidate P) (frame : Frame P) : Prop :=
  session.framing.map SessionFraming.anchorAssetId = some frame.id

def Unlabelled (frame : Frame P) : Prop :=
  (derive frame.metadata).light = true ∧ framingLabel frame.metadata = none

/-- The nearest-anchor law of sessions, and their numbers. -/
structure FreshSessions (S : Sky P) (frames : List (Frame P)) (margins : FramingMargins P)
    (sessions : List (SessionCandidate P)) : Prop where
  /-- An unlabelled light with pointing is in a session that records an anchor. Unless it is the
  anchor it lies within the margins of it, and no anchor of the key earlier in capture order whose
  margins it lies within is nearer. -/
  nearest : ∀ session ∈ sessions, ∀ frame ∈ frames, frame.id ∈ session.assetIds →
    Unlabelled frame → pointed S frame = true →
      ∃ anchor ∈ frames, session.AnchoredBy anchor ∧ anchor.id ∈ session.assetIds ∧
        (frame ≠ anchor → ∃ offset,
          (Evidence.of S anchor).offset S (Evidence.of S frame) margins.split = some offset ∧
          ∀ rival ∈ sessions, rival.key = session.key → ∀ other ∈ frames, rival.AnchoredBy other →
            captureKey other < captureKey frame → ∀ otherOffset,
            (Evidence.of S other).offset S (Evidence.of S frame) margins.split = some otherOffset →
              toLex (offset.key, captureKey anchor) ≤ toLex (otherOffset.key, captureKey other))
  /-- An unlabelled anchor lies outside the margins of every anchor of the key earlier in capture
  order. -/
  outside : ∀ session ∈ sessions, ∀ anchor ∈ frames, session.AnchoredBy anchor →
    Unlabelled anchor → ∀ rival ∈ sessions, rival.key = session.key → ∀ other ∈ frames,
      rival.AnchoredBy other → captureKey other < captureKey anchor →
        (Evidence.of S other).offset S (Evidence.of S anchor) margins.split = none
  /-- The records of a key's sessions number its anchors from 1 in capture order. -/
  ordinals : ∀ key, ∃ anchors : List (Frame P),
    (anchors.Pairwise fun left right => captureKey left < captureKey right) ∧
    (∀ anchor ∈ anchors, anchor ∈ frames) ∧
    ∀ id ordinal, (∃ session ∈ sessions, session.key = key ∧ ∃ record,
      session.framing = some record ∧ record.anchorAssetId = id ∧ record.ordinal = ordinal) ↔
      ∃ index anchor, anchors[index]? = some anchor ∧ anchor.id = id ∧ ordinal = index + 1

section Fresh

variable {frames : List (Frame P)} {margins : FramingMargins P} {key : Text}

theorem exists_framing_of_record (hfinite : S.FiniteRa) (hids : (frames.map Frame.id).Nodup)
    {standing : List (StandingSession P)}
    (hstanding : (standing.map StandingSession.assetIds).Pairwise List.Disjoint)
    (hsound : (bucketAssignment S frames standing margins key).Sound S)
    {session : SessionCandidate P} (hsession : session ∈ groupFrames S frames standing margins)
    (hkey : session.key = key) {record : SessionFraming P} (hrecord : session.framing = some record) :
    ∃ framing ∈ (bucketAssignment S frames standing margins key).framings, ∃ anchor index,
      candidate (bucketOf frames key)
        ((bucketAssignment S frames standing margins key).finished S (bucketRank frames key)
          framing) = session ∧
      framing.anchor = some anchor ∧ anchor.id = record.anchorAssetId ∧
      record.ordinal = index + 1 ∧
      ((bucketAssignment S frames standing margins key).anchors (bucketRank frames key))[index]? =
        some anchor ∧
      record.label = framing.label ∧ record.splitLimits = framing.limits := by
  have hlights := lights_of_framing hsession hrecord
  rw [hkey] at hlights
  have hmem := key_of_mem_groupFrames hsession
  rw [hkey] at hmem
  obtain ⟨split, hsplit, hcandidate⟩ := (mem_groupFrames_lights hlights hmem).mp ⟨hsession, hkey⟩
  rcases Assignment.mem_splits.mp hsplit with ⟨framing, hframing, rfl⟩ | ⟨-, rfl⟩
  · have hfinished : (Assignment.finished S (bucketRank frames key)
        (bucketAssignment S frames standing margins key) framing).framing = some record := by
      rw [← hrecord, ← hcandidate]
      rfl
    cases hanchor : framing.anchor with
    | none =>
      rw [Assignment.finished_none hanchor] at hfinished
      cases hfinished
    | some anchor =>
      obtain ⟨found, index, hfound, hordinal, hget, hid, hlabel, hlimits⟩ :=
        hsound.finished hfinite (nodup_bucketOrder hids key)
          (isPartition_bucketAssignment S margins key hids hstanding) hframing hanchor
      obtain rfl : found = record := Option.some.inj (hfound.symm.trans hfinished)
      exact ⟨framing, hframing, anchor, index, hcandidate, hanchor, hid.symm, hordinal, hget, hlabel,
        hlimits⟩
  · rw [← hcandidate] at hrecord
    cases hrecord

theorem lex_le_iff (hids : (frames.map Frame.id).Nodup) {left right : Frame P}
    (hleft : left ∈ captureOrder (bucketOf frames key).members)
    (hright : right ∈ captureOrder (bucketOf frames key).members) {offset other : Offset P} :
    toLex (offset.key, bucketRank frames key left) ≤ toLex (other.key, bucketRank frames key right) ↔
      toLex (offset.key, captureKey left) ≤ toLex (other.key, captureKey right) := by
  have hle : bucketRank frames key left ≤ bucketRank frames key right ↔
      captureKey left ≤ captureKey right := by
    rw [← not_lt, ← not_lt, bucketRank_lt_iff hids hright hleft]
  simp only [Prod.Lex.toLex_le_toLex, hle]

theorem isAnchor_of_anchoredBy (hfinite : S.FiniteRa) (hids : (frames.map Frame.id).Nodup)
    {session : SessionCandidate P} (hsession : session ∈ groupFrames S frames [] margins)
    {frame : Frame P} (hframe : frame ∈ frames) (hanchor : session.AnchoredBy frame) :
    (bucketAssignment S frames [] margins session.key).IsAnchor frame ∧
      frame ∈ captureOrder (bucketOf frames session.key).members := by
  have hfresh := fresh_bucketAssignment S margins session.key hids
  obtain ⟨record, hrecord, hid⟩ := Option.map_eq_some_iff.mp hanchor
  obtain ⟨framing, hframing, anchor, -, -, hmem, hanchorId, -⟩ :=
    exists_framing_of_record hfinite hids (by simp) hfresh.sound hsession rfl hrecord
  have horder := (hfresh.laws framing hframing).members_placed anchor
    ((hfresh.sound.framing framing hframing).anchor anchor hmem).1
  obtain rfl := eq_of_id_eq hids (mem_bucketOrder.mp horder).1 hframe (hanchorId.trans hid)
  exact ⟨⟨framing, hframing, hmem⟩, horder⟩

theorem freshSessions_nearest (hfinite : S.FiniteRa) (hids : (frames.map Frame.id).Nodup)
    {session : SessionCandidate P} (hsession : session ∈ groupFrames S frames [] margins)
    {frame : Frame P} (hframe : frame ∈ frames) (hmem : frame.id ∈ session.assetIds)
    (hunlabelled : Unlabelled frame) (hpointed : pointed S frame = true) :
    ∃ anchor ∈ frames, session.AnchoredBy anchor ∧ anchor.id ∈ session.assetIds ∧
      (frame ≠ anchor → NearestTo S (bucketRank frames session.key) margins.split
        (bucketAssignment S frames [] margins session.key).IsAnchor anchor frame) := by
  have hfresh := fresh_bucketAssignment S margins session.key hids
  have hkey := key_of_mem_session hids (by simp) hsession hframe hmem
  have hlights := (bucketOf_lights hframe hkey).trans hunlabelled.1
  have horder := mem_bucketOrder.mpr ⟨hframe, hkey⟩
  have hself : ∀ member ∈ captureOrder (bucketOf frames session.key).members,
      member.id = frame.id → member = frame := fun member hmember =>
    eq_of_id_eq hids (mem_bucketOrder.mp hmember).1 hframe
  obtain ⟨split, hsplit, hcandidate⟩ := (mem_groupFrames_lights hlights
    (hkey ▸ List.mem_map_of_mem hframe)).mp ⟨hsession, rfl⟩
  rw [← hcandidate, mem_assetIds_candidate] at hmem
  obtain ⟨member, hmember, hid⟩ := hmem
  have hpart : IsPartition (bucketAssignment S frames [] margins session.key).blocks _ :=
    isPartition_bucketAssignment S margins session.key hids (by simp)
  rcases Assignment.mem_splits.mp hsplit with ⟨framing, hframing, rfl⟩ | ⟨-, rfl⟩
  · have hlaws := hfresh.laws framing hframing
    have hsound := hfresh.sound.framing framing hframing
    have hmember : member ∈ framing.members := hmember
    obtain rfl := hself member (hlaws.members_placed member hmember) hid
    cases hanchor : framing.anchor with
    | none =>
      rw [(hsound.unanchored hanchor).2.1 member hmember] at hpointed
      cases hpointed
    | some anchor =>
      have hanchorMem := (hsound.anchor anchor hanchor).1
      obtain ⟨record, index, hrecord, -, -, hanchorId, -⟩ := hfresh.sound.finished hfinite
        (nodup_bucketOrder hids session.key) hpart hframing hanchor
      refine ⟨anchor, (mem_bucketOrder.mp (hlaws.members_placed anchor hanchorMem)).1, ?_, ?_,
        hlaws.nearest anchor hanchor member hmember hunlabelled.2⟩
      · rw [← hcandidate, SessionCandidate.AnchoredBy]
        exact Option.map_eq_some_iff.mpr ⟨record, hrecord, hanchorId⟩
      · rw [← hcandidate, mem_assetIds_candidate]
        exact ⟨anchor, hanchorMem, rfl⟩
  · have hunframed : member ∈ (bucketAssignment S frames [] margins session.key).unframed := hmember
    obtain rfl := hself member (hpart.mem (by simp [Assignment.blocks]) hunframed) hid
    rw [(hfresh.sound.unframed member hunframed).2] at hpointed
    cases hpointed

theorem freshSessions_ordinals (hfinite : S.FiniteRa) (hids : (frames.map Frame.id).Nodup)
    (key : Text) : ∃ anchors : List (Frame P),
      (anchors.Pairwise fun left right => captureKey left < captureKey right) ∧
      (∀ anchor ∈ anchors, anchor ∈ frames) ∧
      ∀ id ordinal, (∃ session ∈ groupFrames S frames [] margins, session.key = key ∧ ∃ record,
        session.framing = some record ∧ record.anchorAssetId = id ∧ record.ordinal = ordinal) ↔
        ∃ index anchor, anchors[index]? = some anchor ∧ anchor.id = id ∧ ordinal = index + 1 := by
  have hfresh := fresh_bucketAssignment S margins key hids
  by_cases hlights : (bucketOf frames key).lights = true ∧ key ∈ frames.map Frame.key
  · have hpart : IsPartition (bucketAssignment S frames [] margins key).blocks _ :=
      isPartition_bucketAssignment S margins key hids (by simp)
    have hranks := hfresh.sound.pairwise_anchors (nodup_bucketOrder hids key) hpart
    have horder : ∀ anchor ∈ (bucketAssignment S frames [] margins key).anchors
        (bucketRank frames key), anchor ∈ captureOrder (bucketOf frames key).members := by
      intro anchor hanchor
      obtain ⟨framing, hframing, hanchor⟩ := Assignment.mem_anchors.mp hanchor
      exact (hfresh.laws framing hframing).members_placed anchor
        ((hfresh.sound.framing framing hframing).anchor anchor hanchor).1
    refine ⟨_, hranks.imp_of_mem fun hleft hright => (bucketRank_lt_iff hids (horder _ hleft)
      (horder _ hright)).mp, fun anchor hanchor => (mem_bucketOrder.mp (horder anchor hanchor)).1,
      fun id ordinal => ⟨?_, ?_⟩⟩
    · rintro ⟨session, hsession, hkey, record, hrecord, rfl, rfl⟩
      obtain ⟨-, -, anchor, index, -, -, hid, hordinal, hget, -⟩ :=
        exists_framing_of_record hfinite hids (by simp) hfresh.sound hsession hkey hrecord
      exact ⟨index, anchor, hget, hid, hordinal⟩
    · rintro ⟨index, anchor, hget, rfl, rfl⟩
      obtain ⟨framing, hframing, hanchor⟩ := Assignment.mem_anchors.mp (List.mem_of_getElem? hget)
      obtain ⟨record, found, hrecord, hordinal, hfound, hid, -⟩ := hfresh.sound.finished hfinite
        (nodup_bucketOrder hids key) hpart hframing hanchor
      have hnodup : (Assignment.anchors _ _).Nodup := hranks.imp fun h heq => h.ne (congrArg _ heq)
      obtain rfl : found = index := (List.getElem?_inj (List.getElem?_eq_some_iff.mp hfound).1
        hnodup).mp (hfound.trans hget.symm)
      refine ⟨candidate (bucketOf frames key) _, ((mem_groupFrames_lights hlights.1 hlights.2).mpr
        ⟨_, Assignment.mem_splits.mpr (.inl ⟨framing, hframing, rfl⟩), rfl⟩).1, rfl, record, hrecord,
        hid, hordinal⟩
  · refine ⟨[], by simp, by simp, fun id ordinal => ⟨?_, by simp⟩⟩
    rintro ⟨session, hsession, rfl, record, hrecord, -⟩
    exact absurd ⟨lights_of_framing hsession hrecord, key_of_mem_groupFrames hsession⟩ hlights

theorem freshSessions (hfinite : S.FiniteRa) (hids : (frames.map Frame.id).Nodup) :
    FreshSessions S frames margins (groupFrames S frames [] margins) where
  nearest := by
    intro session hsession frame hframe hmem hunlabelled hpointed
    obtain ⟨anchor, hanchor, hrecorded, hanchorMem, hnearest⟩ :=
      freshSessions_nearest hfinite hids hsession hframe hmem hunlabelled hpointed
    have hkey := key_of_mem_session hids (by simp) hsession hframe hmem
    have hframeOrder := mem_bucketOrder.mpr ⟨hframe, hkey⟩
    obtain ⟨-, hanchorOrder⟩ := isAnchor_of_anchoredBy hfinite hids hsession hanchor hrecorded
    refine ⟨anchor, hanchor, hrecorded, hanchorMem, fun hne => ?_⟩
    obtain ⟨offset, hoffset, hleast⟩ := hnearest hne
    refine ⟨offset, hoffset, ?_⟩
    intro rival hrival hrivalKey other hother hrivalAnchor hlt otherOffset hotherOffset
    obtain ⟨hisAnchor, hotherOrder⟩ :=
      isAnchor_of_anchoredBy hfinite hids hrival hother hrivalAnchor
    rw [hrivalKey] at hisAnchor hotherOrder
    exact (lex_le_iff hids hanchorOrder hotherOrder).mp (hleast other hisAnchor
      ((bucketRank_lt_iff hids hotherOrder hframeOrder).mpr hlt) otherOffset hotherOffset)
  outside := by
    intro session hsession anchor hanchor hrecorded hunlabelled rival hrival hrivalKey other hother
      hrivalAnchor hlt
    obtain ⟨hisAnchor, horder⟩ := isAnchor_of_anchoredBy hfinite hids hsession hanchor hrecorded
    obtain ⟨hisOther, hotherOrder⟩ :=
      isAnchor_of_anchoredBy hfinite hids hrival hother hrivalAnchor
    rw [hrivalKey] at hisOther hotherOrder
    exact (fresh_bucketAssignment S margins session.key hids).outside anchor hisAnchor hunlabelled.2 other hisOther
      ((bucketRank_lt_iff hids hotherOrder horder).mpr hlt)
  ordinals := freshSessions_ordinals hfinite hids

end Fresh

/-- The laws of a regroup: every asset is in exactly one session, the assets of a session derive
its key, the listing of the assets does not matter, and with nothing standing the sessions follow
the nearest-anchor law. -/
theorem regroupAssets_laws (S : Sky P) (hfinite : S.FiniteRa) (assets : List (Asset P))
    (hids : (assets.map Asset.id).Nodup) (standing : List (StandingSession P))
    (hstanding : (standing.map StandingSession.assetIds).Pairwise List.Disjoint)
    (margins : FramingMargins P) :
    ((regroupAssets S assets standing margins).flatMap SessionCandidate.assetIds).Perm
        (assets.map Asset.id) ∧
      (∀ session ∈ regroupAssets S assets standing margins, ∀ asset ∈ assets,
        asset.id ∈ session.assetIds → (derive asset.effective).key = session.key) ∧
      (∀ assets', assets.Perm assets' →
        regroupAssets S assets' standing margins = regroupAssets S assets standing margins) ∧
      (standing = [] → FreshSessions S (assets.map Frame.ofAsset) margins
        (regroupAssets S assets standing margins)) := by
  have hmap : (assets.map Frame.ofAsset).map Frame.id = assets.map Asset.id := by
    simp [Frame.ofAsset, Function.comp_def]
  have hframes : ((assets.map Frame.ofAsset).map Frame.id).Nodup := hmap ▸ hids
  refine ⟨?_, ?_, ?_, ?_⟩
  · exact hmap ▸ perm_session_ids hframes hstanding margins
  · intro session hsession asset hasset hmem
    exact key_of_mem_session hframes hstanding hsession
      (List.mem_map_of_mem (f := Frame.ofAsset) hasset) hmem
  · intro assets' hperm
    exact (groupFrames_congr hframes (hperm.map _) standing margins).symm
  · rintro rfl
    exact freshSessions hfinite hframes

/-! ## Three lights of one night -/

/-- Whole numbers for `f64`, days for instants. -/
def wholePlatform : Platform where
  F64 := Int
  order := inferInstance
  isNan _ := false
  isFinite _ := true
  literal n := n
  sub := (· - ·)
  mul := (· * ·)
  display := decimalInt
  nfc := id
  debug := id
  Date := Nat
  Time := Nat
  DateTime := Nat
  dateTimeOrder := inferInstance
  fromCalendarDate _ _ day := some day
  fromHmsNano hour _ _ _ := some hour
  utcOffset hours _ := some (hours * 3600)
  newDateTime date _ := date
  date := id
  checkedSub time _ := some time
  checkedAdd time _ := some time
  displayDate := PlateVault.decimal

def flatSky : Sky wholePlatform where
  Equatorial := Int × Int
  j2000 ra dec := some (ra, dec)
  ra := Prod.fst
  dec := Prod.snd
  separation left right := Int.ofNat ((left.1 - right.1).natAbs + (left.2 - right.2).natAbs)
  normalized degrees := Int.emod degrees 360
  remEuclid := Int.emod
  fromOptics _ _ _ _ := none

theorem flatSky_finiteRa : flatSky.FiniteRa := fun _ _ _ _ => rfl

/-- A light at a right ascension, with its rotator's angle. -/
def lightAt (id : Uuid) (ra rotation : Int) : Asset wholePlatform where
  id
  relativePath := .host { absolute := false, parts := [.normal (decimal id.val)] }
  effective := {
    raw := fun _ => none, imageType := some "light".toList, filter := none, camera := none,
    cameraId := none, telescope := none, exposureSeconds := none, gain := none, offset := none,
    binningX := none, binningY := none, width := none, height := none, readoutMode := none,
    setTemperatureC := none, dateObs := none, dateLocal := none, siteLongitudeDeg := none,
    raDeg := some ra, decDeg := some (0 : Int), wcsRaDeg := none, wcsDecDeg := none,
    skyRotationDeg := none, mechanicalRotationDeg := some rotation, focalLengthMm := none,
    pixelSizeUm := none, framingLabel := none }

def wideMargins : FramingMargins wholePlatform where
  split := { maxCentreOffsetArcmin := (600 : Int), maxRotationDeg := (5 : Int) }

def threeLights : List (Asset wholePlatform) := [lightAt 1 0 0, lightAt 2 5 20, lightAt 3 1 20]

theorem regroupAssets_laws_threeLights :
    ((regroupAssets flatSky threeLights [] wideMargins).flatMap SessionCandidate.assetIds).Perm
        (threeLights.map Asset.id) ∧
      (∀ session ∈ regroupAssets flatSky threeLights [] wideMargins, ∀ asset ∈ threeLights,
        asset.id ∈ session.assetIds → (derive asset.effective).key = session.key) ∧
      (∀ assets', threeLights.Perm assets' → regroupAssets flatSky assets' [] wideMargins =
        regroupAssets flatSky threeLights [] wideMargins) ∧
      (([] : List (StandingSession wholePlatform)) = [] →
        FreshSessions flatSky (threeLights.map Frame.ofAsset) wideMargins
          (regroupAssets flatSky threeLights [] wideMargins)) :=
  regroupAssets_laws flatSky flatSky_finiteRa threeLights (by decide) [] .nil wideMargins

/-- How far a frame lies from an anchor, whatever the limits. -/
def Evidence.distance {P : Platform} {S : Sky P} (anchor frame : Evidence S) :
    Option (Offset P) := do
  let separation := S.separation (← anchor.centre) (← frame.centre)
  some { separation, rotation := rotationOffset S anchor frame }

/-- The third light lies nearer to the first than to its own anchor, but rotated beyond the
margins. -/
theorem nearest_needs_limits : ¬ ∀ session ∈ regroupAssets flatSky threeLights [] wideMargins,
    ∀ frame ∈ threeLights.map Frame.ofAsset, frame.id ∈ session.assetIds → Unlabelled frame →
      pointed flatSky frame = true →
      ∀ anchor ∈ threeLights.map Frame.ofAsset, session.AnchoredBy anchor → frame.id ≠ anchor.id →
        ∀ rival ∈ regroupAssets flatSky threeLights [] wideMargins, rival.key = session.key →
          ∀ other ∈ threeLights.map Frame.ofAsset, rival.AnchoredBy other →
            captureKey other < captureKey frame → ∀ distance otherDistance,
              (Evidence.of flatSky anchor).distance (Evidence.of flatSky frame) = some distance →
              (Evidence.of flatSky other).distance (Evidence.of flatSky frame) = some otherDistance →
                toLex (distance.key, captureKey anchor) ≤
                  toLex (otherDistance.key, captureKey other) := by
  intro hnearest
  have hle := hnearest _ (List.get_mem _ ⟨1, by decide +kernel⟩)
    (Frame.ofAsset (lightAt 3 1 20)) (by simp [threeLights]) (by decide +kernel)
    ⟨by decide, by decide⟩ (by decide)
    (Frame.ofAsset (lightAt 2 5 20)) (by simp [threeLights])
    (by unfold SessionCandidate.AnchoredBy; decide +kernel) (by decide +kernel)
    _ (List.get_mem _ ⟨0, by decide +kernel⟩) (by decide +kernel)
    (Frame.ofAsset (lightAt 1 0 0)) (by simp [threeLights])
    (by unfold SessionCandidate.AnchoredBy; decide +kernel) (by decide +kernel)
    { separation := (4 : Int), rotation := some (0 : Int) }
    { separation := (1 : Int), rotation := some (20 : Int) } rfl rfl
  revert hle
  decide

end PlateVault
