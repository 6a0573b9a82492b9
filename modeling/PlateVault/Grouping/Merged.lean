import PlateVault.Grouping.History
import PlateVault.Grouping.Merging

/-!
# Sessions merged by a label

What a label given to all the lights of some sessions of one key does to the sessions of a regroup
where nothing stands: one session takes the place of theirs, and each other session keeps its assets
and its anchor.
-/

namespace PlateVault

variable {P : Platform} {S : Sky P}

/-! ## A session's assets and anchor -/

/-- A session without its number among the framings of its key. -/
structure SessionOutline where
  key : Text
  assetIds : List Uuid
  anchor : Option Uuid
  deriving DecidableEq

def SessionCandidate.outline (session : SessionCandidate P) : SessionOutline where
  key := session.key
  assetIds := session.assetIds
  anchor := session.framing.map SessionFraming.anchorAssetId

def Framing.recorded (S : Sky P) (framing : Framing P) : Option Uuid :=
  framing.anchor.bind fun anchor =>
    (sessionFraming S anchor 1 framing).map SessionFraming.anchorAssetId

def Framing.outline (S : Sky P) (key : Text) (framing : Framing P) : SessionOutline where
  key
  assetIds := Ordered.ascending (framing.members.map Frame.id)
  anchor := framing.recorded S

theorem sessionFraming_anchor (anchor : Frame P) (ordinal ordinal' : Nat) (framing : Framing P) :
    (sessionFraming S anchor ordinal framing).map SessionFraming.anchorAssetId =
      (sessionFraming S anchor ordinal' framing).map SessionFraming.anchorAssetId := by
  simp only [sessionFraming, Option.bind_eq_bind]
  cases (Evidence.of S anchor).centre with
  | none => rfl
  | some centre => cases hangle : angle S (some (S.ra centre)) <;> simp [hangle]

theorem outline_finished {rank : Frame P → Nat} {state : Assignment P} {framing : Framing P}
    (hframing : framing ∈ state.framings) (bucket : Bucket P) :
    (candidate bucket (state.finished S rank framing)).outline = framing.outline S bucket.key := by
  have hanchor : (state.finished S rank framing).framing.map SessionFraming.anchorAssetId =
      framing.recorded S := by
    cases hanchor : framing.anchor with
    | none => simp [Assignment.finished, finishOne, Framing.recorded, hanchor]
    | some anchor =>
      have hmem : rank anchor ∈ anchorRanks rank state.framings := by
        simp only [anchorRanks, Ordered.mem_sortBy, List.mem_filterMap]
        exact ⟨framing, hframing, by simp [hanchor]⟩
      obtain ⟨index, hindex⟩ := Option.isSome_iff_exists.mp (List.isSome_idxOf?.mpr hmem)
      simp only [Assignment.finished, finishOne, Framing.recorded, hanchor, Option.bind_some, hindex]
      exact sessionFraming_anchor anchor _ 1 framing
  simp only [SessionCandidate.outline, candidate, Framing.outline, hanchor]
  rfl

def unframedOutline (key : Text) (frames : List (Frame P)) : SessionOutline where
  key
  assetIds := Ordered.ascending (frames.map Frame.id)
  anchor := none

theorem mem_outlines {rank : Frame P → Nat} {state : Assignment P} {bucket : Bucket P}
    {outline : SessionOutline} :
    (∃ split ∈ state.splits S rank, (candidate bucket split).outline = outline) ↔
      (∃ framing ∈ state.framings, framing.outline S bucket.key = outline) ∨
        state.unframed ≠ [] ∧ unframedOutline bucket.key state.unframed = outline := by
  constructor
  · rintro ⟨split, hsplit, rfl⟩
    rcases Assignment.mem_splits.mp hsplit with ⟨framing, hframing, rfl⟩ | ⟨hne, rfl⟩
    · exact .inl ⟨framing, hframing, (outline_finished hframing bucket).symm⟩
    · exact .inr ⟨hne, rfl⟩
  · rintro (⟨framing, hframing, rfl⟩ | ⟨hne, rfl⟩)
    · exact ⟨_, Assignment.mem_splits.mpr (.inl ⟨framing, hframing, rfl⟩),
        outline_finished hframing bucket⟩
    · exact ⟨_, Assignment.mem_splits.mpr (.inr ⟨hne, rfl⟩), rfl⟩

def SessionOutline.Chosen (chosen : Uuid → Bool) (outline : SessionOutline) : Prop :=
  ∃ id ∈ outline.assetIds, chosen id = true

instance (chosen : Uuid → Bool) (outline : SessionOutline) : Decidable (outline.Chosen chosen) :=
  inferInstanceAs (Decidable (∃ id ∈ outline.assetIds, chosen id = true))

theorem chosen_outline {chosen : Uuid → Bool} {key : Text} {framing : Framing P} :
    (framing.outline S key).Chosen chosen ↔ framing.Chosen chosen := by
  simp [SessionOutline.Chosen, Framing.outline, Framing.Chosen]

theorem chosen_unframed {chosen : Uuid → Bool} {key : Text} {frames : List (Frame P)} :
    (unframedOutline key frames).Chosen chosen ↔ ∃ frame ∈ frames, chosen frame.id = true := by
  simp [SessionOutline.Chosen, unframedOutline]

/-! ## One key -/

section

variable {chosen : Uuid → Bool} {label : Text} {margins : FramingMargins P}
  {order : List (Frame P)} {state merged : Assignment P} {key : Text}

def mergedOutline (S : Sky P) (chosen : Uuid → Bool) (label : Text) (margins : FramingMargins P)
    (key : Text) (order : List (Frame P)) : SessionOutline :=
  (mergedFraming S chosen label margins.split order).outline S key

theorem Merging.outlines (h : Merging S chosen label margins order state merged)
    (hsome : ∃ frame ∈ order, chosen frame.id = true)
    (hunframed : (∃ frame ∈ state.unframed, chosen frame.id = true) →
      ∀ frame ∈ state.unframed, chosen frame.id = true) (outline : SessionOutline) :
    ((∃ framing ∈ merged.framings, framing.outline S key = outline) ∨
        merged.unframed ≠ [] ∧ unframedOutline key merged.unframed = outline) ↔
      (((∃ framing ∈ state.framings, framing.outline S key = outline) ∨
        state.unframed ≠ [] ∧ unframedOutline key state.unframed = outline) ∧
          ¬ outline.Chosen chosen) ∨ outline = mergedOutline S chosen label margins key order := by
  -- the unframed lights are all chosen, or stay as they are
  have hsame : (merged.unframed ≠ [] ∧ unframedOutline key merged.unframed = outline) ↔
      (state.unframed ≠ [] ∧ unframedOutline key state.unframed = outline) ∧
        ¬ outline.Chosen chosen := by
    rw [h.unframed]
    by_cases hany : ∃ frame ∈ state.unframed, chosen frame.id = true
    · have hnone : (state.unframed.filter fun frame => !chosen frame.id) = [] :=
        List.filter_eq_nil_iff.mpr fun frame hframe => by simp [hunframed hany frame hframe]
      rw [hnone]
      constructor
      · rintro ⟨hne, -⟩
        exact absurd rfl hne
      · rintro ⟨⟨-, rfl⟩, hnot⟩
        exact absurd (chosen_unframed.mpr hany) hnot
    · have hall : (state.unframed.filter fun frame => !chosen frame.id) = state.unframed := by
        refine List.filter_eq_self.mpr fun frame hframe => ?_
        have hnot : ¬ chosen frame.id = true := fun hchosen => hany ⟨frame, hframe, hchosen⟩
        simpa using hnot
      rw [hall]
      constructor
      · rintro ⟨hne, rfl⟩
        exact ⟨⟨hne, rfl⟩, chosen_unframed.not.mpr hany⟩
      · exact fun h => h.1
  rw [hsame]
  constructor
  · rintro (⟨framing, hframing, rfl⟩ | h)
    · by_cases hlabel : framing.label = some label
      · obtain ⟨-, rfl⟩ := (h.joined framing).mp ⟨hframing, hlabel⟩
        exact .inr rfl
      · obtain ⟨hmem, hnot⟩ := (h.others framing).mp ⟨hframing, hlabel⟩
        exact .inl ⟨.inl ⟨framing, hmem, rfl⟩, chosen_outline.not.mpr hnot⟩
    · exact .inl ⟨.inr h.1, h.2⟩
  · rintro (⟨⟨framing, hframing, rfl⟩ | hrest, hnot⟩ | rfl)
    · have hmem := (h.others framing).mpr ⟨hframing, chosen_outline.not.mp hnot⟩
      exact .inl ⟨framing, hmem.1, rfl⟩
    · exact .inr ⟨hrest, hnot⟩
    · exact .inl ⟨_, ((h.joined _).mpr ⟨hsome, rfl⟩).1, rfl⟩

end

/-! ## A regroup -/

section

variable {chosen : Uuid → Bool} {label : Text} {margins : FramingMargins P}
  {frames : List (Frame P)} {key : Text}

theorem derive_relabel {frame : Frame P} :
    derive (relabel chosen label frame).metadata = derive frame.metadata := by
  unfold relabel
  split <;> rfl

theorem bucketOf_relabel : bucketOf (frames.map (relabel chosen label)) key =
    { bucketOf frames key with
      members := (bucketOf frames key).members.map (relabel chosen label) } := by
  have hmembers : ((frames.map (relabel chosen label)).filter fun frame => frame.key = key) =
      (frames.filter fun frame => frame.key = key).map (relabel chosen label) := by
    simp [List.filter_map, Function.comp_def]
  simp only [bucketOf, hmembers, List.head?_map, Option.map_map, Function.comp_def, derive_relabel]

theorem captureOrder_relabel :
    captureOrder (frames.map (relabel chosen label)) =
      (captureOrder frames).map (relabel chosen label) := by
  have hkeys : ∀ left ∈ frames, ∀ right ∈ frames, captureKey left ≤ captureKey right ↔
      captureKey (relabel chosen label left) ≤ captureKey (relabel chosen label right) := by
    intro left _ right _
    rw [captureKey_relabel, captureKey_relabel]
  exact (List.map_insertionSort (fun left right : Frame P => captureKey left ≤ captureKey right)
    (fun left right : Frame P => captureKey left ≤ captureKey right) (relabel chosen label) frames
    hkeys).symm

def HasOutline (S : Sky P) (frames : List (Frame P)) (margins : FramingMargins P) (key : Text)
    (outline : SessionOutline) : Prop :=
  ∃ session ∈ (bucketOf frames key).sessions S [] margins, session.outline = outline

theorem exists_outline {outline : SessionOutline} :
    (∃ session ∈ groupFrames S frames [] margins, session.outline = outline) ↔
      ∃ key ∈ frames.map Frame.key, HasOutline S frames margins key outline := by
  simp only [mem_groupFrames, HasOutline]
  constructor
  · rintro ⟨session, ⟨key, hkey, hsession⟩, heq⟩
    exact ⟨key, hkey, session, hsession, heq⟩
  · rintro ⟨key, hkey, session, hsession, heq⟩
    exact ⟨session, ⟨key, hkey, hsession⟩, heq⟩

theorem hasOutline_iff {outline : SessionOutline} : HasOutline S frames margins key outline ↔
    ∃ split ∈ (bucketOf frames key).splits S [] margins,
      (candidate (bucketOf frames key) split).outline = outline := by
  simp only [HasOutline, mem_sessions]
  constructor
  · rintro ⟨_, ⟨split, hsplit, rfl⟩, heq⟩
    exact ⟨split, hsplit, heq⟩
  · rintro ⟨split, hsplit, heq⟩
    exact ⟨_, ⟨split, hsplit, rfl⟩, heq⟩

theorem hasOutline_lights {outline : SessionOutline}
    (hlights : (bucketOf frames key).lights = true) : HasOutline S frames margins key outline ↔
      (∃ framing ∈ (bucketAssignment S frames [] margins key).framings,
        framing.outline S key = outline) ∨
      (bucketAssignment S frames [] margins key).unframed ≠ [] ∧
        unframedOutline key (bucketAssignment S frames [] margins key).unframed = outline := by
  rw [hasOutline_iff, splits_lights [] margins hlights]
  exact mem_outlines

theorem HasOutline.frame {outline : SessionOutline} (hids : (frames.map Frame.id).Nodup)
    (h : HasOutline S frames margins key outline) {id : Uuid} (hid : id ∈ outline.assetIds) :
    ∃ frame ∈ frames, frame.key = key ∧ frame.id = id := by
  obtain ⟨split, hsplit, rfl⟩ := hasOutline_iff.mp h
  have hid : id ∈ (candidate (bucketOf frames key) split).assetIds := hid
  obtain ⟨frame, hframe, rfl⟩ := mem_assetIds_candidate.mp hid
  have hmem := (isPartition_splits hids (by simp) margins key).mem (List.mem_map_of_mem hsplit)
    hframe
  obtain ⟨hmem, hkey⟩ := mem_bucketOf.mp hmem
  exact ⟨frame, hmem, hkey, rfl⟩

/-- Chosen assets that are those of some sessions, all of one key of lights. -/
structure Mergeable (S : Sky P) (chosen : Uuid → Bool) (frames : List (Frame P))
    (margins : FramingMargins P) (key : Text) : Prop where
  ids : (frames.map Frame.id).Nodup
  whole : ∀ session ∈ groupFrames S frames [] margins, session.outline.Chosen chosen →
    ∀ id ∈ session.assetIds, chosen id = true
  ofKey : ∀ frame ∈ frames, chosen frame.id = true → frame.key = key
  lights : (bucketOf frames key).lights = true
  inhabited : ∃ frame ∈ frames, chosen frame.id = true

theorem Mergeable.hasOutline (h : Mergeable S chosen frames margins key) {outline : SessionOutline}
    (houtline : HasOutline S frames margins key outline) (hchosen : outline.Chosen chosen) :
    ∀ id ∈ outline.assetIds, chosen id = true := by
  obtain ⟨session, hsession, rfl⟩ := houtline
  exact h.whole session (mem_groupFrames.mpr ⟨key, key_of_lights h.lights, hsession⟩) hchosen

theorem Mergeable.merging (h : Mergeable S chosen frames margins key) (hread : ReadsAs label)
    (hlabels : ∀ frame ∈ frames, framingLabel frame.metadata ≠ some label) :
    Merging S chosen label margins (captureOrder (bucketOf frames key).members)
      (bucketAssignment S frames [] margins key)
      (bucketAssignment S (frames.map (relabel chosen label)) [] margins key) := by
  have hcoherent : (bucketAssignment S frames [] margins key).Coherent chosen := by
    intro framing hframing hchosen member hmember
    refine h.hasOutline ((hasOutline_lights h.lights).mpr (.inl ⟨framing, hframing, rfl⟩))
      (chosen_outline.mpr hchosen) member.id ?_
    exact Ordered.mem_ascending.mpr (List.mem_map_of_mem hmember)
  have hmerging := merging_assigned (nodup_bucketOrder h.ids key) hread
    (fun frame hframe => hlabels frame (mem_bucketOrder.mp hframe).1) hcoherent
  simp only [bucketAssignment, bucketOf_relabel, captureOrder_relabel]
  exact hmerging

theorem Mergeable.outlines (h : Mergeable S chosen frames margins key) (hread : ReadsAs label)
    (hlabels : ∀ frame ∈ frames, framingLabel frame.metadata ≠ some label)
    (outline : SessionOutline) :
    (∃ session ∈ groupFrames S (frames.map (relabel chosen label)) [] margins,
        session.outline = outline) ↔
      (∃ session ∈ groupFrames S frames [] margins, session.outline = outline) ∧
          ¬ outline.Chosen chosen ∨
        outline = mergedOutline S chosen label margins key
          (captureOrder (bucketOf frames key).members) := by
  have hkeys : (frames.map (relabel chosen label)).map Frame.key = frames.map Frame.key := by
    simp [Function.comp_def]
  obtain ⟨member, hmember, hmemberChosen⟩ := h.inhabited
  have hsome : ∃ frame ∈ captureOrder (bucketOf frames key).members, chosen frame.id = true :=
    ⟨member, mem_bucketOrder.mpr ⟨hmember, h.ofKey member hmember hmemberChosen⟩, hmemberChosen⟩
  have hunframed : (∃ frame ∈ (bucketAssignment S frames [] margins key).unframed,
      chosen frame.id = true) → ∀ frame ∈ (bucketAssignment S frames [] margins key).unframed,
        chosen frame.id = true := by
    rintro ⟨frame, hframe, hchosen⟩ other hother
    refine h.hasOutline ((hasOutline_lights h.lights).mpr (.inr ⟨List.ne_nil_of_mem hframe, rfl⟩))
      (chosen_unframed.mpr ⟨frame, hframe, hchosen⟩) other.id ?_
    exact Ordered.mem_ascending.mpr (List.mem_map_of_mem hother)
  have hlights : (bucketOf (frames.map (relabel chosen label)) key).lights = true := by
    rw [bucketOf_relabel]
    exact h.lights
  have hthere : HasOutline S (frames.map (relabel chosen label)) margins key outline ↔
      HasOutline S frames margins key outline ∧ ¬ outline.Chosen chosen ∨
        outline = mergedOutline S chosen label margins key
          (captureOrder (bucketOf frames key).members) := by
    rw [hasOutline_lights hlights, hasOutline_lights h.lights]
    exact (h.merging hread hlabels).outlines hsome hunframed outline
  -- no light of another key is chosen
  have helsewhere : ∀ other, other ≠ key →
      (HasOutline S (frames.map (relabel chosen label)) margins other outline ↔
        HasOutline S frames margins other outline ∧ ¬ outline.Chosen chosen) := by
    intro other hne
    have hsame : bucketOf (frames.map (relabel chosen label)) other = bucketOf frames other := by
      rw [bucketOf_relabel, List.map_congr_left (g := id) fun frame hframe => ?_]
      · simp
      · obtain ⟨hmem, hkey⟩ := mem_bucketOf.mp hframe
        refine relabel_of_not (Bool.eq_false_iff.mpr fun hchosen => hne ?_)
        exact hkey.symm.trans (h.ofKey frame hmem hchosen)
    have hiff : HasOutline S (frames.map (relabel chosen label)) margins other outline ↔
        HasOutline S frames margins other outline := by
      rw [HasOutline, HasOutline, hsame]
    refine hiff.trans ⟨fun houtline => ⟨houtline, ?_⟩, fun h => h.1⟩
    rintro ⟨id, hid, hchosen⟩
    obtain ⟨frame, hframe, rfl, rfl⟩ := houtline.frame h.ids hid
    exact hne (h.ofKey frame hframe hchosen)
  rw [exists_outline, exists_outline, hkeys]
  constructor
  · rintro ⟨other, hother, houtline⟩
    by_cases heq : other = key
    · subst heq
      rcases hthere.mp houtline with ⟨hbefore, hnot⟩ | hmerged
      · exact .inl ⟨⟨other, hother, hbefore⟩, hnot⟩
      · exact .inr hmerged
    · obtain ⟨hbefore, hnot⟩ := (helsewhere other heq).mp houtline
      exact .inl ⟨⟨other, hother, hbefore⟩, hnot⟩
  · rintro (⟨⟨other, hother, houtline⟩, hnot⟩ | hmerged)
    · by_cases heq : other = key
      · subst heq
        exact ⟨other, hother, hthere.mpr (.inl ⟨houtline, hnot⟩)⟩
      · exact ⟨other, hother, (helsewhere other heq).mpr ⟨houtline, hnot⟩⟩
    · exact ⟨key, key_of_lights h.lights, hthere.mpr (.inr hmerged)⟩

theorem nodup_outlines (hids : (frames.map Frame.id).Nodup) :
    ((groupFrames S frames [] margins).map SessionCandidate.outline).Nodup := by
  have hgrounded := grounded_nil (S := S) hids margins
  refine List.pairwise_map.mpr (hgrounded.pairwise_disjoint.imp_of_mem
    fun {left right} hleft _ hdisjoint heq => ?_)
  obtain ⟨id, hid, -⟩ := hgrounded.nonempty hleft
  have hassets : left.assetIds = right.assetIds := congrArg SessionOutline.assetIds heq
  exact hdisjoint hid (hassets ▸ hid)

theorem mem_mergedOutline {id : Uuid} (h : Mergeable S chosen frames margins key) :
    id ∈ (mergedOutline S chosen label margins key
      (captureOrder (bucketOf frames key).members)).assetIds ↔
        ∃ frame ∈ frames, chosen frame.id = true ∧ frame.id = id := by
  simp only [mergedOutline, Framing.outline, mergedFraming, Ordered.mem_ascending, List.map_map,
    List.mem_map, List.mem_filter, Function.comp_apply, relabel_id, mem_bucketOrder]
  constructor
  · rintro ⟨frame, ⟨⟨hframe, -⟩, hchosen⟩, rfl⟩
    exact ⟨frame, hframe, hchosen, rfl⟩
  · rintro ⟨frame, hframe, hchosen, rfl⟩
    exact ⟨frame, ⟨⟨hframe, h.ofKey frame hframe hchosen⟩, hchosen⟩, rfl⟩

theorem Mergeable.perm_outlines (h : Mergeable S chosen frames margins key) (hread : ReadsAs label)
    (hlabels : ∀ frame ∈ frames, framingLabel frame.metadata ≠ some label) :
    ((groupFrames S (frames.map (relabel chosen label)) [] margins).map
        SessionCandidate.outline).Perm
      (((groupFrames S frames [] margins).map SessionCandidate.outline).filter
          (fun outline => ¬ outline.Chosen chosen) ++
        [mergedOutline S chosen label margins key (captureOrder (bucketOf frames key).members)]) := by
  have hids : ((frames.map (relabel chosen label)).map Frame.id).Nodup := by
    rw [map_relabel_ids]
    exact h.ids
  obtain ⟨member, hmember, hchosen⟩ := h.inhabited
  have hmerged : (mergedOutline S chosen label margins key
      (captureOrder (bucketOf frames key).members)).Chosen chosen :=
    ⟨member.id, (mem_mergedOutline h).mpr ⟨member, hmember, hchosen, rfl⟩, hchosen⟩
  refine (List.perm_ext_iff_of_nodup (nodup_outlines hids) ?_).mpr fun outline => ?_
  · refine List.nodup_append.mpr ⟨(nodup_outlines h.ids).filter _, List.nodup_singleton _, ?_⟩
    rintro other hother _ hlast rfl
    rw [List.mem_singleton.mp hlast] at hother
    simpa [hmerged] using (List.mem_filter.mp hother).2
  · have houtlines := h.outlines hread hlabels outline
    simpa [List.mem_map, and_comm] using houtlines

end

end PlateVault
