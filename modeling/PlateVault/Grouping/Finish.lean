import PlateVault.Grouping.Partition

/-!
# Records

A framing with an anchor that has pointing records it: the anchor's id, the framing's label and
limits, and its number among the anchors in capture order. A framing without one records nothing.
-/

namespace PlateVault

variable {P : Platform} {S : Sky P}

theorem sessionFraming_eq_some {anchor : Frame P} {ordinal : Nat} {framing : Framing P}
    {record : SessionFraming P} (h : sessionFraming S anchor ordinal framing = some record) :
    record.ordinal = ordinal ∧ record.anchorAssetId = anchor.id ∧ record.label = framing.label ∧
      record.splitLimits = framing.limits := by
  simp only [sessionFraming, Option.bind_eq_bind, Option.bind_eq_some_iff, Option.some.injEq] at h
  obtain ⟨centre, -, raDeg, -, rfl⟩ := h
  exact ⟨rfl, rfl, rfl, rfl⟩

theorem exists_sessionFraming (hfinite : S.FiniteRa) {anchor : Frame P}
    (hpointed : pointed S anchor = true) (ordinal : Nat) (framing : Framing P) :
    ∃ record, sessionFraming S anchor ordinal framing = some record := by
  obtain ⟨point, hpoint⟩ := Option.isSome_iff_exists.mp hpointed
  have hra : P.isFinite (S.ra point) = true := by
    have hcentre : ∀ raDeg decDeg, PlateVault.centre S raDeg decDeg = some point →
        P.isFinite (S.ra point) = true := by
      intro raDeg decDeg h
      simp only [PlateVault.centre, Option.bind_eq_bind, Option.bind_eq_some_iff] at h
      obtain ⟨ra, -, dec, -, h⟩ := h
      exact hfinite ra dec point h
    simp only [Evidence.of, Option.or_eq_some_iff] at hpoint
    rcases hpoint with h | ⟨-, h⟩
    · exact hcentre _ _ h
    · exact hcentre _ _ h
  have hangle : ∃ raDeg, angle S (some (S.ra point)) = some raDeg := by
    simp [angle, Option.filter, hra]
  obtain ⟨raDeg, hangle⟩ := hangle
  simp [sessionFraming, hpoint, hangle]

def Assignment.anchors (rank : Frame P → Nat) (state : Assignment P) : List (Frame P) :=
  Ordered.sortBy rank (state.framings.filterMap Framing.anchor)

theorem Assignment.mem_anchors {rank : Frame P → Nat} {state : Assignment P} {frame : Frame P} :
    frame ∈ state.anchors rank ↔ ∃ framing ∈ state.framings, framing.anchor = some frame := by
  simp [Assignment.anchors]

theorem Assignment.Sound.pairwise_anchors {order : List (Frame P)} {state : Assignment P}
    (hids : (order.map Frame.id).Nodup) (hsound : state.Sound S)
    (hpart : IsPartition state.blocks order) :
    (state.anchors (rank order)).Pairwise fun left right => rank order left < rank order right := by
  refine Ordered.pairwise_sortBy_lt (List.Pairwise.filterMap _ (S := fun left right : Frame P =>
    rank order left ≠ rank order right) (R := fun left right : Framing P =>
      left ∈ state.framings ∧ right ∈ state.framings ∧ left.members.Disjoint right.members) ?_ ?_)
  · rintro left right ⟨hleft, hright, hdisjoint⟩ anchor hanchor other hother heq
    have hanchor := ((hsound.framing left hleft).anchor anchor hanchor).1
    have hother := ((hsound.framing right hright).anchor other hother).1
    have hmem : ∀ framing ∈ state.framings, ∀ frame ∈ framing.members, frame ∈ order :=
      fun framing hframing frame hframe => hpart.mem
        (List.mem_append_left _ (List.mem_map_of_mem hframing)) hframe
    have : anchor = other := rank_inj hids (hmem left hleft anchor hanchor)
      (hmem right hright other hother) heq
    exact hdisjoint hanchor (this ▸ hother)
  · have hblocks := (List.pairwise_append.mp hpart.disjoint).1
    rw [List.pairwise_map] at hblocks
    exact List.Pairwise.and_mem.mp hblocks

theorem Assignment.Sound.anchorRanks_eq {order : List (Frame P)} {state : Assignment P}
    (hids : (order.map Frame.id).Nodup) (hsound : state.Sound S)
    (hpart : IsPartition state.blocks order) :
    anchorRanks (rank order) state.framings = (state.anchors (rank order)).map (rank order) := by
  symm
  refine Ordered.eq_sortBy ?_ ?_
  · exact List.pairwise_map.mpr (hsound.pairwise_anchors hids hpart)
  · rw [← List.map_filterMap]
    exact (Ordered.perm_sortBy _ _).map _

theorem Assignment.Sound.idxOf?_anchorRanks {order : List (Frame P)} {state : Assignment P}
    (hids : (order.map Frame.id).Nodup) (hsound : state.Sound S)
    (hpart : IsPartition state.blocks order) {framing : Framing P} (hframing : framing ∈ state.framings)
    {anchor : Frame P} (hanchor : framing.anchor = some anchor) :
    ∃ index, (anchorRanks (rank order) state.framings).idxOf? (rank order anchor) = some index ∧
      (state.anchors (rank order))[index]? = some anchor := by
  rw [hsound.anchorRanks_eq hids hpart]
  obtain ⟨index, hindex⟩ := List.mem_iff_getElem?.mp
    (Assignment.mem_anchors.mpr ⟨framing, hframing, hanchor⟩ : anchor ∈ state.anchors (rank order))
  obtain ⟨hlt, hget⟩ := List.getElem?_eq_some_iff.mp hindex
  refine ⟨index, List.idxOf?_eq_some_iff.mpr ⟨by simpa using hlt, by simp [hget], ?_⟩, hindex⟩
  intro j hj
  have hranks := List.pairwise_iff_getElem.mp (hsound.pairwise_anchors hids hpart) j index
    (hj.trans hlt) hlt hj
  rw [hget] at hranks
  simpa using hranks.ne

def Assignment.finished (S : Sky P) (rank : Frame P → Nat) (state : Assignment P)
    (framing : Framing P) : Split P :=
  finishOne S rank (anchorRanks rank state.framings) framing

theorem Assignment.mem_splits {rank : Frame P → Nat} {state : Assignment P} {split : Split P} :
    split ∈ state.splits S rank ↔
      (∃ framing ∈ state.framings, state.finished S rank framing = split) ∨
        state.unframed ≠ [] ∧
          split = { members := state.unframed, framing := none, notes := [noPointing] } := by
  by_cases hempty : state.unframed = [] <;>
    simp [Assignment.splits, finish, Assignment.finished, hempty]

theorem Assignment.finished_none {rank : Frame P → Nat} {state : Assignment P}
    {framing : Framing P} (h : framing.anchor = none) :
    (state.finished S rank framing).framing = none := by
  simp [Assignment.finished, finishOne, h]

theorem Assignment.Sound.finished (hfinite : S.FiniteRa) {order : List (Frame P)}
    {state : Assignment P} (hids : (order.map Frame.id).Nodup) (hsound : state.Sound S)
    (hpart : IsPartition state.blocks order) {framing : Framing P}
    (hframing : framing ∈ state.framings) {anchor : Frame P} (hanchor : framing.anchor = some anchor) :
    ∃ record index, (state.finished S (rank order) framing).framing = some record ∧
      record.ordinal = index + 1 ∧ (state.anchors (rank order))[index]? = some anchor ∧
      record.anchorAssetId = anchor.id ∧ record.label = framing.label ∧
      record.splitLimits = framing.limits := by
  obtain ⟨index, hindex, hget⟩ := hsound.idxOf?_anchorRanks hids hpart hframing hanchor
  have hpointed := ((hsound.framing framing hframing).anchor anchor hanchor).2
  obtain ⟨record, hrecord⟩ := exists_sessionFraming hfinite hpointed (index + 1) framing
  obtain ⟨hordinal, hid, hlabel, hlimits⟩ := sessionFraming_eq_some hrecord
  refine ⟨record, index, ?_, hordinal, hget, hid, hlabel, hlimits⟩
  simp [Assignment.finished, finishOne, hanchor, hindex, hrecord]

end PlateVault
