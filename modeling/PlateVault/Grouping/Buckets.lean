import PlateVault.Grouping.Regroup
import PlateVault.Grouping.KeyLaws
import PlateVault.Grouping.Assignment

/-!
# Buckets

A bucket's kind and basis are those of any of its frames, and the sessions of a regroup are the
sessions of its buckets. Capture order and rank depend on the frames only, not on how they are
listed.
-/

namespace PlateVault

variable {P : Platform} {S : Sky P}

/-! ## One bucket -/

theorem mem_bucketOf {frames : List (Frame P)} {key : Text} {frame : Frame P} :
    frame ∈ (bucketOf frames key).members ↔ frame ∈ frames ∧ frame.key = key := by
  simp [bucketOf]

theorem exists_first {frames : List (Frame P)} {key : Text} {frame : Frame P}
    (h : frame ∈ (bucketOf frames key).members) :
    ∃ first : Frame P, first.key = key ∧
      (bucketOf frames key).lights = (derive first.metadata).light ∧
      (bucketOf frames key).dateBasis = (derive first.metadata).dateBasis := by
  cases hmembers : (bucketOf frames key).members with
  | nil => simp [hmembers] at h
  | cons first rest =>
    have hfirst : first ∈ (bucketOf frames key).members := by simp [hmembers]
    have hhead : (frames.filter fun frame => frame.key = key).head? = some first :=
      congrArg List.head? hmembers
    exact ⟨first, (mem_bucketOf.mp hfirst).2, by simp [bucketOf, hhead], by simp [bucketOf, hhead]⟩

theorem bucketOf_lights {frames : List (Frame P)} {key : Text} {frame : Frame P}
    (h : frame ∈ frames) (hkey : frame.key = key) :
    (bucketOf frames key).lights = (derive frame.metadata).light := by
  obtain ⟨first, hfirst, hlights, -⟩ := exists_first (mem_bucketOf.mpr ⟨h, hkey⟩)
  rw [hlights]
  exact light_of_key_eq (hfirst.trans hkey.symm)

theorem bucketOf_dateBasis {frames : List (Frame P)} {key : Text} {frame : Frame P}
    (h : frame ∈ frames) (hkey : frame.key = key) :
    (bucketOf frames key).dateBasis = (derive frame.metadata).dateBasis := by
  obtain ⟨first, hfirst, -, hbasis⟩ := exists_first (mem_bucketOf.mpr ⟨h, hkey⟩)
  rw [hbasis]
  exact dateBasis_of_key_eq (hfirst.trans hkey.symm)

/-! ## Capture order -/

theorem captureKey_ne {left right : Frame P} (h : left.id ≠ right.id) :
    captureKey left ≠ captureKey right := by
  intro heq
  simp only [captureKey, EmbeddingLike.apply_eq_iff_eq, Prod.mk.injEq] at heq
  exact h heq.2.2

theorem pairwise_captureKey {frames : List (Frame P)} (h : (frames.map Frame.id).Nodup) :
    frames.Pairwise fun left right => captureKey left ≠ captureKey right :=
  (List.pairwise_map.mp h).imp captureKey_ne

theorem pairwise_captureOrder {frames : List (Frame P)} (h : (frames.map Frame.id).Nodup) :
    (captureOrder frames).Pairwise fun left right => captureKey left < captureKey right :=
  Ordered.pairwise_sortBy_lt (pairwise_captureKey h)

theorem captureOrder_congr {frames frames' : List (Frame P)} (h : (frames.map Frame.id).Nodup)
    (hperm : frames.Perm frames') : captureOrder frames = captureOrder frames' :=
  Ordered.sortBy_congr (pairwise_captureKey h) hperm

theorem mem_captureOrder {frames : List (Frame P)} {frame : Frame P} :
    frame ∈ captureOrder frames ↔ frame ∈ frames :=
  Ordered.mem_sortBy

theorem nodup_captureOrder {frames : List (Frame P)} (h : (frames.map Frame.id).Nodup) :
    ((captureOrder frames).map Frame.id).Nodup :=
  ((Ordered.perm_sortBy captureKey frames).map Frame.id).nodup_iff.mpr h

theorem eq_of_id_eq {frames : List (Frame P)} (h : (frames.map Frame.id).Nodup)
    {left right : Frame P} (hleft : left ∈ frames) (hright : right ∈ frames)
    (hid : left.id = right.id) : left = right :=
  List.inj_on_of_nodup_map h hleft hright hid

theorem rank_getElem? {order : List (Frame P)} (h : (order.map Frame.id).Nodup) {i : Nat}
    {frame : Frame P} (hget : order[i]? = some frame) : rank order frame = i := by
  obtain ⟨front, back, rfl, rfl⟩ := Ordered.split_of_getElem? hget
  have hne : ∀ other ∈ front, other.id ≠ frame.id := by
    intro other hother heq
    rw [List.map_append, List.map_cons, List.nodup_append] at h
    exact h.2.2 other.id (List.mem_map_of_mem hother) frame.id List.mem_cons_self heq
  rw [rank, List.findIdx_append, List.findIdx_eq_length_of_false]
  · simp [List.findIdx_cons]
  · simpa using hne

theorem pairwise_rank {order : List (Frame P)} (h : (order.map Frame.id).Nodup) :
    order.Pairwise fun left right => rank order left < rank order right := by
  refine List.pairwise_iff_getElem.mpr fun i j hi hj hij => ?_
  rw [rank_getElem? h (List.getElem?_eq_getElem hi), rank_getElem? h (List.getElem?_eq_getElem hj)]
  exact hij

theorem rank_inj {order : List (Frame P)} (h : (order.map Frame.id).Nodup) {left right : Frame P}
    (hleft : left ∈ order) (hright : right ∈ order) (heq : rank order left = rank order right) :
    left = right := by
  obtain ⟨i, hi⟩ := List.mem_iff_getElem?.mp hleft
  obtain ⟨j, hj⟩ := List.mem_iff_getElem?.mp hright
  rw [rank_getElem? h hi, rank_getElem? h hj] at heq
  rw [heq, hj] at hi
  exact (Option.some.inj hi).symm

theorem rank_lt_iff {frames : List (Frame P)} (h : (frames.map Frame.id).Nodup)
    {left right : Frame P} (hleft : left ∈ frames) (hright : right ∈ frames) :
    rank (captureOrder frames) left < rank (captureOrder frames) right ↔
      captureKey left < captureKey right := by
  have hnodup := nodup_captureOrder h
  obtain ⟨i, hi⟩ := List.mem_iff_getElem?.mp (mem_captureOrder.mpr hleft)
  obtain ⟨j, hj⟩ := List.mem_iff_getElem?.mp (mem_captureOrder.mpr hright)
  rw [rank_getElem? hnodup hi, rank_getElem? hnodup hj]
  obtain ⟨hilt, rfl⟩ := List.getElem?_eq_some_iff.mp hi
  obtain ⟨hjlt, rfl⟩ := List.getElem?_eq_some_iff.mp hj
  have hsorted := List.pairwise_iff_getElem.mp (pairwise_captureOrder h)
  constructor
  · exact hsorted i j hilt hjlt
  · intro hlt
    rcases Nat.lt_trichotomy i j with hij | rfl | hji
    · exact hij
    · exact absurd hlt (lt_irrefl _)
    · exact absurd hlt (hsorted j i hjlt hilt hji).asymm

/-! ## The sessions of a regroup -/

theorem mem_groupFrames {frames : List (Frame P)} {standing : List (StandingSession P)}
    {margins : FramingMargins P} {session : SessionCandidate P} :
    session ∈ groupFrames S frames standing margins ↔
      ∃ key ∈ frames.map Frame.key,
        session ∈ (bucketOf frames key).sessions S standing margins := by
  simp [groupFrames, buckets]

theorem mem_sessions {bucket : Bucket P} {standing : List (StandingSession P)}
    {margins : FramingMargins P} {session : SessionCandidate P} :
    session ∈ bucket.sessions S standing margins ↔
      ∃ split ∈ bucket.splits S standing margins, candidate bucket split = session := by
  simp [Bucket.sessions]

end PlateVault
