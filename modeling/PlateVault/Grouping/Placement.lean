import PlateVault.Grouping.Framing

/-!
# Placing one frame

`nearest` finds a framing of least offset and rank among those whose limits admit the frame, or
none where no limits do. `Placed` says everything one placement can do to the framings, with the
framing it changes split out of the list.
-/

namespace PlateVault

variable {P : Platform} {S : Sky P}

/-! ## The nearest framing -/

/-- How a found offset is compared: by the offset, then by the anchor's rank. -/
def foundKey (found : Offset P × Nat × Nat) : (P.F64 ×ₗ WithTop P.F64) ×ₗ Nat :=
  toLex (found.1.key, found.2.1)

theorem nearer_eq_argAux (best : Option (Offset P × Nat × Nat)) (found : Offset P × Nat × Nat) :
    nearer best found = List.argAux (fun b c => foundKey b < foundKey c) best found := by
  cases best with
  | none => rfl
  | some best =>
    obtain ⟨nearest, earliest, index⟩ := best
    obtain ⟨offset, anchor, position⟩ := found
    have hlt : (offset.nearerThan nearest || (!nearest.nearerThan offset && anchor < earliest)) =
        true ↔ foundKey (offset, anchor, position) < foundKey (nearest, earliest, index) := by
      simp only [Offset.nearerThan, foundKey, Prod.Lex.toLex_lt_toLex, Bool.or_eq_true,
        decide_eq_true_eq, Bool.and_eq_true, Bool.not_eq_true', decide_eq_false_iff_not, not_lt]
      constructor
      · rintro (h | ⟨h, hanchor⟩)
        · exact .inl h
        · rcases h.lt_or_eq with h | h
          · exact .inl h
          · exact .inr ⟨h, hanchor⟩
      · rintro (h | ⟨h, hanchor⟩)
        · exact .inl h
        · exact .inr ⟨h.le, hanchor⟩
    simp only [nearer, List.argAux, hlt]

/-- What the search looks through: the admitting framings' offsets, ranks and positions. -/
def foundOffsets (S : Sky P) (rank : Frame P → Nat) (framings : List (Framing P))
    (frame : Frame P) : List (Offset P × Nat × Nat) :=
  framings.zipIdx.filterMap fun entry =>
    (candidateOffset S rank frame entry.1).map fun found => (found.1, found.2, entry.2)

theorem nearest_eq_argmin (rank : Frame P → Nat) (framings : List (Framing P)) (frame : Frame P) :
    nearest S rank framings frame =
      ((foundOffsets S rank framings frame).argmin foundKey).map fun found => found.2.2 := by
  have hfold : framings.zipIdx.foldl (searchStep S rank frame) none =
      (foundOffsets S rank framings frame).argmin foundKey := by
    rw [List.argmin, foundOffsets, List.foldl_filterMap]
    congr 1
    funext best entry
    unfold searchStep
    cases candidateOffset S rank frame entry.1 with
    | none => rfl
    | some found => exact nearer_eq_argAux ..
  rw [nearest, hfold]

theorem mem_foundOffsets {rank : Frame P → Nat} {framings : List (Framing P)} {frame : Frame P}
    {offset : Offset P} {anchor index : Nat} :
    (offset, anchor, index) ∈ foundOffsets S rank framings frame ↔
      ∃ framing, framings[index]? = some framing ∧
        candidateOffset S rank frame framing = some (offset, anchor) := by
  simp only [foundOffsets, List.mem_filterMap, Prod.exists, List.mk_mem_zipIdx_iff_getElem?,
    Option.map_eq_some_iff, Prod.mk.injEq]
  constructor
  · rintro ⟨framing, i, hi, found, rank, hfound, rfl, rfl, rfl⟩
    exact ⟨framing, hi, hfound⟩
  · rintro ⟨framing, hi, hfound⟩
    exact ⟨framing, index, hi, offset, anchor, hfound, rfl, rfl, rfl⟩

theorem nearest_eq_none {rank : Frame P → Nat} {framings : List (Framing P)} {frame : Frame P}
    (h : nearest S rank framings frame = none) :
    ∀ framing ∈ framings, candidateOffset S rank frame framing = none := by
  rw [nearest_eq_argmin, Option.map_eq_none_iff, List.argmin_eq_none] at h
  intro framing hframing
  cases hcandidate : candidateOffset S rank frame framing with
  | none => rfl
  | some found =>
    obtain ⟨index, hindex⟩ := List.mem_iff_getElem?.mp hframing
    have hmem := mem_foundOffsets.mpr ⟨framing, hindex, hcandidate⟩
    rw [h] at hmem
    cases hmem

theorem nearest_eq_some {rank : Frame P → Nat} {framings : List (Framing P)} {frame : Frame P}
    {index : Nat} (h : nearest S rank framings frame = some index) :
    ∃ framing found, framings[index]? = some framing ∧
      candidateOffset S rank frame framing = some found ∧
      ∀ other ∈ framings, ∀ otherFound, candidateOffset S rank frame other = some otherFound →
        toLex (found.1.key, found.2) ≤ toLex (otherFound.1.key, otherFound.2) := by
  rw [nearest_eq_argmin, Option.map_eq_some_iff] at h
  obtain ⟨⟨offset, anchor, _⟩, hargmin, rfl⟩ := h
  obtain ⟨framing, hindex, hcandidate⟩ := mem_foundOffsets.mp (List.argmin_mem hargmin)
  refine ⟨framing, (offset, anchor), hindex, hcandidate, fun other hother otherFound hfound => ?_⟩
  obtain ⟨otherIndex, hotherIndex⟩ := List.mem_iff_getElem?.mp hother
  have hmem := mem_foundOffsets.mpr ⟨other, hotherIndex, hfound⟩
  have hle : ¬ foundKey (otherFound.1, otherFound.2, otherIndex) < foundKey _ :=
    List.not_lt_of_mem_argmin hmem hargmin
  exact not_lt.mp hle

/-! ## One placement -/

inductive Placed (S : Sky P) (rank : Frame P → Nat) (margins : FramingMargins P)
    (state : Assignment P) (frame : Frame P) : Assignment P → Prop
  | joinLabelled {label front framing back} :
      framingLabel frame.metadata = some label → framing.label = some label →
      state.framings = front ++ framing :: back →
      Placed S rank margins state frame
        { state with framings := front ++ framing.joinLabelled S frame :: back }
  | newLabelled {label} :
      framingLabel frame.metadata = some label →
      (∀ framing ∈ state.framings, framing.label ≠ some label) →
      Placed S rank margins state frame { state with
        framings := state.framings ++ [{
          label := some label, anchor := if pointed S frame then some frame else none,
          members := [frame], limits := margins.split }] }
  | join {front framing back found} :
      framingLabel frame.metadata = none → pointed S frame = true →
      state.framings = front ++ framing :: back →
      candidateOffset S rank frame framing = some found →
      (∀ other ∈ state.framings, ∀ otherFound,
        candidateOffset S rank frame other = some otherFound →
          toLex (found.1.key, found.2) ≤ toLex (otherFound.1.key, otherFound.2)) →
      Placed S rank margins state frame
        { state with framings := front ++ framing.join frame :: back }
  | newAnchor :
      framingLabel frame.metadata = none → pointed S frame = true →
      (∀ framing ∈ state.framings, candidateOffset S rank frame framing = none) →
      Placed S rank margins state frame { state with
        framings := state.framings ++ [{
          label := none, anchor := some frame, members := [frame], limits := margins.split }] }
  | unframed :
      framingLabel frame.metadata = none → pointed S frame = false →
      Placed S rank margins state frame { state with unframed := state.unframed ++ [frame] }

theorem place_placed (rank : Frame P → Nat) (margins : FramingMargins P) (state : Assignment P)
    (frame : Frame P) : Placed S rank margins state frame (place S rank margins state frame) := by
  unfold place
  split
  · next label hlabel =>
    split
    · next index hindex =>
      obtain ⟨hlt, hfound, -⟩ := List.findIdx?_eq_some_iff_getElem.mp hindex
      obtain ⟨front, back, hsplit, rfl⟩ :=
        Ordered.split_of_getElem? (List.getElem?_eq_getElem hlt)
      have hmodify : state.framings.modify front.length (Framing.joinLabelled S frame) = _ :=
        (congrArg (fun l => List.modify l front.length (Framing.joinLabelled S frame)) hsplit).trans
          (Ordered.modify_split ..)
      rw [hmodify]
      exact .joinLabelled hlabel (of_decide_eq_true hfound) hsplit
    · next hnone =>
      refine .newLabelled hlabel fun framing hframing heq => ?_
      have := List.findIdx?_eq_none_iff.mp hnone framing hframing
      simp [heq] at this
  · next hlabel =>
    split
    · next hpointed =>
      split
      · next index hindex =>
        obtain ⟨framing, found, hget, hfound, hleast⟩ := nearest_eq_some hindex
        obtain ⟨front, back, hsplit, rfl⟩ := Ordered.split_of_getElem? hget
        have hmodify : state.framings.modify front.length (Framing.join frame) = _ :=
          (congrArg (fun l => List.modify l front.length (Framing.join frame)) hsplit).trans
            (Ordered.modify_split ..)
        rw [hmodify]
        exact .join hlabel hpointed hsplit hfound hleast
      · next hnone => exact .newAnchor hlabel hpointed (nearest_eq_none hnone)
    · next hpointed => exact .unframed hlabel (by simpa using hpointed)

end PlateVault
