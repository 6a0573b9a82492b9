import PlateVault.Grouping.Partition

/-!
# Splits with nothing standing

Where no session stands, every framing opened at the margins. A light that joined one lies within
them and nearest to its anchor among the anchors of that moment, and an anchor lay outside the
limits of all of them. "Of that moment" is "of lower rank": frames are placed in capture order, and
a framing is anchored in its anchor's own turn.
-/

namespace PlateVault

variable {P : Platform} {S : Sky P}

/-! ## The laws -/

def Assignment.IsAnchor (state : Assignment P) (frame : Frame P) : Prop :=
  ∃ framing ∈ state.framings, framing.anchor = some frame

/-- `member` lies within the limits of `anchor`, and no anchor of lower rank than its own that
admits it is nearer. -/
def NearestTo (S : Sky P) (rank : Frame P → Nat) (limits : SplitLimits P)
    (anchors : Frame P → Prop) (anchor member : Frame P) : Prop :=
  ∃ offset, (Evidence.of S anchor).offset S (Evidence.of S member) limits = some offset ∧
    ∀ other, anchors other → rank other < rank member → ∀ otherOffset,
      (Evidence.of S other).offset S (Evidence.of S member) limits = some otherOffset →
        toLex (offset.key, rank anchor) ≤ toLex (otherOffset.key, rank other)

/-- No anchor of lower rank admits `anchor`. -/
def OutsideAll (S : Sky P) (rank : Frame P → Nat) (limits : SplitLimits P)
    (anchors : Frame P → Prop) (anchor : Frame P) : Prop :=
  ∀ other, anchors other → rank other < rank anchor →
    (Evidence.of S other).offset S (Evidence.of S anchor) limits = none

/-- What holds of a framing where nothing stands: it holds placed frames at the margins, its
unlabelled members have pointing, and its anchor is the nearest to each of them. -/
structure Framing.Laws (S : Sky P) (rank : Frame P → Nat) (limits : SplitLimits P)
    (anchors : Frame P → Prop) (placed : List (Frame P)) (framing : Framing P) : Prop where
  members_placed : ∀ member ∈ framing.members, member ∈ placed
  at_limits : framing.limits = limits
  members_pointed : ∀ member ∈ framing.members, framingLabel member.metadata = none →
    pointed S member = true
  nearest : ∀ anchor, framing.anchor = some anchor → ∀ member ∈ framing.members,
    framingLabel member.metadata = none → member ≠ anchor →
      NearestTo S rank limits anchors anchor member

structure Fresh (S : Sky P) (rank : Frame P → Nat) (margins : FramingMargins P)
    (state : Assignment P) (placed : List (Frame P)) : Prop where
  sound : state.Sound S
  laws : ∀ framing ∈ state.framings,
    framing.Laws S rank margins.split state.IsAnchor placed
  outside : ∀ anchor, state.IsAnchor anchor → framingLabel anchor.metadata = none →
    OutsideAll S rank margins.split state.IsAnchor anchor

section Step

variable {rank : Frame P → Nat} {margins : FramingMargins P} {state state' : Assignment P}
  {frame : Frame P} {placed : List (Frame P)}

theorem Placed.isAnchor_or (h : Placed S rank margins state frame state') {other : Frame P}
    (hother : state'.IsAnchor other) : state.IsAnchor other ∨ other = frame ∧
      (framingLabel frame.metadata = none →
        ∀ framing ∈ state.framings, candidateOffset S rank frame framing = none) := by
  obtain ⟨framing, hframing, hanchor⟩ := hother
  cases h with
  | @joinLabelled _ _ old _ hframe _ hsplit =>
    rcases List.mem_append.mp hframing with hmem | hmem
    · exact .inl ⟨framing, by simp [hsplit, hmem], hanchor⟩
    · rcases List.mem_cons.mp hmem with rfl | hmem
      · simp only [Framing.joinLabelled, Option.or_eq_some_iff] at hanchor
        rcases hanchor with hanchor | ⟨-, hanchor⟩
        · exact .inl ⟨old, by simp [hsplit], hanchor⟩
        · split at hanchor
          · cases hanchor
            exact .inr ⟨rfl, by simp [hframe]⟩
          · cases hanchor
      · exact .inl ⟨framing, by simp [hsplit, hmem], hanchor⟩
  | newLabelled hframe =>
    rcases List.mem_append.mp hframing with hmem | hmem
    · exact .inl ⟨framing, hmem, hanchor⟩
    · rw [List.mem_singleton.mp hmem] at hanchor
      simp only at hanchor
      split at hanchor
      · cases hanchor
        exact .inr ⟨rfl, by simp [hframe]⟩
      · cases hanchor
  | @join _ old _ _ _ _ hsplit =>
    rcases List.mem_append.mp hframing with hmem | hmem
    · exact .inl ⟨framing, by simp [hsplit, hmem], hanchor⟩
    · rcases List.mem_cons.mp hmem with rfl | hmem
      · exact .inl ⟨old, by simp [hsplit], hanchor⟩
      · exact .inl ⟨framing, by simp [hsplit, hmem], hanchor⟩
  | newAnchor _ _ hnone =>
    rcases List.mem_append.mp hframing with hmem | hmem
    · exact .inl ⟨framing, hmem, hanchor⟩
    · rw [List.mem_singleton.mp hmem] at hanchor
      cases hanchor
      exact .inr ⟨rfl, fun _ => hnone⟩
  | unframed => exact .inl ⟨framing, hframing, hanchor⟩

theorem Placed.isAnchor (h : Placed S rank margins state frame state') {other : Frame P}
    (hother : state'.IsAnchor other) : state.IsAnchor other ∨ other = frame :=
  (h.isAnchor_or hother).imp_right And.left

theorem NearestTo.later {limits : SplitLimits P} {anchors anchors' : Frame P → Prop}
    {anchor member : Frame P} (h : NearestTo S rank limits anchors anchor member)
    (hanchors : ∀ other, anchors' other → anchors other ∨ rank member < rank other) :
    NearestTo S rank limits anchors' anchor member := by
  obtain ⟨offset, hoffset, hleast⟩ := h
  refine ⟨offset, hoffset, fun other hother hrank => ?_⟩
  rcases hanchors other hother with hother | hlater
  · exact hleast other hother hrank
  · omega

theorem OutsideAll.later {limits : SplitLimits P} {anchors anchors' : Frame P → Prop}
    {anchor : Frame P} (h : OutsideAll S rank limits anchors anchor)
    (hanchors : ∀ other, anchors' other → anchors other ∨ rank anchor ≤ rank other) :
    OutsideAll S rank limits anchors' anchor := by
  intro other hother hrank
  rcases hanchors other hother with hother | hlater
  · exact h other hother hrank
  · omega

theorem Fresh.empty : Fresh S rank margins { framings := [], unframed := [] } [] where
  sound := .empty
  laws := by simp
  outside := by simp [Assignment.IsAnchor]

theorem Framing.Laws.later {limits : SplitLimits P} {framing : Framing P}
    (h : framing.Laws S rank limits state.IsAnchor placed)
    (hrank : ∀ other ∈ placed, rank other < rank frame)
    (hstep : Placed S rank margins state frame state') :
    framing.Laws S rank limits state'.IsAnchor (placed ++ [frame]) where
  members_placed member hmember := List.mem_append_left _ (h.members_placed member hmember)
  at_limits := h.at_limits
  members_pointed := h.members_pointed
  nearest anchor hanchor member hmember hlabel hne :=
    (h.nearest anchor hanchor member hmember hlabel hne).later fun other hother =>
      (hstep.isAnchor hother).imp_right fun heq : other = frame => heq ▸ hrank member (h.members_placed member hmember)

theorem Framing.Laws.opened {limits : SplitLimits P} {anchors : Frame P → Prop}
    {label : Option Text} {anchor : Option (Frame P)}
    (hpointed : framingLabel frame.metadata = none → pointed S frame = true)
    (hanchor : ∀ other, anchor = some other → other = frame) :
    Framing.Laws S rank limits anchors (placed ++ [frame])
      { label, anchor, members := [frame], limits } where
  members_placed member hmember := List.mem_append_right _ hmember
  at_limits := rfl
  members_pointed member hmember hlabel := by
    rw [List.mem_singleton.mp hmember] at hlabel ⊢
    exact hpointed hlabel
  nearest other hother member hmember _ hne :=
    absurd ((List.mem_singleton.mp hmember).trans (hanchor other hother).symm) hne

theorem Framing.Laws.joinLabelled {limits : SplitLimits P} {framing : Framing P} {label : Text}
    (h : framing.Laws S rank limits state.IsAnchor placed) (hsound : framing.Sound S)
    (hrank : ∀ other ∈ placed, rank other < rank frame)
    (hstep : Placed S rank margins state frame state')
    (hframe : framingLabel frame.metadata = some label) :
    (framing.joinLabelled S frame).Laws S rank limits state'.IsAnchor (placed ++ [frame]) := by
  have hunlabelled : ∀ member ∈ framing.members ++ [frame], framingLabel member.metadata = none →
      member ∈ framing.members := by
    intro member hmember hlabel
    rcases List.mem_append.mp hmember with hmember | hmember
    · exact hmember
    · rw [List.mem_singleton.mp hmember, hframe] at hlabel
      cases hlabel
  refine ⟨fun member hmember => ?_, h.at_limits, fun member hmember hlabel =>
    h.members_pointed member (hunlabelled member hmember hlabel) hlabel, ?_⟩
  · exact (List.mem_append.mp hmember).elim (fun hmember =>
      List.mem_append_left _ (h.members_placed member hmember)) (List.mem_append_right _)
  · intro anchor hanchor member hmember hlabel hne
    have hmember := hunlabelled member hmember hlabel
    cases hold : framing.anchor with
    | some old =>
      simp only [Framing.joinLabelled, hold, Option.some_or, Option.some.injEq] at hanchor
      exact (h.later hrank hstep).nearest anchor (hanchor ▸ hold) member hmember hlabel hne
    | none =>
      -- without an anchor no member has pointing, but an unlabelled one has
      have hpointed := h.members_pointed member hmember hlabel
      rw [(hsound.unanchored hold).2.1 member hmember] at hpointed
      cases hpointed

theorem Fresh.candidateOffset (h : Fresh S rank margins state placed) {framing : Framing P}
    (hframing : framing ∈ state.framings) {anchor : Frame P} (hanchor : framing.anchor = some anchor)
    (frame : Frame P) :
    PlateVault.candidateOffset S rank frame framing =
      ((Evidence.of S anchor).offset S (Evidence.of S frame) margins.split).map fun offset =>
        (offset, rank anchor) := by
  simp only [PlateVault.candidateOffset, hanchor, (h.laws framing hframing).at_limits,
    Option.bind_eq_bind, Option.bind_some]
  cases (Evidence.of S anchor).offset S (Evidence.of S frame) margins.split <;> rfl

theorem Fresh.nearest (h : Fresh S rank margins state placed)
    (hstep : Placed S rank margins state frame state') {framing : Framing P}
    (hframing : framing ∈ state.framings) {found : Offset P × Nat}
    (hfound : PlateVault.candidateOffset S rank frame framing = some found)
    (hleast : ∀ other ∈ state.framings, ∀ otherFound,
      PlateVault.candidateOffset S rank frame other = some otherFound →
        toLex (found.1.key, found.2) ≤ toLex (otherFound.1.key, otherFound.2))
    {anchor : Frame P} (hanchor : framing.anchor = some anchor) :
    NearestTo S rank margins.split state'.IsAnchor anchor frame := by
  rw [h.candidateOffset hframing hanchor, Option.map_eq_some_iff] at hfound
  obtain ⟨offset, hoffset, rfl⟩ := hfound
  refine ⟨offset, hoffset, fun other hother hrank otherOffset hotherOffset => ?_⟩
  rcases hstep.isAnchor hother with ⟨otherFraming, hotherFraming, hotherAnchor⟩ | rfl
  · refine hleast otherFraming hotherFraming (otherOffset, rank other) ?_
    rw [h.candidateOffset hotherFraming hotherAnchor, hotherOffset]
    rfl
  · exact absurd hrank (lt_irrefl _)

theorem Fresh.laws_place (h : Fresh S rank margins state placed)
    (hrank : ∀ other ∈ placed, rank other < rank frame)
    (hstep : Placed S rank margins state frame state') :
    ∀ framing ∈ state'.framings,
      framing.Laws S rank margins.split state'.IsAnchor (placed ++ [frame]) := by
  have hold : ∀ framing ∈ state.framings,
      framing.Laws S rank margins.split state'.IsAnchor (placed ++ [frame]) :=
    fun framing hframing => (h.laws framing hframing).later hrank hstep
  intro framing hframing
  cases id hstep with
  | @joinLabelled _ _ old _ hframe _ hsplit =>
    have hmem : old ∈ state.framings := by simp [hsplit]
    rcases List.mem_append.mp hframing with hfront | hback
    · exact hold framing (by simp [hsplit, hfront])
    · rcases List.mem_cons.mp hback with rfl | hback
      · exact (h.laws old hmem).joinLabelled (h.sound.framing old hmem) hrank hstep hframe
      · exact hold framing (by simp [hsplit, hback])
  | newLabelled hframe =>
    rcases List.mem_append.mp hframing with hframing | hframing
    · exact hold framing hframing
    · rw [List.mem_singleton.mp hframing]
      refine .opened (by simp [hframe]) fun other hother => ?_
      split at hother
      · cases hother
        rfl
      · cases hother
  | @join _ old _ found hframe hpointed hsplit hfound hleast =>
    have hmem : old ∈ state.framings := by simp [hsplit]
    rcases List.mem_append.mp hframing with hfront | hback
    · exact hold framing (by simp [hsplit, hfront])
    · rcases List.mem_cons.mp hback with rfl | hback
      · have hlaws := hold old hmem
        refine ⟨?_, hlaws.at_limits, ?_, ?_⟩
        · intro member hmember
          exact (List.mem_append.mp hmember).elim (hlaws.members_placed member) (List.mem_append_right _)
        · intro member hmember hlabel
          rcases List.mem_append.mp hmember with hmember | hmember
          · exact hlaws.members_pointed member hmember hlabel
          · exact List.mem_singleton.mp hmember ▸ hpointed
        · intro anchor hanchor member hmember hlabel hne
          rcases List.mem_append.mp hmember with hmember | hmember
          · exact hlaws.nearest anchor hanchor member hmember hlabel hne
          · exact List.mem_singleton.mp hmember ▸ h.nearest hstep hmem hfound hleast hanchor
      · exact hold framing (by simp [hsplit, hback])
  | newAnchor _ hpointed =>
    rcases List.mem_append.mp hframing with hframing | hframing
    · exact hold framing hframing
    · rw [List.mem_singleton.mp hframing]
      exact .opened (fun _ => hpointed) fun other hother => (Option.some.inj hother).symm
  | unframed => exact hold framing hframing

theorem Fresh.outside_place (h : Fresh S rank margins state placed)
    (hrank : ∀ other ∈ placed, rank other < rank frame)
    (hstep : Placed S rank margins state frame state') (anchor : Frame P)
    (hanchor : state'.IsAnchor anchor) (hlabel : framingLabel anchor.metadata = none) :
    OutsideAll S rank margins.split state'.IsAnchor anchor := by
  have hbefore : ∀ other, state.IsAnchor other → rank other < rank frame := by
    rintro other ⟨framing, hframing, hother⟩
    exact hrank other ((h.laws framing hframing).members_placed other
      ((h.sound.framing framing hframing).anchor other hother).1)
  rcases hstep.isAnchor_or hanchor with hold | ⟨rfl, hnone⟩
  · exact (h.outside anchor hold hlabel).later fun other hother =>
      (hstep.isAnchor hother).imp_right fun heq : other = frame => heq ▸ (hbefore anchor hold).le
  · intro other hother hlt
    rcases hstep.isAnchor hother with ⟨framing, hframing, hadmits⟩ | rfl
    · have hoffset := hnone hlabel framing hframing
      rwa [h.candidateOffset hframing hadmits, Option.map_eq_none_iff] at hoffset
    · exact absurd hlt (lt_irrefl _)

theorem Fresh.place (h : Fresh S rank margins state placed)
    (hrank : ∀ other ∈ placed, rank other < rank frame)
    (hstep : Placed S rank margins state frame state') :
    Fresh S rank margins state' (placed ++ [frame]) :=
  ⟨hstep.sound h.sound, h.laws_place hrank hstep, h.outside_place hrank hstep⟩

end Step

theorem fresh_assigned {order : List (Frame P)} (hids : (order.map Frame.id).Nodup)
    (margins : FramingMargins P) :
    Fresh S (rank order) margins (assigned S order [] margins) order := by
  have hrun := foldl_place (S := S) (rank order) margins (fun _ _ _ _ hstate hrank hstep =>
    Fresh.place hstate hrank hstep) Fresh.empty (by simp) (pairwise_rank hids)
  simpa [assigned, seedAll] using hrun

end PlateVault
