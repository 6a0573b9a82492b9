import PlateVault.Grouping.Placement
import PlateVault.Lib.Partition

/-!
# Invariants of an assignment

Every placed frame is in one framing or with the unframed lights (`Assignment.blocks` is a
partition), each framing's anchor, label and members fit together (`Sound`), and a placement only
extends framings (`Extends`). Each is kept by one placement, and so by all of them.
-/

namespace PlateVault

variable {P : Platform} {S : Sky P}

/-! ## The partition -/

/-- The members of every framing, then the unframed lights. -/
def Assignment.blocks (state : Assignment P) : List (List (Frame P)) :=
  state.framings.map Framing.members ++ [state.unframed]

theorem Placed.isPartition {rank : Frame P → Nat} {margins : FramingMargins P}
    {state state' : Assignment P} {frame : Frame P} (h : Placed S rank margins state frame state')
    {placed : List (Frame P)} (hstate : IsPartition state.blocks placed) (hnew : frame ∉ placed) :
    IsPartition state'.blocks (placed ++ [frame]) := by
  have hdisjoint : List.Disjoint [frame] placed := by simpa using hnew
  cases h with
  | joinLabelled _ _ hsplit =>
    simp only [Assignment.blocks, hsplit, List.map_append, List.map_cons, List.append_assoc,
      List.cons_append] at hstate ⊢
    exact hstate.grow hdisjoint
  | newLabelled =>
    simpa [Assignment.blocks] using hstate.insert hdisjoint
  | join _ _ hsplit =>
    simp only [Assignment.blocks, hsplit, List.map_append, List.map_cons, List.append_assoc,
      List.cons_append] at hstate ⊢
    exact hstate.grow hdisjoint
  | newAnchor =>
    simpa [Assignment.blocks] using hstate.insert hdisjoint
  | unframed =>
    exact hstate.growLast hdisjoint

theorem foldl_place (rank : Frame P → Nat) (margins : FramingMargins P)
    {I : Assignment P → List (Frame P) → Prop} {Q : Frame P → Frame P → Prop}
    (hI : ∀ state placed frame state', I state placed → (∀ other ∈ placed, Q other frame) →
      Placed S rank margins state frame state' → I state' (placed ++ [frame]))
    {state : Assignment P} {placed frames : List (Frame P)} (hstate : I state placed)
    (hplaced : ∀ other ∈ placed, ∀ frame ∈ frames, Q other frame) (hframes : frames.Pairwise Q) :
    I (frames.foldl (place S rank margins) state) (placed ++ frames) := by
  induction frames generalizing state placed with
  | nil => simpa using hstate
  | cons frame frames ih =>
    obtain ⟨hframe, hframes⟩ := List.pairwise_cons.mp hframes
    have hstep := hI state placed frame _ hstate
      (fun other hother => hplaced other hother frame List.mem_cons_self)
      (place_placed rank margins state frame)
    have hnext : ∀ other ∈ placed ++ [frame], ∀ next ∈ frames, Q other next := by
      intro other hother next hnext
      rcases List.mem_append.mp hother with hother | hother
      · exact hplaced other hother next (List.mem_cons_of_mem _ hnext)
      · exact List.mem_singleton.mp hother ▸ hframe next hnext
    simpa using ih hstep hnext hframes

theorem isPartition_foldl (S : Sky P) (rank : Frame P → Nat) (margins : FramingMargins P)
    {state : Assignment P} {placed frames : List (Frame P)}
    (hstate : IsPartition state.blocks placed)
    (hplaced : ∀ other ∈ placed, ∀ frame ∈ frames, other ≠ frame) (hframes : frames.Nodup) :
    IsPartition (frames.foldl (place S rank margins) state).blocks (placed ++ frames) :=
  foldl_place rank margins (I := fun state placed => IsPartition state.blocks placed) (Q := (· ≠ ·))
    (fun _ _ frame _ hstate hne hplaced =>
      hplaced.isPartition hstate fun hmem => hne frame hmem rfl)
    hstate hplaced hframes

/-! ## The standing sessions -/

theorem seedAll_eq (rank : Frame P → Nat) (margins : FramingMargins P)
    (standing : List (Standing P)) :
    seedAll S rank margins standing = {
      framings := standing.filterMap (seeded S rank margins)
      unframed := (standing.filter fun session =>
        (seeded S rank margins session).isNone).flatMap Standing.members } := by
  induction standing using List.reverseRecOn with
  | nil => rfl
  | append_singleton standing session ih =>
    unfold seedAll at ih ⊢
    rw [List.foldl_append, ih, List.foldl_cons, List.foldl_nil]
    cases hseeded : seeded S rank margins session with
    | some framing => simp [hseeded]
    | none => simp [hseeded]

theorem seeded_members {rank : Frame P → Nat} {margins : FramingMargins P} {session : Standing P}
    {framing : Framing P} (h : seeded S rank margins session = some framing) :
    framing.members = session.members := by
  unfold seeded at h
  simp only at h
  split at h
  · cases h
  · cases h
    rfl

theorem isPartition_seedAll (S : Sky P) (rank : Frame P → Nat) (margins : FramingMargins P)
    {standing : List (Standing P)}
    (h : (standing.map Standing.members).Pairwise List.Disjoint) :
    IsPartition (seedAll S rank margins standing).blocks (standing.flatMap Standing.members) := by
  rw [seedAll_eq]
  induction standing using List.reverseRecOn with
  | nil => exact .nil
  | append_singleton standing session ih =>
    rw [List.map_append, List.pairwise_append] at h
    obtain ⟨hstanding, -, hsession⟩ := h
    have hdisjoint : session.members.Disjoint (standing.flatMap Standing.members) := by
      intro a ha hmem
      obtain ⟨other, hother, hmem⟩ := List.mem_flatMap.mp hmem
      exact hsession _ (List.mem_map_of_mem hother) _ (by simp) hmem ha
    have hpartition := ih hstanding
    cases hseeded : seeded S rank margins session with
    | some framing =>
      simpa [Assignment.blocks, hseeded, seeded_members hseeded] using hpartition.insert hdisjoint
    | none =>
      simpa [Assignment.blocks, hseeded] using hpartition.growLast hdisjoint

/-! ## What fits together in an assignment -/

/-- A framing's anchor is a member with pointing; without one no member has pointing and all carry
the framing's label; a labelled member's label is the framing's. -/
structure Framing.Sound (S : Sky P) (framing : Framing P) : Prop where
  anchor : ∀ anchor, framing.anchor = some anchor →
    anchor ∈ framing.members ∧ pointed S anchor = true
  unanchored : framing.anchor = none →
    (∃ label, framing.label = some label) ∧ (∀ member ∈ framing.members, pointed S member = false) ∧
      ∃ member ∈ framing.members, framingLabel member.metadata = framing.label
  labels : ∀ member ∈ framing.members, ∀ label, framingLabel member.metadata = some label →
    framing.label = some label

theorem Framing.Sound.nonempty {framing : Framing P} (h : framing.Sound S) :
    ∃ member, member ∈ framing.members := by
  cases hanchor : framing.anchor with
  | some anchor => exact ⟨anchor, (h.anchor anchor hanchor).1⟩
  | none =>
    obtain ⟨-, -, member, hmember, -⟩ := h.unanchored hanchor
    exact ⟨member, hmember⟩

/-- Sound framings with different labels, and lights with neither pointing nor a label. -/
structure Assignment.Sound (S : Sky P) (state : Assignment P) : Prop where
  framing : ∀ framing ∈ state.framings, framing.Sound S
  distinct : state.framings.Pairwise fun left right =>
    ∀ label, left.label = some label → right.label ≠ some label
  unframed : ∀ frame ∈ state.unframed,
    framingLabel frame.metadata = none ∧ pointed S frame = false

theorem Assignment.Sound.empty : Assignment.Sound S { framings := [], unframed := [] } :=
  ⟨by simp, by simp, by simp⟩

theorem Framing.Sound.joinLabelled {framing : Framing P} {frame : Frame P} {label : Text}
    (h : framing.Sound S) (hframe : framingLabel frame.metadata = some label)
    (hlabel : framing.label = some label) : (framing.joinLabelled S frame).Sound S where
  anchor := by
    intro anchor hanchor
    simp only [Framing.joinLabelled, Option.or_eq_some_iff] at hanchor
    rcases hanchor with hanchor | ⟨-, hanchor⟩
    · obtain ⟨hmem, hpointed⟩ := h.anchor anchor hanchor
      exact ⟨List.mem_append_left _ hmem, hpointed⟩
    · split at hanchor
      · next hpointed =>
        cases hanchor
        exact ⟨List.mem_append_right _ (List.mem_singleton.mpr rfl), hpointed⟩
      · cases hanchor
  unanchored := by
    intro hanchor
    simp only [Framing.joinLabelled, Option.or_eq_none_iff] at hanchor
    obtain ⟨hnone, hframePointed⟩ := hanchor
    obtain ⟨-, hmembers, -⟩ := h.unanchored hnone
    refine ⟨⟨label, hlabel⟩, fun member hmember => ?_, frame, by simp [Framing.joinLabelled], ?_⟩
    · rcases List.mem_append.mp hmember with hmember | hmember
      · exact hmembers member hmember
      · rw [List.mem_singleton.mp hmember]
        simpa using hframePointed
    · exact hframe.trans hlabel.symm
  labels := by
    intro member hmember other hother
    rcases List.mem_append.mp hmember with hmember | hmember
    · exact h.labels member hmember other hother
    · rw [List.mem_singleton.mp hmember, hframe] at hother
      exact hother ▸ hlabel

theorem Framing.Sound.join {framing : Framing P} {frame anchor : Frame P}
    (h : framing.Sound S) (hframe : framingLabel frame.metadata = none)
    (hanchor : framing.anchor = some anchor) : (framing.join frame).Sound S where
  anchor := by
    intro other hother
    obtain ⟨hmem, hpointed⟩ := h.anchor other hother
    exact ⟨List.mem_append_left _ hmem, hpointed⟩
  unanchored := by
    intro hnone
    rw [Framing.join, hanchor] at hnone
    cases hnone
  labels := by
    intro member hmember other hother
    rcases List.mem_append.mp hmember with hmember | hmember
    · exact h.labels member hmember other hother
    · rw [List.mem_singleton.mp hmember, hframe] at hother
      cases hother

theorem Assignment.Sound.change {state : Assignment P} {front back : List (Framing P)}
    {framing framing' : Framing P} (h : state.Sound S)
    (hsplit : state.framings = front ++ framing :: back) (hsound : framing'.Sound S)
    (hlabel : framing'.label = framing.label) :
    Assignment.Sound S { state with framings := front ++ framing' :: back } where
  framing := by
    intro other hother
    rcases List.mem_append.mp hother with hother | hother
    · exact h.framing other (by simp [hsplit, hother])
    · rcases List.mem_cons.mp hother with rfl | hother
      · exact hsound
      · exact h.framing other (by simp [hsplit, hother])
  distinct := by
    have hdistinct := h.distinct
    rw [hsplit, List.pairwise_append, List.pairwise_cons] at hdistinct
    obtain ⟨hfront, ⟨hframing, hback⟩, hcross⟩ := hdistinct
    refine List.pairwise_append.mpr ⟨hfront, List.pairwise_cons.mpr ⟨?_, hback⟩, ?_⟩
    · intro other hother label heq
      exact hframing other hother label (hlabel ▸ heq)
    · intro left hleft right hright label heq
      rcases List.mem_cons.mp hright with rfl | hright
      · exact hlabel ▸ hcross left hleft framing List.mem_cons_self label heq
      · exact hcross left hleft right (List.mem_cons_of_mem _ hright) label heq
  unframed := h.unframed

theorem Assignment.Sound.add {state : Assignment P} {framing : Framing P} (h : state.Sound S)
    (hsound : framing.Sound S)
    (hlabel : ∀ other ∈ state.framings, ∀ label, framing.label = some label →
      other.label ≠ some label) :
    Assignment.Sound S { state with framings := state.framings ++ [framing] } where
  framing := by
    intro other hother
    rcases List.mem_append.mp hother with hother | hother
    · exact h.framing other hother
    · exact List.mem_singleton.mp hother ▸ hsound
  distinct := by
    refine List.pairwise_append.mpr ⟨h.distinct, List.pairwise_singleton _ _, ?_⟩
    intro left hleft right hright label heq hright'
    rw [List.mem_singleton.mp hright] at hright'
    exact hlabel left hleft label hright' heq
  unframed := h.unframed

theorem anchor_of_candidateOffset {rank : Frame P → Nat} {frame : Frame P} {framing : Framing P}
    {found : Offset P × Nat} (h : candidateOffset S rank frame framing = some found) :
    ∃ anchor, framing.anchor = some anchor ∧
      (Evidence.of S anchor).offset S (Evidence.of S frame) framing.limits = some found.1 ∧
      found.2 = rank anchor := by
  simp only [candidateOffset, Option.bind_eq_bind, Option.bind_eq_some_iff] at h
  obtain ⟨anchor, hanchor, offset, hoffset, hfound⟩ := h
  cases hfound
  exact ⟨anchor, hanchor, hoffset, rfl⟩

theorem Framing.Sound.ofLabelled {frame : Frame P} {label : Text} (limits : SplitLimits P)
    (hframe : framingLabel frame.metadata = some label) :
    Framing.Sound S {
      label := some label
      anchor := if pointed S frame then some frame else none
      members := [frame]
      limits } where
  anchor := by
    intro anchor hanchor
    simp only at hanchor
    split at hanchor
    · next hpointed =>
      cases hanchor
      exact ⟨List.mem_singleton.mpr rfl, hpointed⟩
    · cases hanchor
  unanchored := by
    intro hanchor
    refine ⟨⟨label, rfl⟩, fun member hmember => ?_, frame, List.mem_singleton.mpr rfl, hframe⟩
    rw [List.mem_singleton.mp hmember]
    simpa using hanchor
  labels := by
    intro member hmember other hother
    rw [List.mem_singleton.mp hmember, hframe] at hother
    exact hother

theorem Framing.Sound.ofAnchor {frame : Frame P} (limits : SplitLimits P)
    (hframe : framingLabel frame.metadata = none) (hpointed : pointed S frame = true) :
    Framing.Sound S { label := none, anchor := some frame, members := [frame], limits } where
  anchor := by
    intro anchor hanchor
    cases hanchor
    exact ⟨List.mem_singleton.mpr rfl, hpointed⟩
  unanchored := by
    intro hanchor
    cases hanchor
  labels := by
    intro member hmember other hother
    rw [List.mem_singleton.mp hmember, hframe] at hother
    cases hother

theorem Placed.sound {rank : Frame P → Nat} {margins : FramingMargins P}
    {state state' : Assignment P} {frame : Frame P} (h : Placed S rank margins state frame state')
    (hstate : state.Sound S) : state'.Sound S := by
  cases h with
  | joinLabelled hframe hlabel hsplit =>
    have hsound := hstate.framing _ (hsplit ▸ List.mem_append_right _ List.mem_cons_self)
    exact hstate.change hsplit (hsound.joinLabelled hframe hlabel) rfl
  | newLabelled hframe hnone =>
    refine hstate.add (.ofLabelled _ hframe) fun other hother label heq => ?_
    cases heq
    exact hnone other hother
  | join hframe _ hsplit hfound _ =>
    have hsound := hstate.framing _ (hsplit ▸ List.mem_append_right _ List.mem_cons_self)
    obtain ⟨anchor, hanchor, -, -⟩ := anchor_of_candidateOffset hfound
    exact hstate.change hsplit (hsound.join hframe hanchor) rfl
  | newAnchor hframe hpointed _ =>
    refine hstate.add (.ofAnchor _ hframe hpointed) fun other _ label heq => ?_
    cases heq
  | unframed hframe hpointed =>
    refine ⟨hstate.framing, hstate.distinct, fun other hother => ?_⟩
    rcases List.mem_append.mp hother with hother | hother
    · exact hstate.unframed other hother
    · exact List.mem_singleton.mp hother ▸ ⟨hframe, hpointed⟩

/-! ## Placements only extend -/

/-- A framing keeps its label, its limits and its anchor, and takes only frames placed later than
those in `old`. -/
structure Framing.Extends (old : List (Frame P)) (framing framing' : Framing P) : Prop where
  label : framing'.label = framing.label
  limits : framing'.limits = framing.limits
  anchor : ∀ anchor, framing.anchor = some anchor → framing'.anchor = some anchor
  members : ∀ member ∈ framing.members, member ∈ framing'.members
  later : ∀ member ∈ framing'.members, member ∈ framing.members ∨ member ∉ old

theorem Framing.Extends.refl (old : List (Frame P)) (framing : Framing P) :
    Framing.Extends old framing framing :=
  ⟨rfl, rfl, fun _ h => h, fun _ h => h, fun _ h => .inl h⟩

theorem Framing.Extends.trans {old : List (Frame P)} {a b c : Framing P}
    (hab : Framing.Extends old a b) (hbc : Framing.Extends old b c) : Framing.Extends old a c where
  label := hbc.label.trans hab.label
  limits := hbc.limits.trans hab.limits
  anchor anchor h := hbc.anchor anchor (hab.anchor anchor h)
  members member h := hbc.members member (hab.members member h)
  later member h := (hbc.later member h).elim (hab.later member) .inr

/-- Every framing is extended, and the unframed lights stay unframed. -/
structure Assignment.Extends (old : List (Frame P)) (state state' : Assignment P) : Prop where
  framing : ∀ framing ∈ state.framings, ∃ framing' ∈ state'.framings,
    Framing.Extends old framing framing'
  unframed : ∀ frame ∈ state.unframed, frame ∈ state'.unframed
  later : ∀ frame ∈ state'.unframed, frame ∈ state.unframed ∨ frame ∉ old

theorem Assignment.Extends.refl (old : List (Frame P)) (state : Assignment P) :
    Assignment.Extends old state state :=
  ⟨fun framing h => ⟨framing, h, .refl _ _⟩, fun _ h => h, fun _ h => .inl h⟩

theorem Assignment.Extends.trans {old : List (Frame P)} {a b c : Assignment P}
    (hab : Assignment.Extends old a b) (hbc : Assignment.Extends old b c) :
    Assignment.Extends old a c where
  framing framing h := by
    obtain ⟨framing', h', hext⟩ := hab.framing framing h
    obtain ⟨framing'', h'', hext'⟩ := hbc.framing framing' h'
    exact ⟨framing'', h'', hext.trans hext'⟩
  unframed frame h := hbc.unframed frame (hab.unframed frame h)
  later frame h := (hbc.later frame h).elim (hab.later frame) .inr

theorem Assignment.Extends.congr {old old' : List (Frame P)} {state state' : Assignment P}
    (h : Assignment.Extends old state state') (hmem : ∀ frame, frame ∈ old' ↔ frame ∈ old) :
    Assignment.Extends old' state state' where
  framing framing hframing := by
    obtain ⟨framing', hframing', hext⟩ := h.framing framing hframing
    exact ⟨framing', hframing', hext.label, hext.limits, hext.anchor, hext.members,
      fun member hmember => (hext.later member hmember).imp_right (mt (hmem member).mp)⟩
  unframed := h.unframed
  later frame hframe := (h.later frame hframe).imp_right (mt (hmem frame).mp)

theorem Assignment.Extends.change {old : List (Frame P)} {state : Assignment P}
    {front back : List (Framing P)} {framing framing' : Framing P}
    (hsplit : state.framings = front ++ framing :: back)
    (hext : Framing.Extends old framing framing') :
    Assignment.Extends old state { state with framings := front ++ framing' :: back } where
  framing other hother := by
    rw [hsplit] at hother
    rcases List.mem_append.mp hother with hother | hother
    · exact ⟨other, List.mem_append_left _ hother, .refl _ _⟩
    · rcases List.mem_cons.mp hother with rfl | hother
      · exact ⟨framing', by simp, hext⟩
      · exact ⟨other, by simp [hother], .refl _ _⟩
  unframed _ h := h
  later _ h := .inl h

theorem Assignment.Extends.add {old : List (Frame P)} {state : Assignment P}
    (framing : Framing P) :
    Assignment.Extends old state { state with framings := state.framings ++ [framing] } where
  framing other hother := ⟨other, List.mem_append_left _ hother, .refl _ _⟩
  unframed _ h := h
  later _ h := .inl h

theorem Placed.extends {rank : Frame P → Nat} {margins : FramingMargins P}
    {state state' : Assignment P} {frame : Frame P} {old : List (Frame P)}
    (h : Placed S rank margins state frame state') (hframe : frame ∉ old) :
    Assignment.Extends old state state' := by
  have hlater : ∀ members : List (Frame P), ∀ member ∈ members ++ [frame],
      member ∈ members ∨ member ∉ old := by
    intro members member hmember
    rcases List.mem_append.mp hmember with hmember | hmember
    · exact .inl hmember
    · exact .inr (List.mem_singleton.mp hmember ▸ hframe)
  cases h with
  | joinLabelled _ _ hsplit =>
    refine .change hsplit ⟨rfl, rfl, fun anchor h => ?_, fun member h => ?_, hlater _⟩
    · simp [Framing.joinLabelled, h]
    · exact List.mem_append_left _ h
  | newLabelled => exact .add _
  | join _ _ hsplit =>
    exact .change hsplit ⟨rfl, rfl, fun _ h => h, fun _ h => List.mem_append_left _ h, hlater _⟩
  | newAnchor => exact .add _
  | unframed =>
    exact ⟨fun framing h => ⟨framing, h, .refl _ _⟩, fun _ h => List.mem_append_left _ h, hlater _⟩

theorem sound_foldl (S : Sky P) (rank : Frame P → Nat) (margins : FramingMargins P)
    {state : Assignment P}
    {placed frames : List (Frame P)} (hstate : state.Sound S)
    (hplaced : ∀ other ∈ placed, ∀ frame ∈ frames, other ≠ frame) (hframes : frames.Nodup) :
    (frames.foldl (place S rank margins) state).Sound S ∧
      Assignment.Extends placed state (frames.foldl (place S rank margins) state) := by
  have hrun := foldl_place (S := S) rank margins
    (I := fun state' seen => state'.Sound S ∧ Assignment.Extends placed state state' ∧
      placed ⊆ seen) (Q := (· ≠ ·)) ?_
    ⟨hstate, .refl _ _, fun _ h => h⟩ hplaced hframes
  · exact ⟨hrun.1, hrun.2.1⟩
  · rintro state' seen frame next ⟨hsound, hextends, hsub⟩ hne hstep
    have hnew : frame ∉ placed := fun hmem => hne frame (hsub hmem) rfl
    exact ⟨hstep.sound hsound, hextends.trans (hstep.extends hnew),
      fun _ h => List.mem_append_left _ (hsub h)⟩

end PlateVault
