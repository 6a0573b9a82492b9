import PlateVault.Grouping.Laws

/-!
# Splits merged by a label

The lights of some splits are given one label, which no light had. The greedy split then forms the
others as before: the merged framing keeps one of the anchors it replaces, so that a frame outside
the merge finds its own framing still nearest, and finds none where it found none.
-/

namespace PlateVault

variable {P : Platform} {S : Sky P}

/-! ## Giving a label -/

/-- A frame with the label, where its id is `chosen`. -/
def relabel (chosen : Uuid → Bool) (label : Text) (frame : Frame P) : Frame P :=
  if chosen frame.id then
    { frame with metadata := { frame.metadata with framingLabel := some label } }
  else frame

def ReadsAs (label : Text) : Prop := trim label = label ∧ label ≠ []

section

variable {chosen : Uuid → Bool} {label : Text} {frame : Frame P}

@[simp] theorem relabel_id : (relabel chosen label frame).id = frame.id := by
  unfold relabel
  split <;> rfl

theorem relabel_of_not (h : chosen frame.id = false) : relabel chosen label frame = frame :=
  if_neg (by simp [h])

@[simp] theorem relabel_key : (relabel chosen label frame).key = frame.key := by
  unfold relabel
  split <;> rfl

@[simp] theorem captureKey_relabel : captureKey (relabel chosen label frame) = captureKey frame := by
  unfold relabel
  split <;> rfl

@[simp] theorem pointed_relabel : pointed S (relabel chosen label frame) = pointed S frame := by
  unfold relabel
  split <;> rfl

theorem offset_relabel {anchor : Frame P} {limits : SplitLimits P} :
    (Evidence.of S (relabel chosen label anchor)).offset S (Evidence.of S frame) limits =
      (Evidence.of S anchor).offset S (Evidence.of S frame) limits := by
  unfold relabel
  split <;> rfl

theorem framingLabel_relabel (hlabel : ReadsAs label) (h : chosen frame.id = true) :
    framingLabel (relabel chosen label frame).metadata = some label := by
  have hempty : label.isEmpty = false := by simpa using hlabel.2
  simp [relabel, h, framingLabel, hlabel.1, hempty]

end

/-! ## Framings told apart -/

/-- An assignment where nothing stands, of frames of `order`. -/
structure Laid (S : Sky P) (order : List (Frame P)) (margins : FramingMargins P)
    (state : Assignment P) (placed : List (Frame P)) : Prop where
  fresh : Fresh S (rank order) margins state placed
  parts : IsPartition state.blocks placed
  inside : ∀ frame ∈ placed, frame ∈ order

namespace Laid

variable {order placed : List (Frame P)} {margins : FramingMargins P} {state : Assignment P}
  {left right : Framing P}

theorem disjoint (h : Laid S order margins state placed) :
    state.framings.Pairwise fun left right => left.members.Disjoint right.members :=
  List.pairwise_map.mp (List.pairwise_append.mp h.parts.disjoint).1

theorem member_placed (h : Laid S order margins state placed) (hleft : left ∈ state.framings)
    {frame : Frame P} (hframe : frame ∈ left.members) : frame ∈ placed :=
  h.parts.mem (List.mem_append_left _ (List.mem_map_of_mem hleft)) hframe

theorem eq_of_member (h : Laid S order margins state placed) (hleft : left ∈ state.framings)
    (hright : right ∈ state.framings) {frame : Frame P} (hframe : frame ∈ left.members)
    (hshared : frame ∈ right.members) : left = right := by
  have hsymm : Std.Symm fun left right : Framing P => left.members.Disjoint right.members :=
    ⟨fun _ _ hdisjoint => hdisjoint.symm⟩
  by_contra hne
  exact h.disjoint.forall hleft hright hne hframe hshared

theorem nodup (h : Laid S order margins state placed) : state.framings.Nodup := by
  refine List.Pairwise.imp_of_mem (fun {left right} hleft _ hdisjoint heq => ?_) h.disjoint
  subst heq
  obtain ⟨member, hmember⟩ := (h.fresh.sound.framing left hleft).nonempty
  exact hdisjoint hmember hmember

theorem eq_of_label (h : Laid S order margins state placed) (hleft : left ∈ state.framings)
    (hright : right ∈ state.framings) {label : Text} (hlabel : left.label = some label)
    (hshared : right.label = some label) : left = right := by
  have hsymm : Std.Symm fun left right : Framing P => ∀ label, left.label = some label →
      right.label ≠ some label := ⟨fun _ _ hdistinct label hright hleft => hdistinct label hleft hright⟩
  by_contra hne
  exact h.fresh.sound.distinct.forall hleft hright hne label hlabel hshared

theorem eq_of_rank (hids : (order.map Frame.id).Nodup) (h : Laid S order margins state placed)
    (hleft : left ∈ state.framings) (hright : right ∈ state.framings) {anchor other : Frame P}
    (hanchor : left.anchor = some anchor) (hother : right.anchor = some other)
    (hrank : rank order anchor = rank order other) : left = right := by
  have hmember := ((h.fresh.sound.framing left hleft).anchor anchor hanchor).1
  have hshared := ((h.fresh.sound.framing right hright).anchor other hother).1
  have heq : anchor = other := rank_inj hids (h.inside _ (h.member_placed hleft hmember))
    (h.inside _ (h.member_placed hright hshared)) hrank
  exact h.eq_of_member hleft hright hmember (heq ▸ hshared)

theorem eq_of_least (hids : (order.map Frame.id).Nodup) (h : Laid S order margins state placed)
    (hleft : left ∈ state.framings) (hright : right ∈ state.framings) {frame : Frame P}
    {found other : Offset P × Nat} (hfound : candidateOffset S (rank order) frame left = some found)
    (hother : candidateOffset S (rank order) frame right = some other)
    (hle : toLex (found.1.key, found.2) ≤ toLex (other.1.key, other.2))
    (hge : toLex (other.1.key, other.2) ≤ toLex (found.1.key, found.2)) : left = right := by
  obtain ⟨anchor, hanchor, -, hrank⟩ := anchor_of_candidateOffset hfound
  obtain ⟨anchor', hanchor', -, hrank'⟩ := anchor_of_candidateOffset hother
  have hkeys := toLex.injective (hle.antisymm hge)
  exact h.eq_of_rank hids hleft hright hanchor hanchor'
    (hrank.symm.trans ((Prod.mk.inj hkeys).2.trans hrank'))

theorem place (h : Laid S order margins state placed) {frame : Frame P} {state' : Assignment P}
    (hrank : ∀ other ∈ placed, rank order other < rank order frame) (hframe : frame ∈ order)
    (hnew : frame ∉ placed) (hstep : Placed S (rank order) margins state frame state') :
    Laid S order margins state' (placed ++ [frame]) where
  fresh := h.fresh.place hrank hstep
  parts := hstep.isPartition h.parts hnew
  inside other hother := by
    rcases List.mem_append.mp hother with hother | hother
    · exact h.inside other hother
    · exact List.mem_singleton.mp hother ▸ hframe

end Laid

theorem mem_replaced {α : Type} {front back : List α} {old new a : α}
    (h : (front ++ old :: back).Nodup) :
    a ∈ front ++ new :: back ↔ a = new ∨ a ∈ front ++ old :: back ∧ a ≠ old := by
  rw [List.nodup_append, List.nodup_cons] at h
  obtain ⟨-, ⟨hback, -⟩, hfront⟩ := h
  simp only [List.mem_append, List.mem_cons]
  constructor
  · rintro (hmem | rfl | hmem)
    · exact .inr ⟨.inl hmem, fun heq => hfront a hmem old (by simp) heq⟩
    · exact .inl rfl
    · exact .inr ⟨.inr (.inr hmem), fun heq => hback (heq ▸ hmem)⟩
  · rintro (rfl | ⟨hmem | rfl | hmem, hne⟩)
    · exact .inr (.inl rfl)
    · exact .inl hmem
    · exact absurd rfl hne
    · exact .inr (.inr hmem)

theorem mem_replaced_of_not {α : Type} {front back : List α} {old new a : α} {p : α → Prop}
    (hold : ¬ p old) (hnew : ¬ p new) :
    a ∈ front ++ new :: back ∧ p a ↔ a ∈ front ++ old :: back ∧ p a := by
  simp only [List.mem_append, List.mem_cons]
  refine and_congr_left fun ha => ?_
  have hne : a ≠ old := fun heq => hold (heq ▸ ha)
  have hne' : a ≠ new := fun heq => hnew (heq ▸ ha)
  simp [hne, hne']

theorem mem_added_of_not {α : Type} {l : List α} {new a : α} {p : α → Prop} (hnew : ¬ p new) :
    a ∈ l ++ [new] ∧ p a ↔ a ∈ l ∧ p a := by
  simp only [List.mem_append, List.mem_singleton]
  refine and_congr_left fun ha => ?_
  have hne : a ≠ new := fun heq => hnew (heq ▸ ha)
  simp [hne]

/-! ## Two assignments -/

def Framing.Chosen (chosen : Uuid → Bool) (framing : Framing P) : Prop :=
  ∃ member ∈ framing.members, chosen member.id = true

/-- A framing with a chosen frame holds chosen frames only. -/
def Assignment.Coherent (chosen : Uuid → Bool) (state : Assignment P) : Prop :=
  ∀ framing ∈ state.framings, framing.Chosen chosen →
    ∀ member ∈ framing.members, chosen member.id = true

def mergedFraming (S : Sky P) (chosen : Uuid → Bool) (label : Text) (limits : SplitLimits P)
    (placed : List (Frame P)) : Framing P where
  label := some label
  anchor := ((placed.filter fun frame => chosen frame.id).find? (pointed S)).map
    (relabel chosen label)
  members := (placed.filter fun frame => chosen frame.id).map (relabel chosen label)
  limits

/-- The assignment `merged` of the frames with their label, beside the assignment without. -/
structure Merging (S : Sky P) (chosen : Uuid → Bool) (label : Text) (margins : FramingMargins P)
    (placed : List (Frame P)) (state merged : Assignment P) : Prop where
  others : ∀ framing, framing ∈ merged.framings ∧ framing.label ≠ some label ↔
    framing ∈ state.framings ∧ ¬ framing.Chosen chosen
  joined : ∀ framing, framing ∈ merged.framings ∧ framing.label = some label ↔
    (∃ frame ∈ placed, chosen frame.id = true) ∧
      framing = mergedFraming S chosen label margins.split placed
  unframed : merged.unframed = state.unframed.filter fun frame => !chosen frame.id
  unlabelled : ∀ framing ∈ state.framings, framing.label ≠ some label
  anchored : ∀ anchor, (placed.filter fun frame => chosen frame.id).find? (pointed S) =
    some anchor → ∃ framing ∈ state.framings, framing.anchor = some anchor

section

variable {chosen : Uuid → Bool} {label : Text} {margins : FramingMargins P}
  {rank : Frame P → Nat} {state state' : Assignment P} {frame : Frame P}
  {placed : List (Frame P)}

theorem Placed.coherent (h : Placed S rank margins state frame state')
    (hcoherent : state'.Coherent chosen) : state.Coherent chosen := by
  rintro framing hframing ⟨member, hmember, hchosen⟩
  obtain ⟨grown, hgrown, hsub⟩ : ∃ grown ∈ state'.framings,
      ∀ member ∈ framing.members, member ∈ grown.members := by
    cases h with
    | joinLabelled _ _ hsplit =>
      rw [hsplit, List.mem_append, List.mem_cons] at hframing
      rcases hframing with hmem | rfl | hmem
      · exact ⟨framing, by simp [hmem], fun _ h => h⟩
      · exact ⟨framing.joinLabelled S frame, by simp, fun _ h => List.mem_append_left _ h⟩
      · exact ⟨framing, by simp [hmem], fun _ h => h⟩
    | newLabelled => exact ⟨framing, by simp [hframing], fun _ h => h⟩
    | join _ _ hsplit =>
      rw [hsplit, List.mem_append, List.mem_cons] at hframing
      rcases hframing with hmem | rfl | hmem
      · exact ⟨framing, by simp [hmem], fun _ h => h⟩
      · exact ⟨framing.join frame, by simp, fun _ h => List.mem_append_left _ h⟩
      · exact ⟨framing, by simp [hmem], fun _ h => h⟩
    | newAnchor => exact ⟨framing, by simp [hframing], fun _ h => h⟩
    | unframed => exact ⟨framing, hframing, fun _ h => h⟩
  intro other hother
  exact hcoherent grown hgrown ⟨member, hsub member hmember, hchosen⟩ other (hsub other hother)

theorem coherent_of_foldl {frames : List (Frame P)}
    (h : (frames.foldl (place S rank margins) state).Coherent chosen) : state.Coherent chosen := by
  induction frames generalizing state with
  | nil => exact h
  | cons frame frames ih => exact (place_placed rank margins state frame).coherent (ih h)

theorem mergedFraming_of_not (h : chosen frame.id = false) (limits : SplitLimits P) :
    mergedFraming S chosen label limits (placed ++ [frame]) =
      mergedFraming S chosen label limits placed := by
  simp [mergedFraming, List.filter_append, h]

theorem mergedFraming_of_chosen (h : chosen frame.id = true) (limits : SplitLimits P) :
    mergedFraming S chosen label limits (placed ++ [frame]) =
      (mergedFraming S chosen label limits placed).joinLabelled S
        (relabel chosen label frame) := by
  simp only [mergedFraming, Framing.joinLabelled, List.filter_append, List.filter_cons, h, if_true,
    List.filter_nil, List.map_append, List.map_cons, List.map_nil, List.find?_append,
    pointed_relabel]
  congr 1
  cases (placed.filter fun frame => chosen frame.id).find? (pointed S) with
  | some anchor => rfl
  | none =>
    cases hpointed : pointed S frame <;> simp [hpointed]

theorem Placed.keeps_anchor (h : Placed S rank margins state frame state') {anchor : Frame P}
    (hanchor : state.IsAnchor anchor) : state'.IsAnchor anchor := by
  obtain ⟨framing, hframing, hanchor⟩ := hanchor
  cases h with
  | joinLabelled _ _ hsplit =>
    rw [hsplit, List.mem_append, List.mem_cons] at hframing
    rcases hframing with hmem | rfl | hmem
    · exact ⟨framing, by simp [hmem], hanchor⟩
    · exact ⟨framing.joinLabelled S frame, by simp, by simp [Framing.joinLabelled, hanchor]⟩
    · exact ⟨framing, by simp [hmem], hanchor⟩
  | newLabelled => exact ⟨framing, by simp [hframing], hanchor⟩
  | join _ _ hsplit =>
    rw [hsplit, List.mem_append, List.mem_cons] at hframing
    rcases hframing with hmem | rfl | hmem
    · exact ⟨framing, by simp [hmem], hanchor⟩
    · exact ⟨framing.join frame, by simp, hanchor⟩
    · exact ⟨framing, by simp [hmem], hanchor⟩
  | newAnchor => exact ⟨framing, by simp [hframing], hanchor⟩
  | unframed => exact ⟨framing, hframing, hanchor⟩

theorem Placed.keeps_unlabelled (h : Placed S rank margins state frame state')
    (hframe : framingLabel frame.metadata ≠ some label)
    (hnone : ∀ framing ∈ state.framings, framing.label ≠ some label) :
    ∀ framing ∈ state'.framings, framing.label ≠ some label := by
  intro framing hframing
  cases h with
  | @joinLabelled _ _ old _ _ _ hsplit =>
    rcases List.mem_append.mp hframing with hmem | hmem
    · exact hnone framing (by simp [hsplit, hmem])
    · rcases List.mem_cons.mp hmem with rfl | hmem
      · exact hnone old (by simp [hsplit])
      · exact hnone framing (by simp [hsplit, hmem])
  | newLabelled hlabel =>
    rcases List.mem_append.mp hframing with hmem | hmem
    · exact hnone framing hmem
    · rw [List.mem_singleton.mp hmem]
      exact fun heq => hframe (hlabel.trans heq)
  | @join _ old _ _ _ _ hsplit =>
    rcases List.mem_append.mp hframing with hmem | hmem
    · exact hnone framing (by simp [hsplit, hmem])
    · rcases List.mem_cons.mp hmem with rfl | hmem
      · exact hnone old (by simp [hsplit])
      · exact hnone framing (by simp [hsplit, hmem])
  | newAnchor =>
    rcases List.mem_append.mp hframing with hmem | hmem
    · exact hnone framing hmem
    · rw [List.mem_singleton.mp hmem]
      nofun
  | unframed => exact hnone framing hframing

/-! ## A frame outside the merge -/

theorem exists_placed_of_not (h : chosen frame.id = false) :
    (∃ other ∈ placed ++ [frame], chosen other.id = true) ↔
      ∃ other ∈ placed, chosen other.id = true := by
  constructor
  · rintro ⟨other, hother, hchosen⟩
    rcases List.mem_append.mp hother with hother | hother
    · exact ⟨other, hother, hchosen⟩
    · rw [List.mem_singleton.mp hother, h] at hchosen
      cases hchosen
  · rintro ⟨other, hother, hchosen⟩
    exact ⟨other, List.mem_append_left _ hother, hchosen⟩

variable {merged merged' : Assignment P}

theorem Merging.outside (h : Merging S chosen label margins placed state merged)
    (hframe : chosen frame.id = false) (hlabel : framingLabel frame.metadata ≠ some label)
    (hstep : Placed S rank margins state frame state')
    (hothers : ∀ framing, framing ∈ merged'.framings ∧ framing.label ≠ some label ↔
      framing ∈ state'.framings ∧ ¬ framing.Chosen chosen)
    (hjoined : ∀ framing, framing ∈ merged'.framings ∧ framing.label = some label ↔
      framing ∈ merged.framings ∧ framing.label = some label)
    (hunframed : merged'.unframed = state'.unframed.filter fun frame => !chosen frame.id) :
    Merging S chosen label margins (placed ++ [frame]) state' merged' where
  others := hothers
  joined := fun framing => by
    rw [hjoined, h.joined, exists_placed_of_not hframe, mergedFraming_of_not hframe]
  unframed := hunframed
  unlabelled := hstep.keeps_unlabelled hlabel h.unlabelled
  anchored := fun anchor hanchor => by
    simp only [List.filter_append, List.filter_cons, hframe, Bool.false_eq_true, if_false,
      List.filter_nil, List.append_nil] at hanchor
    exact hstep.keeps_anchor (h.anchored anchor hanchor)

theorem Merging.replaced (h : Merging S chosen label margins placed state merged)
    (hstate : state.framings.Nodup) (hmerged : merged.framings.Nodup) {old new : Framing P}
    {front back front' back' : List (Framing P)} (hsplit : state.framings = front ++ old :: back)
    (hsplit' : merged.framings = front' ++ old :: back') (hnew : ¬ new.Chosen chosen)
    (hlabel : new.label = old.label) (framing : Framing P) :
    (framing ∈ front' ++ new :: back' ∧ framing.label ≠ some label ↔
      framing ∈ front ++ new :: back ∧ ¬ framing.Chosen chosen) ∧
    (framing ∈ front' ++ new :: back' ∧ framing.label = some label ↔
      framing ∈ merged.framings ∧ framing.label = some label) := by
  have hold : old.label ≠ some label := h.unlabelled old (by simp [hsplit])
  have hothers := h.others framing
  rw [hsplit] at hstate
  rw [hsplit'] at hmerged
  rw [hsplit, hsplit'] at hothers
  refine ⟨?_, ?_⟩
  · rw [mem_replaced hstate, mem_replaced hmerged]
    by_cases heq : framing = new
    · subst heq
      simp [hlabel, hold, hnew]
    · by_cases heq' : framing = old
      · subst heq'
        simp [heq]
      · simpa [heq, heq'] using hothers
  · rw [hsplit']
    have hnot : new.label ≠ some label := hlabel ▸ hold
    exact mem_replaced_of_not (p := fun framing : Framing P => framing.label = some label) hold hnot

theorem Merging.added (h : Merging S chosen label margins placed state merged) {new : Framing P}
    (hnew : ¬ new.Chosen chosen) (hlabel : new.label ≠ some label) (framing : Framing P) :
    (framing ∈ merged.framings ++ [new] ∧ framing.label ≠ some label ↔
      framing ∈ state.framings ++ [new] ∧ ¬ framing.Chosen chosen) ∧
    (framing ∈ merged.framings ++ [new] ∧ framing.label = some label ↔
      framing ∈ merged.framings ∧ framing.label = some label) := by
  refine ⟨?_, mem_added_of_not (p := fun framing : Framing P => framing.label = some label) hlabel⟩
  simp only [List.mem_append, List.mem_singleton]
  by_cases heq : framing = new
  · subst heq
    simp [hlabel, hnew]
  · simpa [heq] using h.others framing

/-- What a framing outside the merge is to a frame, the merged assignment has too; and the merged
framing is to it what the framing of its anchor is. -/
theorem Merging.candidate (h : Merging S chosen label margins placed state merged)
    {order : List (Frame P)}
    (hstate : Laid S order margins state placed) {framing : Framing P}
    (hframing : framing ∈ merged.framings) {found : Offset P × Nat}
    (hfound : candidateOffset S rank frame framing = some found)
    (hrank : ∀ frame : Frame P, rank (relabel chosen label frame) = rank frame) :
    ∃ other ∈ state.framings, candidateOffset S rank frame other = some found ∧
      (other = framing ∨ other.Chosen chosen) := by
  by_cases hlabel : framing.label = some label
  · obtain ⟨-, rfl⟩ := (h.joined framing).mp ⟨hframing, hlabel⟩
    obtain ⟨anchor, hanchor, hoffset, hfoundRank⟩ := anchor_of_candidateOffset hfound
    obtain ⟨original, horiginal, rfl⟩ := Option.map_eq_some_iff.mp hanchor
    obtain ⟨other, hother, hotherAnchor⟩ := h.anchored original horiginal
    have hchosen : other.Chosen chosen := by
      refine ⟨original, ((hstate.fresh.sound.framing other hother).anchor _ hotherAnchor).1, ?_⟩
      exact (List.mem_filter.mp (List.mem_of_find?_eq_some horiginal)).2
    refine ⟨other, hother, ?_, .inr hchosen⟩
    have hlimits := (hstate.fresh.laws other hother).at_limits
    rw [offset_relabel] at hoffset
    obtain ⟨offset, position⟩ := found
    simp only [mergedFraming] at hoffset
    simp only [hrank] at hfoundRank
    simp [candidateOffset, hotherAnchor, hlimits, hoffset, hfoundRank]
  · exact ⟨framing, ((h.others framing).mp ⟨hframing, hlabel⟩).1, hfound, .inl rfl⟩

theorem not_chosen_of_joins (framing grown : Framing P) (hcoherent : state'.Coherent chosen)
    (hgrown : grown ∈ state'.framings) (hmembers : grown.members = framing.members ++ [frame])
    (hframe : chosen frame.id = false) : ¬ grown.Chosen chosen ∧ ¬ framing.Chosen chosen := by
  have hnot : ¬ grown.Chosen chosen := fun hchosen => by
    have := hcoherent grown hgrown hchosen frame (by simp [hmembers])
    rw [hframe] at this
    cases this
  refine ⟨hnot, ?_⟩
  rintro ⟨member, hmember, hchosen⟩
  exact hnot ⟨member, by simp [hmembers, hmember], hchosen⟩

end

section

variable {chosen : Uuid → Bool} {label : Text} {margins : FramingMargins P}
  {order : List (Frame P)} {state state' merged merged' : Assignment P} {frame : Frame P}
  {placed : List (Frame P)}

theorem Merging.step_outside (hids : (order.map Frame.id).Nodup)
    (h : Merging S chosen label margins placed state merged)
    (hstate : Laid S order margins state placed)
    (hmerged : merged.framings.Nodup) (hframe : chosen frame.id = false)
    (hrank : ∀ frame : Frame P, rank order (relabel chosen label frame) = rank order frame)
    (hlabel : framingLabel frame.metadata ≠ some label)
    (hstep : Placed S (rank order) margins state frame state') (hcoherent : state'.Coherent chosen)
    (hstep' : Placed S (rank order) margins merged frame merged') :
    Merging S chosen label margins (placed ++ [frame]) state' merged' := by
  have hinside : ∀ framing ∈ state.framings, ¬ framing.Chosen chosen →
      framing ∈ merged.framings ∧ framing.label ≠ some label :=
    fun framing hmem hnot => (h.others framing).mpr ⟨hmem, hnot⟩
  cases id hstep with
  | @joinLabelled name front framing back hname hframing hsplit =>
    have hmem : framing ∈ state.framings := by simp [hsplit]
    obtain ⟨hnew, hold⟩ := not_chosen_of_joins framing (framing.joinLabelled S frame)
      hcoherent (by simp) rfl hframe
    have hmem' := hinside framing hmem hold
    cases hstep' with
    | @joinLabelled name' front' framing' back' hname' hframing' hsplit' =>
      obtain rfl : name = name' := Option.some.inj (hname.symm.trans hname')
      have hother : framing' ∈ state.framings := ((h.others framing').mp
        ⟨by simp [hsplit'], hframing' ▸ hname ▸ hlabel⟩).1
      obtain rfl := hstate.eq_of_label hother hmem hframing' hframing
      have hreplaced := h.replaced hstate.nodup hmerged hsplit hsplit' hnew rfl
      exact h.outside hframe hlabel hstep (fun other => (hreplaced other).1)
        (fun other => (hreplaced other).2) h.unframed
    | newLabelled hname' hnone =>
      obtain rfl := Option.some.inj (hname.symm.trans hname')
      exact absurd hframing (hnone framing hmem'.1)
    | join hnone => simp [hname] at hnone
    | newAnchor hnone => simp [hname] at hnone
    | unframed hnone => simp [hname] at hnone
  | @newLabelled name hname hnone =>
    have hne : some name ≠ some label := hname ▸ hlabel
    have hnew : ¬ Framing.Chosen chosen {
        label := some name, anchor := if pointed S frame then some frame else none,
        members := [frame], limits := margins.split } := by
      rintro ⟨member, hmember, hchosen⟩
      rw [List.mem_singleton.mp hmember, hframe] at hchosen
      cases hchosen
    cases hstep' with
    | @joinLabelled name' front' framing' back' hname' hframing' hsplit' =>
      obtain rfl : name = name' := Option.some.inj (hname.symm.trans hname')
      have hother : framing' ∈ state.framings := ((h.others framing').mp
        ⟨by simp [hsplit'], hframing' ▸ hne⟩).1
      exact absurd hframing' (hnone framing' hother)
    | newLabelled hname' =>
      obtain rfl := Option.some.inj (hname.symm.trans hname')
      have hadded := h.added hnew hne
      exact h.outside hframe hlabel hstep (fun other => (hadded other).1)
        (fun other => (hadded other).2) h.unframed
    | join hnone => simp [hname] at hnone
    | newAnchor hnone => simp [hname] at hnone
    | unframed hnone => simp [hname] at hnone
  | @join front framing back found hname hpointed hsplit hfound hnearest =>
    have hmem : framing ∈ state.framings := by simp [hsplit]
    obtain ⟨hnew, hold⟩ := not_chosen_of_joins framing (framing.join frame)
      hcoherent (by simp) rfl hframe
    have hmem' := hinside framing hmem hold
    cases hstep' with
    | joinLabelled hname' => simp [hname] at hname'
    | newLabelled hname' => simp [hname] at hname'
    | @join front' framing' back' found' _ _ hsplit' hfound' hnearest' =>
      have hsame : framing' = framing := by
        obtain ⟨original, horiginal, hcandidate, hwhich⟩ :=
          h.candidate hstate (by simp [hsplit']) hfound' hrank
        have hone := hstate.eq_of_least hids horiginal hmem hcandidate hfound
          (hnearest' framing hmem'.1 found hfound) (hnearest original horiginal found' hcandidate)
        subst hone
        exact (hwhich.resolve_right hold).symm
      subst hsame
      have hreplaced := h.replaced hstate.nodup hmerged hsplit hsplit' hnew rfl
      exact h.outside hframe hlabel hstep (fun other => (hreplaced other).1)
        (fun other => (hreplaced other).2) h.unframed
    | newAnchor _ _ hnone => simp [hnone framing hmem'.1] at hfound
    | unframed _ hnot => simp [hpointed] at hnot
  | newAnchor hname hpointed hnone =>
    have hnew : ¬ Framing.Chosen chosen
        { label := none, anchor := some frame, members := [frame], limits := margins.split } := by
      rintro ⟨member, hmember, hchosen⟩
      rw [List.mem_singleton.mp hmember, hframe] at hchosen
      cases hchosen
    cases hstep' with
    | joinLabelled hname' => simp [hname] at hname'
    | newLabelled hname' => simp [hname] at hname'
    | @join front' framing' back' found' _ _ hsplit' hfound' =>
      obtain ⟨original, horiginal, hcandidate, -⟩ :=
        h.candidate hstate (by simp [hsplit']) hfound' hrank
      simp [hnone original horiginal] at hcandidate
    | newAnchor =>
      have hadded := h.added hnew (by simp)
      exact h.outside hframe hlabel hstep (fun other => (hadded other).1)
        (fun other => (hadded other).2) h.unframed
    | unframed _ hnot => simp [hpointed] at hnot
  | unframed hname hnot =>
    cases hstep' with
    | joinLabelled hname' => simp [hname] at hname'
    | newLabelled hname' => simp [hname] at hname'
    | join _ hpointed => simp [hnot] at hpointed
    | newAnchor _ hpointed => simp [hnot] at hpointed
    | unframed =>
      refine h.outside hframe hlabel hstep h.others (fun _ => Iff.rfl) ?_
      simp [h.unframed, List.filter_append, hframe]

theorem Merging.step_chosen (h : Merging S chosen label margins placed state merged)
    (hstate : Laid S order margins state placed)
    (hmerged : merged.framings.Nodup) (hframe : chosen frame.id = true) (hread : ReadsAs label)
    (hlabel : framingLabel frame.metadata ≠ some label)
    (hstep : Placed S (rank order) margins state frame state') (hcoherent : state'.Coherent chosen)
    (hstep' : Placed S (rank order) margins merged (relabel chosen label frame) merged') :
    Merging S chosen label margins (placed ++ [frame]) state' merged' := by
  have hname : framingLabel (relabel chosen label frame).metadata = some label :=
    framingLabel_relabel hread hframe
  have hlast : ∃ other ∈ placed ++ [frame], chosen other.id = true := ⟨frame, by simp, hframe⟩
  -- a framing the frame joins held chosen frames before
  have hjoins : ∀ framing ∈ state.framings, ∀ grown ∈ state'.framings,
      grown.members = framing.members ++ [frame] →
      grown.Chosen chosen ∧ framing.Chosen chosen ∧
        ∀ member ∈ framing.members, chosen member.id = true := by
    intro framing hframing grown hgrown hmembers
    have hgrownChosen : grown.Chosen chosen := ⟨frame, by simp [hmembers], hframe⟩
    have hall : ∀ member ∈ framing.members, chosen member.id = true := fun member hmember =>
      hcoherent grown hgrown hgrownChosen member (by simp [hmembers, hmember])
    obtain ⟨member, hmember⟩ := (hstate.fresh.sound.framing framing hframing).nonempty
    exact ⟨hgrownChosen, ⟨member, hmember, hall member hmember⟩, hall⟩
  have hothers : ∀ framing, framing ∈ state'.framings ∧ ¬ framing.Chosen chosen ↔
      framing ∈ state.framings ∧ ¬ framing.Chosen chosen := by
    intro framing
    cases hstep with
    | @joinLabelled _ _ old _ _ _ hsplit =>
      obtain ⟨hnew, hold, -⟩ := hjoins old (by simp [hsplit]) (old.joinLabelled S frame) (by simp) rfl
      rw [hsplit]
      exact mem_replaced_of_not (p := fun framing : Framing P => ¬ framing.Chosen chosen)
        (not_not.mpr hold) (not_not.mpr hnew)
    | newLabelled =>
      exact mem_added_of_not (p := fun framing : Framing P => ¬ framing.Chosen chosen)
        (not_not.mpr ⟨frame, List.mem_singleton_self _, hframe⟩)
    | @join _ old _ _ _ _ hsplit =>
      obtain ⟨hnew, hold, -⟩ := hjoins old (by simp [hsplit]) (old.join frame) (by simp) rfl
      rw [hsplit]
      exact mem_replaced_of_not (p := fun framing : Framing P => ¬ framing.Chosen chosen)
        (not_not.mpr hold) (not_not.mpr hnew)
    | newAnchor =>
      exact mem_added_of_not (p := fun framing : Framing P => ¬ framing.Chosen chosen)
        (not_not.mpr ⟨frame, List.mem_singleton_self _, hframe⟩)
    | unframed => rfl
  have hunframed : (state'.unframed.filter fun frame => !chosen frame.id) =
      state.unframed.filter fun frame => !chosen frame.id := by
    cases hstep with
    | unframed => simp [List.filter_append, hframe]
    | _ => rfl
  have hanchored : ∀ anchor, ((placed ++ [frame]).filter fun frame => chosen frame.id).find?
      (pointed S) = some anchor → ∃ framing ∈ state'.framings, framing.anchor = some anchor := by
    intro anchor hanchor
    rw [List.filter_append, List.find?_append, Option.or_eq_some_iff] at hanchor
    rcases hanchor with hanchor | ⟨hnone, hanchor⟩
    · exact hstep.keeps_anchor (h.anchored anchor hanchor)
    simp only [List.filter_cons, hframe, if_true, List.filter_nil] at hanchor
    have heq : anchor = frame := by simpa using List.mem_of_find?_eq_some hanchor
    subst anchor
    have hpointed : pointed S frame = true := List.find?_some hanchor
    -- no chosen frame placed before has pointing
    have hfirst : ∀ framing ∈ state.framings,
        (∀ member ∈ framing.members, chosen member.id = true) → framing.anchor = none := by
      intro framing hframing hall
      refine Option.eq_none_iff_forall_not_mem.mpr fun other hother => ?_
      obtain ⟨hmember, hother⟩ := (hstate.fresh.sound.framing framing hframing).anchor other hother
      refine List.find?_eq_none.mp hnone other ?_ hother
      exact List.mem_filter.mpr ⟨hstate.member_placed hframing hmember, hall other hmember⟩
    cases hstep with
    | @joinLabelled _ _ old _ _ _ hsplit =>
      obtain ⟨-, -, hall⟩ := hjoins old (by simp [hsplit]) (old.joinLabelled S frame) (by simp) rfl
      have hnone := hfirst old (by simp [hsplit]) hall
      exact ⟨old.joinLabelled S frame, by simp, by simp [Framing.joinLabelled, hnone, hpointed]⟩
    | newLabelled => exact ⟨_, List.mem_append_right _ (List.mem_singleton_self _), if_pos hpointed⟩
    | @join _ old _ _ _ _ hsplit hfound =>
      obtain ⟨-, -, hall⟩ := hjoins old (by simp [hsplit]) (old.join frame) (by simp) rfl
      obtain ⟨other, hother, -⟩ := anchor_of_candidateOffset hfound
      rw [hfirst old (by simp [hsplit]) hall] at hother
      cases hother
    | newAnchor => exact ⟨_, List.mem_append_right _ (List.mem_singleton_self _), rfl⟩
    | unframed _ hnot => simp [hpointed] at hnot
  cases hstep' with
  | @joinLabelled name front framing back hname' hframing hsplit =>
    obtain rfl : label = name := Option.some.inj (hname.symm.trans hname')
    obtain ⟨-, hmergedFraming⟩ := (h.joined framing).mp ⟨by simp [hsplit], hframing⟩
    refine ⟨fun other => ?_, fun other => ?_, h.unframed.trans hunframed.symm,
      hstep.keeps_unlabelled hlabel h.unlabelled, hanchored⟩
    · rw [hothers, ← h.others, hsplit]
      exact mem_replaced_of_not (p := fun framing : Framing P => framing.label ≠ some label)
        (not_not.mpr hframing) (not_not.mpr hframing)
    · rw [mergedFraming_of_chosen hframe, ← hmergedFraming]
      have hnodup := hmerged
      rw [hsplit] at hnodup
      rw [mem_replaced hnodup, ← hsplit]
      constructor
      · rintro ⟨rfl | ⟨hmem, hne⟩, hother⟩
        · exact ⟨hlast, rfl⟩
        · exact absurd (((h.joined other).mp ⟨hmem, hother⟩).2.trans hmergedFraming.symm) hne
      · rintro ⟨-, rfl⟩
        exact ⟨.inl rfl, hframing⟩
  | @newLabelled name hname' hnone =>
    obtain rfl : label = name := Option.some.inj (hname.symm.trans hname')
    have hempty : (placed.filter fun frame => chosen frame.id) = [] := by
      refine List.filter_eq_nil_iff.mpr fun other hother hchosen => ?_
      have hmem := (h.joined _).mpr ⟨⟨other, hother, hchosen⟩, rfl⟩
      exact hnone _ hmem.1 hmem.2
    refine ⟨fun other => ?_, fun other => ?_, h.unframed.trans hunframed.symm,
      hstep.keeps_unlabelled hlabel h.unlabelled, hanchored⟩
    · rw [hothers, ← h.others]
      exact mem_added_of_not (p := fun framing : Framing P => framing.label ≠ some label) (by simp)
    · have hopened : mergedFraming S chosen label margins.split (placed ++ [frame]) = {
          label := some label
          anchor := if pointed S (relabel chosen label frame) then
            some (relabel chosen label frame) else none
          members := [relabel chosen label frame], limits := margins.split } := by
        rw [mergedFraming_of_chosen hframe]
        simp [mergedFraming, hempty, Framing.joinLabelled]
      rw [hopened]
      constructor
      · rintro ⟨hmem, hother⟩
        refine ⟨hlast, ?_⟩
        rcases List.mem_append.mp hmem with hmem | hmem
        · exact absurd hother (hnone other hmem)
        · exact List.mem_singleton.mp hmem
      · rintro ⟨-, rfl⟩
        exact ⟨by simp, rfl⟩
  | join hnone => simp [hname] at hnone
  | newAnchor hnone => simp [hname] at hnone
  | unframed hnone => simp [hname] at hnone

theorem rank_relabel : rank order (relabel chosen label frame) = rank order frame := by
  simp [rank]

theorem rank_map_relabel : rank (order.map (relabel chosen label)) = rank order := by
  funext frame
  simp [rank, List.findIdx_map, Function.comp_def]

theorem map_relabel_ids :
    (order.map (relabel chosen label)).map Frame.id = order.map Frame.id := by
  simp [Function.comp_def]

theorem relabel_mem (hids : (order.map Frame.id).Nodup) {frames : List (Frame P)}
    (hframes : ∀ other ∈ frames, other ∈ order) (hframe : frame ∈ order) :
    relabel chosen label frame ∈ frames.map (relabel chosen label) ↔ frame ∈ frames := by
  constructor
  · intro hmem
    obtain ⟨other, hother, heq⟩ := List.mem_map.mp hmem
    have hid : other.id = frame.id := by simpa using congrArg Frame.id heq
    exact eq_of_id_eq hids (hframes other hother) hframe hid ▸ hother
  · exact List.mem_map_of_mem

theorem Merging.foldl (hids : (order.map Frame.id).Nodup) (hread : ReadsAs label)
    {frames : List (Frame P)} (hframes : ∀ frame ∈ frames, frame ∈ order)
    (hlabels : ∀ frame ∈ frames, framingLabel frame.metadata ≠ some label)
    (hrank : (placed ++ frames).Pairwise fun left right => rank order left < rank order right)
    (hstate : Laid S order margins state placed)
    (hmerged : Laid S (order.map (relabel chosen label)) margins merged
      (placed.map (relabel chosen label)))
    (h : Merging S chosen label margins placed state merged)
    (hcoherent : (frames.foldl (place S (rank order) margins) state).Coherent chosen) :
    Merging S chosen label margins (placed ++ frames)
      (frames.foldl (place S (rank order) margins) state)
      ((frames.map (relabel chosen label)).foldl (place S (rank order) margins) merged) := by
  induction frames generalizing placed state merged with
  | nil => simpa using h
  | cons frame frames ih =>
    have hframe := hframes frame List.mem_cons_self
    have hbefore : ∀ other ∈ placed, rank order other < rank order frame := fun other hother =>
      (List.pairwise_append.mp hrank).2.2 other hother frame List.mem_cons_self
    have hnew : frame ∉ placed := fun hmem => lt_irrefl _ (hbefore frame hmem)
    have hstep := place_placed (S := S) (rank order) margins state frame
    have hstep' := place_placed (S := S) (rank order) margins merged (relabel chosen label frame)
    have hcoherent' : (place S (rank order) margins state frame).Coherent chosen :=
      coherent_of_foldl hcoherent
    have hnext : Merging S chosen label margins (placed ++ [frame])
        (place S (rank order) margins state frame)
        (place S (rank order) margins merged (relabel chosen label frame)) := by
      cases hchosen : chosen frame.id with
      | true =>
        exact h.step_chosen hstate hmerged.nodup hchosen hread
          (hlabels frame List.mem_cons_self) hstep hcoherent' hstep'
      | false =>
        rw [relabel_of_not hchosen] at hstep' ⊢
        exact h.step_outside hids hstate hmerged.nodup hchosen (fun _ => rank_relabel)
          (hlabels frame List.mem_cons_self) hstep hcoherent' hstep'
    have hlaid' : Laid S (order.map (relabel chosen label)) margins
        (place S (rank order) margins merged (relabel chosen label frame))
        ((placed ++ [frame]).map (relabel chosen label)) := by
      rw [List.map_append]
      refine hmerged.place (fun other hother => ?_) (List.mem_map_of_mem hframe)
        ((relabel_mem hids hstate.inside hframe).not.mpr hnew) ?_
      · obtain ⟨original, horiginal, rfl⟩ := List.mem_map.mp hother
        rw [rank_map_relabel, rank_relabel, rank_relabel]
        exact hbefore original horiginal
      · rw [rank_map_relabel]
        exact hstep'
    have hfinal := ih (fun other hother => hframes other (List.mem_cons_of_mem _ hother))
      (fun other hother => hlabels other (List.mem_cons_of_mem _ hother))
      (by simpa using hrank) (hstate.place hbefore hframe hnew hstep) hlaid' hnext hcoherent
    simpa using hfinal

theorem Laid.empty : Laid S order margins { framings := [], unframed := [] } [] :=
  ⟨.empty, .nil, by simp⟩

theorem assigned_nil : assigned S order [] margins =
    order.foldl (place S (rank order) margins) { framings := [], unframed := [] } := by
  simp [assigned, seedAll]

theorem merging_assigned (hids : (order.map Frame.id).Nodup) (hread : ReadsAs label)
    (hlabels : ∀ frame ∈ order, framingLabel frame.metadata ≠ some label)
    (hcoherent : (assigned S order [] margins).Coherent chosen) :
    Merging S chosen label margins order (assigned S order [] margins)
      (assigned S (order.map (relabel chosen label)) [] margins) := by
  rw [assigned_nil] at hcoherent
  have hempty : Merging S chosen label margins [] { framings := [], unframed := [] }
      { framings := [], unframed := [] } := ⟨by simp, by simp, rfl, by simp, by simp⟩
  have hrun := Merging.foldl hids hread (fun _ h => h) hlabels (by simpa using pairwise_rank hids)
    Laid.empty Laid.empty hempty hcoherent
  rw [assigned_nil, assigned_nil, rank_map_relabel]
  simpa using hrun

end

end PlateVault
