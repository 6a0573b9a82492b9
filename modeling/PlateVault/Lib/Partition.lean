import PlateVault.Lib.Ordered

/-!
# Blocks that share no element

`IsPartition blocks elements`: the blocks are pairwise disjoint and hold exactly these elements. A
block may grow by new elements and a new block may come in, anywhere in the list; ordered sets of
the blocks' ids then hold each element's id once.
-/

/-- Pairwise disjoint blocks that hold exactly `elements`. -/
structure IsPartition {α : Type*} (blocks : List (List α)) (elements : List α) : Prop where
  disjoint : blocks.Pairwise List.Disjoint
  cover : ∀ a, a ∈ elements ↔ ∃ block ∈ blocks, a ∈ block

namespace IsPartition

variable {α : Type*} {blocks front back : List (List α)} {block new elements : List α}

theorem nil : IsPartition ([[]] : List (List α)) [] :=
  ⟨by simp, by simp⟩

theorem mem (h : IsPartition blocks elements) {a : α} (hblock : block ∈ blocks) (ha : a ∈ block) :
    a ∈ elements :=
  (h.cover a).mpr ⟨block, hblock, ha⟩

/-- Only the set of elements matters. -/
theorem congr {elements' : List α} (h : IsPartition blocks elements)
    (hmem : ∀ a, a ∈ elements' ↔ a ∈ elements) : IsPartition blocks elements' :=
  ⟨h.disjoint, fun a => (hmem a).trans (h.cover a)⟩

/-- A block of new elements may come in anywhere. -/
theorem insert (h : IsPartition (front ++ back) elements) (hnew : new.Disjoint elements) :
    IsPartition (front ++ new :: back) (elements ++ new) := by
  have hfront : ∀ block ∈ front, new.Disjoint block := fun block hblock a ha hmem =>
    hnew ha (h.mem (List.mem_append_left _ hblock) hmem)
  have hback : ∀ block ∈ back, new.Disjoint block := fun block hblock a ha hmem =>
    hnew ha (h.mem (List.mem_append_right _ hblock) hmem)
  obtain ⟨hpf, hpb, hcross⟩ := List.pairwise_append.mp h.disjoint
  constructor
  · refine List.pairwise_append.mpr ⟨hpf, List.pairwise_cons.mpr ⟨hback, hpb⟩, ?_⟩
    intro block hblock other hother
    rcases List.mem_cons.mp hother with rfl | hother
    · exact (hfront block hblock).symm
    · exact hcross block hblock other hother
  · intro a
    have hcover := h.cover a
    simp only [List.mem_append, List.mem_cons] at hcover ⊢
    constructor
    · rintro (ha | ha)
      · obtain ⟨block, hblock, hmem⟩ := hcover.mp ha
        exact ⟨block, hblock.imp_right .inr, hmem⟩
      · exact ⟨new, .inr (.inl rfl), ha⟩
    · rintro ⟨block, hblock | rfl | hblock, hmem⟩
      · exact .inl (hcover.mpr ⟨block, .inl hblock, hmem⟩)
      · exact .inr hmem
      · exact .inl (hcover.mpr ⟨block, .inr hblock, hmem⟩)

/-- A block may grow by new elements. -/
theorem grow (h : IsPartition (front ++ block :: back) elements) (hnew : new.Disjoint elements) :
    IsPartition (front ++ (block ++ new) :: back) (elements ++ new) := by
  have hfront : ∀ other ∈ front, new.Disjoint other := fun other hother a ha hmem =>
    hnew ha (h.mem (List.mem_append_left _ hother) hmem)
  have hback : ∀ other ∈ back, new.Disjoint other := fun other hother a ha hmem =>
    hnew ha (h.mem (List.mem_append_right _ (List.mem_cons_of_mem _ hother)) hmem)
  obtain ⟨hpf, hpb, hcross⟩ := List.pairwise_append.mp h.disjoint
  obtain ⟨hblock, hpb⟩ := List.pairwise_cons.mp hpb
  constructor
  · refine List.pairwise_append.mpr ⟨hpf, List.pairwise_cons.mpr ⟨?_, hpb⟩, ?_⟩
    · intro other hother
      exact List.disjoint_append_left.mpr ⟨hblock other hother, hback other hother⟩
    · intro other hother grown hgrown
      rcases List.mem_cons.mp hgrown with rfl | hgrown
      · exact List.disjoint_append_right.mpr
          ⟨hcross other hother block List.mem_cons_self, (hfront other hother).symm⟩
      · exact hcross other hother grown (List.mem_cons_of_mem _ hgrown)
  · intro a
    have hcover := h.cover a
    simp only [List.mem_append, List.mem_cons] at hcover ⊢
    constructor
    · rintro (ha | ha)
      · obtain ⟨other, hother | rfl | hother, hmem⟩ := hcover.mp ha
        · exact ⟨other, .inl hother, hmem⟩
        · exact ⟨_, .inr (.inl rfl), List.mem_append_left _ hmem⟩
        · exact ⟨other, .inr (.inr hother), hmem⟩
      · exact ⟨_, .inr (.inl rfl), List.mem_append_right _ ha⟩
    · rintro ⟨other, hother | rfl | hother, hmem⟩
      · exact .inl (hcover.mpr ⟨other, .inl hother, hmem⟩)
      · rcases List.mem_append.mp hmem with hmem | hmem
        · exact .inl (hcover.mpr ⟨block, .inr (.inl rfl), hmem⟩)
        · exact .inr hmem
      · exact .inl (hcover.mpr ⟨other, .inr (.inr hother), hmem⟩)

theorem growLast (h : IsPartition (front ++ [block]) elements) (hnew : new.Disjoint elements) :
    IsPartition (front ++ [block ++ new]) (elements ++ new) := by
  have hlast : IsPartition (front ++ block :: []) elements := h
  exact hlast.grow hnew

/-- An empty block at the end may go. -/
theorem dropEmpty (h : IsPartition (front ++ [[]]) elements) : IsPartition front elements := by
  refine ⟨(List.pairwise_append.mp h.disjoint).1, fun a => (h.cover a).trans ?_⟩
  simp

/-- The blocks' ids as ordered sets: each element's id once. -/
theorem perm_ids {β : Type*} [LinearOrder β] (h : IsPartition blocks elements) (id : α → β)
    (hid : (elements.map id).Nodup) :
    (blocks.flatMap fun block => Ordered.ascending (block.map id)).Perm (elements.map id) := by
  have hinj : ∀ a ∈ elements, ∀ b ∈ elements, id a = id b → a = b := fun a ha b hb =>
    List.inj_on_of_nodup_map hid ha hb
  have hnodup : (blocks.flatMap fun block => Ordered.ascending (block.map id)).Nodup := by
    refine List.nodup_flatMap.mpr ⟨fun block _ => Ordered.nodup_ascending _, ?_⟩
    refine (List.pairwise_iff_forall_sublist.mpr fun {left right} hsub => ?_)
    have hdisjoint := List.pairwise_iff_forall_sublist.mp h.disjoint hsub
    have hleft : left ∈ blocks := hsub.subset List.mem_cons_self
    have hright : right ∈ blocks := hsub.subset (List.mem_cons_of_mem _ List.mem_cons_self)
    intro b hbl hbr
    obtain ⟨a, ha, rfl⟩ := List.mem_map.mp (Ordered.mem_ascending.mp hbl)
    obtain ⟨a', ha', heq⟩ := List.mem_map.mp (Ordered.mem_ascending.mp hbr)
    obtain rfl := hinj a' (h.mem hright ha') a (h.mem hleft ha) heq
    exact hdisjoint ha ha'
  refine (List.perm_ext_iff_of_nodup hnodup hid).mpr fun b => ?_
  simp only [List.mem_flatMap, Ordered.mem_ascending, List.mem_map]
  constructor
  · rintro ⟨block, hblock, a, ha, rfl⟩
    exact ⟨a, h.mem hblock ha, rfl⟩
  · rintro ⟨a, ha, rfl⟩
    obtain ⟨block, hblock, hmem⟩ := (h.cover a).mp ha
    exact ⟨block, hblock, a, hmem, rfl⟩

end IsPartition

/-- Elements listed key by key: the same elements. -/
theorem perm_flatMap_filter {α κ : Type*} [LinearOrder κ] [DecidableEq κ] {l : List α} (h : l.Nodup)
    (key : α → κ) :
    ((Ordered.ascending (l.map key)).flatMap fun k => l.filter fun a => key a = k).Perm l := by
  have hnodup : ((Ordered.ascending (l.map key)).flatMap fun k =>
      l.filter fun a => key a = k).Nodup := by
    refine List.nodup_flatMap.mpr ⟨fun k _ => h.filter _, ?_⟩
    refine (Ordered.nodup_ascending _).imp fun hne a ha ha' => hne ?_
    simp only [List.mem_filter, decide_eq_true_eq] at ha ha'
    exact ha.2.symm.trans ha'.2
  refine (List.perm_ext_iff_of_nodup hnodup h).mpr fun a => ?_
  simp only [List.mem_flatMap, Ordered.mem_ascending, List.mem_map, List.mem_filter,
    decide_eq_true_eq]
  constructor
  · rintro ⟨k, -, ha, -⟩
    exact ha
  · intro ha
    exact ⟨key a, ⟨a, ha, rfl⟩, ha, rfl⟩
