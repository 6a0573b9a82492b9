import PlateVault.Lib.Ordered

/-!
# Lists of spans

Spans of a linear order, merged where they touch, united and intersected. A merged list keeps a gap
between any two of its spans, so what lies within a span of it after another merge lies within that
one span.
-/

structure Span (α : Type*) where
  start : α
  finish : α
  deriving DecidableEq, Repr

namespace Span

variable {α : Type*} [LinearOrder α]

/-- The part of a span within another; `none` when it has no length. -/
def clip (span bounds : Span α) : Option (Span α) :=
  let start := max span.start bounds.start
  let finish := min span.finish bounds.finish
  if start < finish then some ⟨start, finish⟩ else none

/-- Extend `last` over what touches it, in the order of the starts. -/
def join (last : Span α) : List (Span α) → List (Span α)
  | [] => [last]
  | span :: rest =>
    if span.start ≤ last.finish then join ⟨last.start, max last.finish span.finish⟩ rest
    else last :: join span rest

def merge (spans : List (Span α)) : List (Span α) :=
  match Ordered.sortBy Span.start spans with
  | [] => []
  | first :: rest => join first rest

def union (first second : List (Span α)) : List (Span α) := merge (first ++ second)

def intersect (first second : List (Span α)) : List (Span α) :=
  merge (first.flatMap fun a => second.filterMap (clip a))

/-- The gaps from `cursor` on. -/
def gaps (finish cursor : α) : List (Span α) → List (Span α)
  | [] => if cursor < finish then [⟨cursor, finish⟩] else []
  | span :: rest =>
    (if cursor < span.start then [⟨cursor, span.start⟩] else []) ++
      gaps finish (max cursor span.finish) rest

def complement (spans : List (Span α)) (bounds : Span α) : List (Span α) :=
  gaps bounds.finish bounds.start spans

/-! ## Containment -/

/-- `a` lies within `b`. -/
def Within (a b : Span α) : Prop := b.start ≤ a.start ∧ a.finish ≤ b.finish

theorem Within.refl (a : Span α) : a.Within a := ⟨le_rfl, le_rfl⟩

theorem Within.trans {a b c : Span α} (hab : a.Within b) (hbc : b.Within c) : a.Within c :=
  ⟨hbc.1.trans hab.1, hab.2.trans hbc.2⟩

theorem clip_within {a b c : Span α} (h : clip a b = some c) : c.Within a ∧ c.Within b := by
  unfold clip at h
  simp only at h
  split at h
  · obtain rfl := Option.some.inj h
    exact ⟨⟨le_max_left _ _, min_le_left _ _⟩, ⟨le_max_right _ _, min_le_right _ _⟩⟩
  · cases h

theorem clip_lt {a b c : Span α} (h : clip a b = some c) : c.start < c.finish := by
  unfold clip at h
  simp only at h
  split at h
  · obtain rfl := Option.some.inj h
    assumption
  · cases h

/-- A span within the bounds is all kept. -/
theorem clip_of_within {a b : Span α} (h : a.Within b) (hlt : a.start < a.finish) :
    clip a b = some a := by
  unfold clip
  simp only [max_eq_left h.1, min_eq_left h.2, if_pos hlt]

/-! ## Merging -/

/-- Later spans start past the end of the earlier ones. -/
def Apart (spans : List (Span α)) : Prop := spans.Pairwise fun a b => a.finish < b.start

/-- Two spans with a common point are one. -/
theorem Apart.eq_of_touch {spans : List (Span α)} (h : Apart spans) {a b : Span α} (ha : a ∈ spans)
    (hb : b ∈ spans) {x : α} (hxa : a.start ≤ x ∧ x ≤ a.finish)
    (hxb : b.start ≤ x ∧ x ≤ b.finish) : a = b := by
  induction h with
  | nil => cases ha
  | cons hfirst _ ih =>
    rcases List.mem_cons.mp ha with rfl | ha'
    · rcases List.mem_cons.mp hb with rfl | hb'
      · rfl
      · exact absurd ((hfirst b hb').trans_le (hxb.1.trans hxa.2)) (lt_irrefl _)
    · rcases List.mem_cons.mp hb with rfl | hb'
      · exact absurd ((hfirst a ha').trans_le (hxa.1.trans hxb.2)) (lt_irrefl _)
      · exact ih ha' hb'

theorem start_le_join {last : Span α} {spans : List (Span α)} {low : α} (hlast : low ≤ last.start)
    (hspans : ∀ span ∈ spans, low ≤ span.start) :
    ∀ span ∈ join last spans, low ≤ span.start := by
  induction spans generalizing last with
  | nil =>
    intro span hspan
    obtain rfl := List.mem_singleton.mp hspan
    exact hlast
  | cons next rest ih =>
    have hrest : ∀ span ∈ rest, low ≤ span.start := fun span h =>
      hspans span (List.mem_cons_of_mem _ h)
    intro span hspan
    rw [join] at hspan
    split at hspan
    · exact @ih ⟨last.start, max last.finish next.finish⟩ hlast hrest span hspan
    · rcases List.mem_cons.mp hspan with rfl | hspan
      · exact hlast
      · exact ih (hspans next List.mem_cons_self) hrest span hspan

theorem apart_join {last : Span α} {spans : List (Span α)}
    (hsorted : spans.Pairwise fun a b => a.start ≤ b.start) : Apart (join last spans) := by
  induction spans generalizing last with
  | nil => exact List.pairwise_singleton _ _
  | cons next rest ih =>
    obtain ⟨hnext, hrest⟩ := List.pairwise_cons.mp hsorted
    rw [join]
    split
    · exact ih hrest
    · rename_i hgap
      refine List.pairwise_cons.mpr ⟨fun span hspan => ?_, ih hrest⟩
      exact (not_le.mp hgap).trans_le (start_le_join le_rfl hnext span hspan)

theorem apart_merge (spans : List (Span α)) : Apart (merge spans) := by
  have hsorted := Ordered.pairwise_sortBy Span.start spans
  unfold merge
  split
  · exact List.Pairwise.nil
  · rename_i first rest heq
    rw [heq] at hsorted
    exact apart_join (List.pairwise_cons.mp hsorted).2

/-- Every span lies within a merged one. -/
theorem exists_join {last : Span α} {spans : List (Span α)} {a : Span α}
    (h : a ∈ last :: spans) (hsorted : (last :: spans).Pairwise fun a b => a.start ≤ b.start) :
    ∃ m ∈ join last spans, a.Within m := by
  induction spans generalizing last a with
  | nil =>
    obtain rfl := List.mem_singleton.mp h
    exact ⟨a, List.mem_singleton_self a, Within.refl a⟩
  | cons next rest ih =>
    obtain ⟨hlast, htail⟩ := List.pairwise_cons.mp hsorted
    obtain ⟨hnext, hrest⟩ := List.pairwise_cons.mp htail
    rw [join]
    split
    · have hgrown : ((⟨last.start, max last.finish next.finish⟩ : Span α) :: rest).Pairwise
          fun a b => a.start ≤ b.start :=
        List.pairwise_cons.mpr ⟨fun b hb => hlast b (List.mem_cons_of_mem _ hb), hrest⟩
      obtain ⟨m, hm, hwithin⟩ := ih List.mem_cons_self hgrown
      rcases List.mem_cons.mp h with rfl | h
      · have hself : a.Within ⟨a.start, max a.finish next.finish⟩ := ⟨le_rfl, le_max_left _ _⟩
        exact ⟨m, hm, hself.trans hwithin⟩
      rcases List.mem_cons.mp h with rfl | h
      · have hself : a.Within ⟨last.start, max last.finish a.finish⟩ :=
          ⟨hlast a List.mem_cons_self, le_max_right _ _⟩
        exact ⟨m, hm, hself.trans hwithin⟩
      · exact ih (List.mem_cons_of_mem _ h) hgrown
    · rcases List.mem_cons.mp h with rfl | h
      · exact ⟨a, List.mem_cons_self, Within.refl a⟩
      · obtain ⟨m, hm, hwithin⟩ := ih h htail
        exact ⟨m, List.mem_cons_of_mem _ hm, hwithin⟩

theorem exists_merge {spans : List (Span α)} {a : Span α} (h : a ∈ spans) :
    ∃ m ∈ merge spans, a.Within m := by
  have hmem : a ∈ Ordered.sortBy Span.start spans := Ordered.mem_sortBy.mpr h
  have hsorted := Ordered.pairwise_sortBy Span.start spans
  unfold merge
  split
  · rename_i heq
    rw [heq] at hmem
    cases hmem
  · rename_i first rest heq
    rw [heq] at hmem hsorted
    exact exists_join hmem hsorted

theorem within_join {last : Span α} {spans blocks : List (Span α)} (hblocks : Apart blocks)
    (h : ∀ span ∈ last :: spans, span.start ≤ span.finish ∧ ∃ block ∈ blocks, span.Within block)
    (hsorted : (last :: spans).Pairwise fun a b => a.start ≤ b.start) :
    ∀ m ∈ join last spans, ∃ block ∈ blocks, m.Within block := by
  induction spans generalizing last with
  | nil =>
    intro m hm
    obtain rfl := List.mem_singleton.mp hm
    exact (h m List.mem_cons_self).2
  | cons next rest ih =>
    obtain ⟨hlast, htail⟩ := List.pairwise_cons.mp hsorted
    obtain ⟨hle, block, hblock, hin⟩ := h last List.mem_cons_self
    obtain ⟨hle', block', hblock', hin'⟩ := h next (List.mem_cons_of_mem _ List.mem_cons_self)
    rw [join]
    split
    · rename_i htouch
      have hnext := hlast next List.mem_cons_self
      -- the start of `next` lies in both blocks
      obtain rfl := hblocks.eq_of_touch hblock hblock'
        ⟨hin.1.trans hnext, htouch.trans hin.2⟩ ⟨hin'.1, hle'.trans hin'.2⟩
      refine ih (fun span hspan => ?_) (List.pairwise_cons.mpr
        ⟨fun b hb => hlast b (List.mem_cons_of_mem _ hb), (List.pairwise_cons.mp htail).2⟩)
      rcases List.mem_cons.mp hspan with rfl | hspan
      · exact ⟨hle.trans (le_max_left _ _), block, hblock, hin.1, max_le hin.2 hin'.2⟩
      · exact h span (List.mem_cons_of_mem _ (List.mem_cons_of_mem _ hspan))
    · intro m hm
      rcases List.mem_cons.mp hm with rfl | hm
      · exact ⟨block, hblock, hin⟩
      · exact ih (fun span hspan => h span (List.mem_cons_of_mem _ hspan)) htail m hm

/-- Merging keeps every span within one of a list with gaps. -/
theorem within_merge {spans blocks : List (Span α)} (hblocks : Apart blocks)
    (h : ∀ span ∈ spans, span.start ≤ span.finish ∧ ∃ block ∈ blocks, span.Within block) :
    ∀ m ∈ merge spans, ∃ block ∈ blocks, m.Within block := by
  have hsorted := Ordered.pairwise_sortBy Span.start spans
  have hmem : ∀ span ∈ Ordered.sortBy Span.start spans,
      span.start ≤ span.finish ∧ ∃ block ∈ blocks, span.Within block :=
    fun span hspan => h span (Ordered.mem_sortBy.mp hspan)
  unfold merge
  split
  · intro m hm
    cases hm
  · rename_i first rest heq
    rw [heq] at hsorted hmem
    exact within_join hblocks hmem hsorted

theorem join_within {last bounds : Span α} {spans : List (Span α)}
    (h : ∀ span ∈ last :: spans, span.Within bounds) :
    ∀ m ∈ join last spans, m.Within bounds := by
  induction spans generalizing last with
  | nil =>
    intro m hm
    obtain rfl := List.mem_singleton.mp hm
    exact h m List.mem_cons_self
  | cons next rest ih =>
    intro m hm
    rw [join] at hm
    split at hm
    · refine ih (fun span hspan => ?_) m hm
      rcases List.mem_cons.mp hspan with rfl | hspan
      · exact ⟨(h last List.mem_cons_self).1, max_le (h last List.mem_cons_self).2
          (h next (List.mem_cons_of_mem _ List.mem_cons_self)).2⟩
      · exact h span (List.mem_cons_of_mem _ (List.mem_cons_of_mem _ hspan))
    · rcases List.mem_cons.mp hm with rfl | hm
      · exact h m List.mem_cons_self
      · exact ih (fun span hspan => h span (List.mem_cons_of_mem _ hspan)) m hm

/-- Merging keeps every span within common bounds. -/
theorem merge_within {spans : List (Span α)} {bounds : Span α}
    (h : ∀ span ∈ spans, span.Within bounds) : ∀ m ∈ merge spans, m.Within bounds := by
  have hmem : ∀ span ∈ Ordered.sortBy Span.start spans, span.Within bounds :=
    fun span hspan => h span (Ordered.mem_sortBy.mp hspan)
  unfold merge
  split
  · intro m hm
    cases hm
  · rename_i first rest heq
    rw [heq] at hmem
    exact join_within hmem

theorem join_lt {last : Span α} {spans : List (Span α)}
    (h : ∀ span ∈ last :: spans, span.start < span.finish) :
    ∀ m ∈ join last spans, m.start < m.finish := by
  induction spans generalizing last with
  | nil =>
    intro m hm
    obtain rfl := List.mem_singleton.mp hm
    exact h m List.mem_cons_self
  | cons next rest ih =>
    intro m hm
    rw [join] at hm
    split at hm
    · refine ih (fun span hspan => ?_) m hm
      rcases List.mem_cons.mp hspan with rfl | hspan
      · exact (h last List.mem_cons_self).trans_le (le_max_left _ _)
      · exact h span (List.mem_cons_of_mem _ (List.mem_cons_of_mem _ hspan))
    · rcases List.mem_cons.mp hm with rfl | hm
      · exact h m List.mem_cons_self
      · exact ih (fun span hspan => h span (List.mem_cons_of_mem _ hspan)) m hm

/-- Merging spans with a length gives spans with a length. -/
theorem merge_lt {spans : List (Span α)} (h : ∀ span ∈ spans, span.start < span.finish) :
    ∀ m ∈ merge spans, m.start < m.finish := by
  have hmem : ∀ span ∈ Ordered.sortBy Span.start spans, span.start < span.finish :=
    fun span hspan => h span (Ordered.mem_sortBy.mp hspan)
  unfold merge
  split
  · intro m hm
    cases hm
  · rename_i first rest heq
    rw [heq] at hmem
    exact join_lt hmem

/-! ## Intersecting -/

theorem mem_clips {first second : List (Span α)} {c : Span α} :
    c ∈ (first.flatMap fun a => second.filterMap (clip a)) ↔
      ∃ a ∈ first, ∃ b ∈ second, clip a b = some c := by
  simp only [List.mem_flatMap, List.mem_filterMap]

theorem intersect_lt (first second : List (Span α)) :
    ∀ m ∈ intersect first second, m.start < m.finish := by
  refine merge_lt fun span hspan => ?_
  obtain ⟨a, -, b, -, hclip⟩ := mem_clips.mp hspan
  exact clip_lt hclip

/-- An intersection stays within the spans of a list with gaps. -/
theorem within_intersect {first second : List (Span α)} (h : Apart first) :
    ∀ m ∈ intersect first second, ∃ a ∈ first, m.Within a := by
  refine within_merge h fun span hspan => ?_
  obtain ⟨a, ha, b, -, hclip⟩ := mem_clips.mp hspan
  exact ⟨(clip_lt hclip).le, a, ha, (clip_within hclip).1⟩

theorem apart_intersect (first second : List (Span α)) : Apart (intersect first second) :=
  apart_merge _

/-- A span within the bounds is found again in the intersection with them. -/
theorem exists_intersect_bounds {spans : List (Span α)} {bounds a : Span α} (h : a ∈ spans)
    (hin : a.Within bounds) (hlt : a.start < a.finish) :
    ∃ m ∈ intersect spans [bounds], a.Within m :=
  exists_merge (mem_clips.mpr
    ⟨a, h, bounds, List.mem_singleton_self bounds, clip_of_within hin hlt⟩)

end Span
