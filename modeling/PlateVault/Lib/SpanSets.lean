import Mathlib.Order.Interval.Set.Basic
import PlateVault.Lib.Spans

/-!
# Spans as sets of points

A list of spans covers the points from the start of one of them to before its end. Merging covers
what the list covers, and the algebra of lists is the one of the sets: union, intersection, and the
difference from the bounds. Each operation lists spans with a length, in order, with a gap between
any two.
-/

namespace Span

variable {α : Type*} [LinearOrder α]

/-- The points the spans cover. -/
def points (spans : List (Span α)) : Set α := {x | ∃ span ∈ spans, x ∈ Set.Ico span.start span.finish}

/-- Spans with a length, each ending before the next one starts or where it does. -/
structure Tidy (spans : List (Span α)) : Prop where
  sorted : spans.Pairwise fun a b => a.finish ≤ b.start
  lt : ∀ span ∈ spans, span.start < span.finish

theorem Apart.tidy {spans : List (Span α)} (h : Apart spans)
    (hlt : ∀ span ∈ spans, span.start < span.finish) : Tidy spans := ⟨h.imp fun h => h.le, hlt⟩

theorem mem_points {spans : List (Span α)} {x : α} :
    x ∈ points spans ↔ ∃ span ∈ spans, span.start ≤ x ∧ x < span.finish := Iff.rfl

@[simp] theorem points_nil : points ([] : List (Span α)) = ∅ := by
  ext x
  simp [mem_points]

@[simp] theorem points_cons (span : Span α) (spans : List (Span α)) :
    points (span :: spans) = Set.Ico span.start span.finish ∪ points spans := by
  ext x
  simp [mem_points]

@[simp] theorem points_append (first second : List (Span α)) :
    points (first ++ second) = points first ∪ points second := by
  induction first with
  | nil => simp
  | cons span first ih => rw [List.cons_append, points_cons, points_cons, ih, Set.union_assoc]

theorem points_congr {first second : List (Span α)} (h : ∀ span, span ∈ first ↔ span ∈ second) :
    points first = points second := by
  ext x
  simp only [mem_points, h]

/-! ## Merging -/

theorem points_join {last : Span α} {spans : List (Span α)}
    (hsorted : (last :: spans).Pairwise fun a b => a.start ≤ b.start) :
    points (join last spans) = points (last :: spans) := by
  induction spans generalizing last with
  | nil => rfl
  | cons next rest ih =>
    obtain ⟨hlast, htail⟩ := List.pairwise_cons.mp hsorted
    rw [join]
    split
    · rename_i htouch
      have hgrown : ((⟨last.start, max last.finish next.finish⟩ : Span α) :: rest).Pairwise
          fun a b => a.start ≤ b.start :=
        List.pairwise_cons.mpr ⟨fun b hb => hlast b (List.mem_cons_of_mem _ hb),
          (List.pairwise_cons.mp htail).2⟩
      have hnext := hlast next List.mem_cons_self
      -- two spans that touch cover one stretch
      have hone : Set.Ico last.start (max last.finish next.finish) =
          Set.Ico last.start last.finish ∪ Set.Ico next.start next.finish := by
        ext x
        simp only [Set.mem_Ico, Set.mem_union, lt_max_iff]
        constructor
        · rintro ⟨hx, hx' | hx'⟩
          · exact .inl ⟨hx, hx'⟩
          · by_cases hin : x < last.finish
            · exact .inl ⟨hx, hin⟩
            · exact .inr ⟨htouch.trans (not_lt.mp hin), hx'⟩
        · rintro (⟨hx, hx'⟩ | ⟨hx, hx'⟩)
          · exact ⟨hx, .inl hx'⟩
          · exact ⟨hnext.trans hx, .inr hx'⟩
      rw [ih hgrown, points_cons, points_cons, points_cons, hone, Set.union_assoc]
    · rw [points_cons, ih htail, points_cons last]

theorem points_merge (spans : List (Span α)) : points (merge spans) = points spans := by
  have hsorted := Ordered.pairwise_sortBy Span.start spans
  have hsame : points (Ordered.sortBy Span.start spans) = points spans :=
    points_congr fun span => Ordered.mem_sortBy
  rw [← hsame]
  unfold merge
  split
  · rename_i heq
    rw [heq]
  · rename_i first rest heq
    rw [heq] at hsorted ⊢
    exact points_join hsorted

theorem tidy_merge {spans : List (Span α)} (h : ∀ span ∈ spans, span.start < span.finish) :
    Tidy (merge spans) := (apart_merge spans).tidy (merge_lt h)

/-! ## Union -/

theorem points_union (first second : List (Span α)) :
    points (union first second) = points first ∪ points second := by
  rw [union, points_merge, points_append]

theorem tidy_union {first second : List (Span α)} (h : Tidy first) (h' : Tidy second) :
    Tidy (union first second) := by
  apply tidy_merge
  intro span hspan
  rcases List.mem_append.mp hspan with hspan | hspan
  · exact h.lt span hspan
  · exact h'.lt span hspan

/-! ## Intersection -/

theorem mem_clip {a b : Span α} {x : α} :
    (∃ span, clip a b = some span ∧ span.start ≤ x ∧ x < span.finish) ↔
      (a.start ≤ x ∧ x < a.finish) ∧ b.start ≤ x ∧ x < b.finish := by
  unfold clip
  simp only
  split
  · simp only [Option.some.injEq, exists_eq_left', max_le_iff, lt_min_iff]
    exact ⟨fun h => ⟨⟨h.1.1, h.2.1⟩, h.1.2, h.2.2⟩, fun h => ⟨⟨h.1.1, h.2.1⟩, h.1.2, h.2.2⟩⟩
  · rename_i hempty
    simp only [reduceCtorEq, false_and, exists_false, false_iff]
    intro h
    apply hempty
    exact (max_le h.1.1 h.2.1).trans_lt (lt_min h.1.2 h.2.2)

theorem points_intersect (first second : List (Span α)) :
    points (intersect first second) = points first ∩ points second := by
  rw [intersect, points_merge]
  ext x
  simp only [mem_points, mem_clips, Set.mem_inter_iff]
  constructor
  · rintro ⟨span, ⟨a, ha, b, hb, hclip⟩, hx⟩
    obtain ⟨hxa, hxb⟩ := mem_clip.mp ⟨span, hclip, hx⟩
    exact ⟨⟨a, ha, hxa⟩, b, hb, hxb⟩
  · rintro ⟨⟨a, ha, hxa⟩, b, hb, hxb⟩
    obtain ⟨span, hclip, hx⟩ := mem_clip.mpr ⟨hxa, hxb⟩
    exact ⟨span, ⟨a, ha, b, hb, hclip⟩, hx⟩

theorem tidy_intersect (first second : List (Span α)) : Tidy (intersect first second) :=
  (apart_intersect first second).tidy (intersect_lt first second)

/-- An intersection stays within the spans of the second list too, where that one has gaps. -/
theorem within_intersect_right {first second : List (Span α)} (h : Apart second) :
    ∀ m ∈ intersect first second, ∃ b ∈ second, m.Within b := by
  refine within_merge h fun span hspan => ?_
  obtain ⟨a, -, b, hb, hclip⟩ := mem_clips.mp hspan
  exact ⟨(clip_lt hclip).le, b, hb, (clip_within hclip).2⟩

/-! ## Complement -/

theorem start_le_gaps {finish : α} {spans : List (Span α)} {cursor : α} :
    ∀ gap ∈ gaps finish cursor spans, cursor ≤ gap.start := by
  induction spans generalizing cursor with
  | nil =>
    intro gap hgap
    rw [gaps] at hgap
    split at hgap
    · obtain rfl := List.mem_singleton.mp hgap
      exact le_rfl
    · cases hgap
  | cons span rest ih =>
    intro gap hgap
    rw [gaps] at hgap
    rcases List.mem_append.mp hgap with hgap | hgap
    · split at hgap
      · obtain rfl := List.mem_singleton.mp hgap
        exact le_rfl
      · cases hgap
    · exact (le_max_left _ _).trans (ih gap hgap)

theorem apart_gaps {finish : α} {spans : List (Span α)} {cursor : α}
    (h : ∀ span ∈ spans, span.start < span.finish) : Apart (gaps finish cursor spans) := by
  induction spans generalizing cursor with
  | nil =>
    rw [gaps]
    split
    · exact List.pairwise_singleton _ _
    · exact List.Pairwise.nil
  | cons span rest ih =>
    have hrest := @ih (max cursor span.finish) fun other hother =>
      h other (List.mem_cons_of_mem _ hother)
    rw [gaps]
    split
    · refine List.pairwise_cons.mpr ⟨fun gap hgap => ?_, hrest⟩
      have hspan := (h span List.mem_cons_self).trans_le (le_max_right cursor span.finish)
      exact hspan.trans_le (start_le_gaps gap hgap)
    · exact hrest

theorem gaps_lt {finish : α} {spans : List (Span α)} {cursor : α} :
    ∀ gap ∈ gaps finish cursor spans, gap.start < gap.finish := by
  induction spans generalizing cursor with
  | nil =>
    intro gap hgap
    rw [gaps] at hgap
    split at hgap
    · obtain rfl := List.mem_singleton.mp hgap
      assumption
    · cases hgap
  | cons span rest ih =>
    intro gap hgap
    rw [gaps] at hgap
    rcases List.mem_append.mp hgap with hgap | hgap
    · split at hgap
      · obtain rfl := List.mem_singleton.mp hgap
        assumption
      · cases hgap
    · exact ih gap hgap

/-- From the cursor to the end, the gaps cover what the spans do not. -/
theorem mem_gaps {finish cursor x : α} {spans : List (Span α)}
    (hsorted : spans.Pairwise fun a b => a.finish ≤ b.start)
    (hlt : ∀ span ∈ spans, span.start < span.finish) (hcursor : cursor ≤ x) (hx : x < finish) :
    x ∈ points (gaps finish cursor spans) ↔ x ∉ points spans := by
  induction spans generalizing cursor with
  | nil =>
    rw [gaps, if_pos (hcursor.trans_lt hx)]
    simp [hcursor, hx]
  | cons span rest ih =>
    obtain ⟨hspan, hrest⟩ := List.pairwise_cons.mp hsorted
    have hlt' : ∀ other ∈ rest, other.start < other.finish := fun other hother =>
      hlt other (List.mem_cons_of_mem _ hother)
    have hfirst := hlt span List.mem_cons_self
    rw [gaps, points_append, points_cons, Set.mem_union, Set.mem_union, Set.mem_Ico, not_or]
    by_cases hafter : max cursor span.finish ≤ x
    · have hpast := (max_le_iff.mp hafter).2
      rw [ih hrest hlt' hafter]
      constructor
      · rintro (hgap | hrest)
        · split at hgap
          · simp only [points_cons, points_nil, Set.union_empty, Set.mem_Ico] at hgap
            exact absurd (hfirst.trans_le hpast) hgap.2.not_gt
          · simp at hgap
        · exact ⟨fun h => absurd h.2 hpast.not_gt, hrest⟩
      · exact fun h => .inr h.2
    · have hbefore : x < span.finish := by
        rw [max_le_iff, not_and] at hafter
        exact not_le.mp (hafter hcursor)
      have hnone : x ∉ points rest := by
        rintro ⟨other, hother, hx'⟩
        exact absurd (hbefore.trans_le (hspan other hother)) hx'.1.not_gt
      have hnone' : x ∉ points (gaps finish (max cursor span.finish) rest) := by
        rintro ⟨gap, hgap, hx'⟩
        exact hafter ((start_le_gaps gap hgap).trans hx'.1)
      constructor
      · rintro (hgap | hgap)
        · split at hgap
          · simp only [points_cons, points_nil, Set.union_empty, Set.mem_Ico] at hgap
            exact ⟨fun h => absurd hgap.2 h.1.not_gt, hnone⟩
          · simp at hgap
        · exact absurd hgap hnone'
      · rintro ⟨hout, -⟩
        have hstart : x < span.start := by
          by_contra hle
          exact hout ⟨not_lt.mp hle, hbefore⟩
        rw [if_pos (hcursor.trans_lt hstart)]
        exact .inl ⟨_, List.mem_singleton_self _, hcursor, hstart⟩

/-- Where no span starts past the end, no gap reaches past it. -/
theorem gaps_finish_le {finish : α} {spans : List (Span α)} {cursor : α}
    (h : ∀ span ∈ spans, span.start ≤ finish) :
    ∀ gap ∈ gaps finish cursor spans, gap.finish ≤ finish := by
  induction spans generalizing cursor with
  | nil =>
    intro gap hgap
    rw [gaps] at hgap
    split at hgap
    · obtain rfl := List.mem_singleton.mp hgap
      exact le_rfl
    · cases hgap
  | cons span rest ih =>
    intro gap hgap
    rw [gaps] at hgap
    rcases List.mem_append.mp hgap with hgap | hgap
    · split at hgap
      · obtain rfl := List.mem_singleton.mp hgap
        exact h span List.mem_cons_self
      · cases hgap
    · exact ih (fun other hother => h other (List.mem_cons_of_mem _ hother)) gap hgap

theorem apart_complement {spans : List (Span α)}
    (h : ∀ span ∈ spans, span.start < span.finish) (bounds : Span α) :
    Apart (complement spans bounds) := apart_gaps h

theorem tidy_complement {spans : List (Span α)} (h : Tidy spans) (bounds : Span α) :
    Tidy (complement spans bounds) := (apart_complement h.lt bounds).tidy gaps_lt

theorem complement_within {spans : List (Span α)} {bounds : Span α}
    (h : ∀ span ∈ spans, span.start ≤ bounds.finish) :
    ∀ gap ∈ complement spans bounds, gap.Within bounds :=
  fun gap hgap => ⟨start_le_gaps gap hgap, gaps_finish_le h gap hgap⟩

/-- Within the bounds the complement covers what the spans do not. -/
theorem mem_complement {spans : List (Span α)} (h : Tidy spans) {bounds : Span α} {x : α}
    (hx : x ∈ Set.Ico bounds.start bounds.finish) :
    x ∈ points (complement spans bounds) ↔ x ∉ points spans :=
  mem_gaps h.sorted h.lt hx.1 hx.2

theorem points_complement {spans : List (Span α)} (h : Tidy spans) {bounds : Span α}
    (hbounds : ∀ span ∈ spans, span.start ≤ bounds.finish) :
    points (complement spans bounds) = Set.Ico bounds.start bounds.finish \ points spans := by
  ext x
  constructor
  · intro hx
    have ⟨gap, hgap, hx'⟩ := hx
    obtain ⟨hstart, hfinish⟩ := complement_within hbounds gap hgap
    have hin : x ∈ Set.Ico bounds.start bounds.finish :=
      ⟨hstart.trans hx'.1, hx'.2.trans_le hfinish⟩
    exact ⟨hin, (mem_complement h hin).mp hx⟩
  · rintro ⟨hin, hx⟩
    exact (mem_complement h hin).mpr hx

end Span
