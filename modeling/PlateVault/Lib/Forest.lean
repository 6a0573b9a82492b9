import Mathlib.Logic.Relation
import Mathlib.Order.WellFounded
import Mathlib.Order.MinMax

/-!
# Disjoint sets by parent pointers

A forest is a map from elements to smaller parents, so following the pointers ends. Each element's
root is the smallest element of its set, and joining two elements hangs the larger of their roots
below the smaller. `Joins R` says that the sets of a forest are the classes `R` generates.
-/

/-- Parent pointers that descend. -/
structure Forest (α : Type*) [LT α] where
  parent : α → Option α
  descends : ∀ a b, parent a = some b → b < a

namespace Forest

variable {α : Type*}

def empty [LT α] : Forest α := ⟨fun _ => none, fun _ _ h => by cases h⟩

variable [LinearOrder α]

/-- Follow the parents to the last one. -/
def root [WellFoundedLT α] (f : Forest α) (a : α) : α :=
  match _h : f.parent a with
  | some b => f.root b
  | none => a
termination_by wellFounded_lt.wrap a
decreasing_by exact f.descends a b ‹_›

variable [WellFoundedLT α]

theorem root_of_parent {f : Forest α} {a b : α} (h : f.parent a = some b) : f.root a = f.root b := by
  rw [root]
  split
  · next c hc =>
    rw [h] at hc
    cases hc
    rfl
  · next hnone =>
    rw [h] at hnone
    cases hnone

theorem root_of_none {f : Forest α} {a : α} (h : f.parent a = none) : f.root a = a := by
  rw [root]
  split
  · next c hc =>
    rw [h] at hc
    cases hc
  · rfl

theorem root_le (f : Forest α) (a : α) : f.root a ≤ a := by
  induction a using WellFoundedLT.induction with
  | ind a ih =>
    cases h : f.parent a with
    | none => exact (root_of_none h).le
    | some b =>
      rw [root_of_parent h]
      exact (ih b (f.descends a b h)).trans (f.descends a b h).le

/-- A root has no parent. -/
theorem parent_root (f : Forest α) (a : α) : f.parent (f.root a) = none := by
  induction a using WellFoundedLT.induction with
  | ind a ih =>
    cases h : f.parent a with
    | none => rwa [root_of_none h]
    | some b =>
      rw [root_of_parent h]
      exact ih b (f.descends a b h)

@[simp] theorem root_root (f : Forest α) (a : α) : f.root (f.root a) = f.root a :=
  root_of_none (f.parent_root a)

@[simp] theorem root_empty (a : α) : (empty : Forest α).root a = a := root_of_none rfl

/-- Hang the larger root below the smaller. -/
def join (f : Forest α) (a b : α) : Forest α :=
  if h : f.root a = f.root b then f
  else
    { parent := fun x =>
        if x = max (f.root a) (f.root b) then some (min (f.root a) (f.root b)) else f.parent x
      descends := fun x y hparent => by
        split at hparent
        · next hx =>
          cases hparent
          rw [hx]
          exact min_lt_max.mpr h
        · exact f.descends x y hparent }

/-- An element of either set gets the smaller of their roots, and the others keep theirs. -/
theorem root_join (f : Forest α) (a b x : α) :
    (f.join a b).root x = if f.root x = f.root a ∨ f.root x = f.root b
      then min (f.root a) (f.root b) else f.root x := by
  by_cases hroots : f.root a = f.root b
  · have hsame : f.join a b = f := dif_pos hroots
    rw [hsame]
    split
    · next hx =>
      rw [hroots, or_self] at hx
      rw [hroots, min_self, hx]
    · rfl
  · have hparent : ∀ y, (f.join a b).parent y =
        if y = max (f.root a) (f.root b) then some (min (f.root a) (f.root b)) else f.parent y := by
      intro y
      unfold join
      rw [dif_neg hroots]
    have hmin : (f.join a b).root (min (f.root a) (f.root b)) = min (f.root a) (f.root b) := by
      apply root_of_none
      rw [hparent, if_neg (min_lt_max.mpr hroots).ne]
      rcases min_choice (f.root a) (f.root b) with h | h <;> rw [h]
      · exact f.parent_root a
      · exact f.parent_root b
    have hset : ∀ r, f.root r = r → (r = max (f.root a) (f.root b) ∨ r = min (f.root a) (f.root b)) →
        f.root r = f.root a ∨ f.root r = f.root b := by
      rintro r hr (rfl | rfl)
      · rw [hr]
        exact max_choice _ _
      · rw [hr]
        exact min_choice _ _
    induction x using WellFoundedLT.induction with
    | ind x ih =>
      have hx := hparent x
      by_cases hmax : x = max (f.root a) (f.root b)
      · rw [if_pos hmax] at hx
        rw [root_of_parent hx, hmin]
        have hself : f.root x = x := by
          rcases max_choice (f.root a) (f.root b) with h | h
          · rw [hmax, h, root_root]
          · rw [hmax, h, root_root]
        rw [if_pos (hset x hself (.inl hmax))]
      · rw [if_neg hmax] at hx
        cases hold : f.parent x with
        | some y =>
          rw [hold] at hx
          rw [root_of_parent hx, root_of_parent hold]
          exact ih y (f.descends x y hold)
        | none =>
          rw [hold] at hx
          rw [root_of_none hx, root_of_none hold]
          split
          · next hmem =>
            rcases le_total (f.root a) (f.root b) with hle | hle
            · rw [max_eq_right hle] at hmax
              rw [min_eq_left hle]
              exact hmem.resolve_right hmax
            · rw [max_eq_left hle] at hmax
              rw [min_eq_right hle]
              exact hmem.resolve_left hmax
          · rfl

theorem root_join_self (f : Forest α) (a b : α) : (f.join a b).root a = (f.join a b).root b := by
  rw [root_join, root_join, if_pos (.inl rfl), if_pos (.inr rfl)]

/-- Joining separates no elements. -/
theorem root_join_of_eq {f : Forest α} {x y : α} (h : f.root x = f.root y) (a b : α) :
    (f.join a b).root x = (f.join a b).root y := by
  rw [root_join, root_join, h]

/-- What a join brings together was related, or is an element of each set. -/
theorem of_root_join {f : Forest α} {a b x y : α} (h : (f.join a b).root x = (f.join a b).root y) :
    f.root x = f.root y ∨ ((f.root x = f.root a ∨ f.root x = f.root b) ∧
      (f.root y = f.root a ∨ f.root y = f.root b)) := by
  rw [root_join, root_join] at h
  have hmin : ∀ z, min (f.root a) (f.root b) = f.root z → f.root z = f.root a ∨ f.root z = f.root b := by
    intro z hz
    rw [← hz]
    exact min_choice _ _
  split at h
  · next hx =>
    split at h
    · next hy => exact .inr ⟨hx, hy⟩
    · exact .inr ⟨hx, hmin y h⟩
  · split at h
    · next hy => exact .inr ⟨hmin x h.symm, hy⟩
    · exact .inl h

/-! ## The sets as classes -/

/-- The forest brings together only what `R` relates. -/
def Within (R : α → α → Prop) (f : Forest α) : Prop := ∀ x y, f.root x = f.root y → R x y

theorem Within.empty {R : α → α → Prop} (hR : ∀ x, R x x) : Within R (.empty : Forest α) := by
  intro x y h
  rw [root_empty, root_empty] at h
  exact h ▸ hR x

theorem Within.join {R : α → α → Prop} (hR : Equivalence R) {f : Forest α} (h : Within R f)
    {a b : α} (hab : R a b) : Within R (f.join a b) := by
  intro x y hxy
  have hside : ∀ z, f.root z = f.root a ∨ f.root z = f.root b → R z a := by
    rintro z (hz | hz)
    · exact h z a hz
    · exact hR.trans (h z b hz) (hR.symm hab)
  rcases of_root_join hxy with hold | ⟨hx, hy⟩
  · exact h x y hold
  · exact hR.trans (hside x hx) (hR.symm (hside y hy))

/-! ## Joining a list of pairs -/

def joinAll (f : Forest α) (pairs : List (α × α)) : Forest α :=
  pairs.foldl (fun f pair => f.join pair.1 pair.2) f

theorem root_joinAll_of_eq {f : Forest α} {x y : α} (h : f.root x = f.root y) (pairs : List (α × α)) :
    (f.joinAll pairs).root x = (f.joinAll pairs).root y := by
  induction pairs generalizing f with
  | nil => exact h
  | cons pair pairs ih => exact ih (root_join_of_eq h pair.1 pair.2)

theorem root_joinAll_of_mem {f : Forest α} {pairs : List (α × α)} {a b : α} (h : (a, b) ∈ pairs) :
    (f.joinAll pairs).root a = (f.joinAll pairs).root b := by
  induction pairs generalizing f with
  | nil => cases h
  | cons pair pairs ih =>
    rcases List.mem_cons.mp h with rfl | h
    · exact root_joinAll_of_eq (root_join_self f a b) pairs
    · exact ih h

theorem Within.joinAll {R : α → α → Prop} (hR : Equivalence R) {f : Forest α} (h : Within R f)
    {pairs : List (α × α)} (hpairs : ∀ pair ∈ pairs, R pair.1 pair.2) : Within R (f.joinAll pairs) := by
  induction pairs generalizing f with
  | nil => exact h
  | cons pair pairs ih =>
    exact ih (h.join hR (hpairs pair List.mem_cons_self)) fun other hother =>
      hpairs other (List.mem_cons_of_mem _ hother)

/-- Neighbours of a list, all in one set once they are joined. -/
theorem root_joinAll_zip_tail {f : Forest α} {l : List α} {x y : α} (hx : x ∈ l) (hy : y ∈ l) :
    (f.joinAll (l.zip l.tail)).root x = (f.joinAll (l.zip l.tail)).root y := by
  obtain ⟨a, rest, rfl⟩ : ∃ a rest, l = a :: rest := by
    cases l with
    | nil => cases hx
    | cons a rest => exact ⟨a, rest, rfl⟩
  have hall : ∀ z ∈ a :: rest, (f.joinAll ((a :: rest).zip rest)).root z =
      (f.joinAll ((a :: rest).zip rest)).root a := by
    clear hx hy
    induction rest generalizing a f with
    | nil =>
      intro z hz
      rw [List.mem_singleton.mp hz]
    | cons b rest ih =>
      have hab : (f.joinAll ((a :: b :: rest).zip (b :: rest))).root a =
          (f.joinAll ((a :: b :: rest).zip (b :: rest))).root b :=
        root_joinAll_of_mem (by simp)
      intro z hz
      rcases List.mem_cons.mp hz with rfl | hz
      · rfl
      · rw [hab]
        exact ih (f := f.join a b) b z hz
  exact (hall x hx).trans (hall y hy).symm

end Forest
