import Mathlib.Data.List.Sort
import Mathlib.Data.List.Dedup
import Mathlib.Data.List.MinMax
import Mathlib.Data.Prod.Lex

/-!
# Lists in order

`ascending` is a list's elements as an ordered set holds them: each once, smallest first. `sortBy`
orders a list by a key. Both depend only on the elements, not on their order, as long as no two keys
agree.
-/

namespace Ordered

section Ascending

variable {α : Type*} [LinearOrder α]

/-- The elements of an ordered set built from `l`. -/
def ascending (l : List α) : List α := l.dedup.insertionSort (· ≤ ·)

@[simp] theorem mem_ascending {l : List α} {a : α} : a ∈ ascending l ↔ a ∈ l := by
  simp [ascending, List.mem_insertionSort]

theorem nodup_ascending (l : List α) : (ascending l).Nodup :=
  (List.perm_insertionSort _ _).nodup_iff.mpr (List.nodup_dedup l)

theorem pairwise_ascending (l : List α) : (ascending l).Pairwise (· < ·) := by
  have hle : (ascending l).Pairwise (· ≤ ·) := List.pairwise_insertionSort _ _
  exact (hle.and (nodup_ascending l)).imp fun h => lt_of_le_of_ne h.1 h.2

/-- A strictly ascending list is the ordered set of its elements. -/
theorem eq_ascending {l l' : List α} (h : l.Pairwise (· < ·)) (hmem : ∀ a, a ∈ l ↔ a ∈ l') :
    l = ascending l' :=
  h.eq_of_mem_iff (pairwise_ascending l') fun a => (hmem a).trans mem_ascending.symm

/-- Only the elements matter. -/
theorem ascending_congr {l l' : List α} (h : ∀ a, a ∈ l ↔ a ∈ l') : ascending l = ascending l' :=
  eq_ascending (pairwise_ascending l) fun a => mem_ascending.trans (h a)

@[simp] theorem ascending_eq_nil {l : List α} : ascending l = [] ↔ l = [] := by
  simp only [List.eq_nil_iff_forall_not_mem, mem_ascending]

end Ascending

section SortBy

variable {α κ : Type*} [LinearOrder κ]

/-- The list ordered by `key`; equal keys keep their order. -/
def sortBy (key : α → κ) (l : List α) : List α := l.insertionSort fun a b => key a ≤ key b

theorem perm_sortBy (key : α → κ) (l : List α) : (sortBy key l).Perm l :=
  List.perm_insertionSort _ l

@[simp] theorem mem_sortBy {key : α → κ} {l : List α} {a : α} : a ∈ sortBy key l ↔ a ∈ l :=
  (perm_sortBy key l).mem_iff

theorem pairwise_sortBy (key : α → κ) (l : List α) :
    (sortBy key l).Pairwise fun a b => key a ≤ key b := by
  have : Std.Total fun a b : α => key a ≤ key b := ⟨fun a b => le_total (key a) (key b)⟩
  have : IsTrans α fun a b => key a ≤ key b := ⟨fun _ _ _ => le_trans⟩
  exact List.pairwise_insertionSort _ l

/-- Where no two keys agree the order is strict. -/
theorem pairwise_sortBy_lt {key : α → κ} {l : List α} (h : l.Pairwise fun a b => key a ≠ key b) :
    (sortBy key l).Pairwise fun a b => key a < key b := by
  have hne : (sortBy key l).Pairwise fun a b => key a ≠ key b :=
    (perm_sortBy key l).symm.pairwise h Ne.symm
  exact ((pairwise_sortBy key l).and hne).imp fun h => lt_of_le_of_ne h.1 h.2

/-- A list whose keys rise is the sorted one of any list with its elements. -/
theorem eq_sortBy {key : α → κ} {l l' : List α} (h : l.Pairwise fun a b => key a < key b)
    (hperm : l.Perm l') : l = sortBy key l' := by
  have hne : l'.Pairwise fun a b => key a ≠ key b :=
    hperm.pairwise (h.imp fun h => h.ne) Ne.symm
  have : Std.Irrefl fun a b : α => key a < key b := ⟨fun a => lt_irrefl (key a)⟩
  refine h.eq_of_mem_iff (pairwise_sortBy_lt hne) fun a => ?_
  rw [mem_sortBy, hperm.mem_iff]

/-- Only the elements matter where no two keys agree. -/
theorem sortBy_congr {key : α → κ} {l l' : List α} (h : l.Pairwise fun a b => key a ≠ key b)
    (hperm : l.Perm l') : sortBy key l = sortBy key l' :=
  eq_sortBy (pairwise_sortBy_lt h) ((perm_sortBy key l).trans hperm)

end SortBy

/-! ## Missing values last -/

section KnownFirst

variable {α : Type*} [LinearOrder α]

/-- Known values by their order, before the missing ones. -/
def knownFirst : (left right : Option α) → Ordering
  | some a, some b => compare a b
  | some _, none => .lt
  | none, some _ => .gt
  | none, none => .eq

/-- A missing value read as the top. -/
def orTop (a : Option α) : WithTop α := a

omit [LinearOrder α] in
@[simp] theorem orTop_none : orTop (none : Option α) = ⊤ := rfl

omit [LinearOrder α] in
@[simp] theorem orTop_some (a : α) : orTop (some a) = (a : WithTop α) := rfl

theorem compare_coe (a b : α) : compare (a : WithTop α) (b : WithTop α) = compare a b := by
  rcases lt_trichotomy a b with h | rfl | h
  · rw [compare_lt_iff_lt.mpr h, compare_lt_iff_lt.mpr (WithTop.coe_lt_coe.mpr h)]
  · rw [compare_eq_iff_eq.mpr rfl, compare_eq_iff_eq.mpr rfl]
  · rw [compare_gt_iff_gt.mpr h, compare_gt_iff_gt.mpr (WithTop.coe_lt_coe.mpr h)]

theorem knownFirst_eq_compare (left right : Option α) :
    knownFirst left right = compare (orTop left) (orTop right) := by
  symm
  cases left with
  | none =>
    cases right with
    | none => exact compare_eq_iff_eq.mpr rfl
    | some b =>
      rw [orTop_none, orTop_some, knownFirst, compare_gt_iff_gt]
      exact WithTop.coe_lt_top b
  | some a =>
    cases right with
    | none =>
      rw [orTop_none, orTop_some, knownFirst, compare_lt_iff_lt]
      exact WithTop.coe_lt_top a
    | some b => exact compare_coe a b

end KnownFirst

/-- Pairs compare by their first parts, then by their second. -/
theorem compare_toLex {α β : Type*} [LinearOrder α] [LinearOrder β] (a a' : α) (b b' : β) :
    compare (toLex (a, b)) (toLex (a', b')) = (compare a a').then (compare b b') := by
  rw [Prod.Lex.compare_def]
  rfl

/-! ## The greatest -/

section MaxBy

variable {α : Type*} {cmp : α → α → Ordering}

/-- The greatest element, of equal ones the last. -/
def maxBy (cmp : α → α → Ordering) : List α → Option α
  | [] => none
  | a :: as => some (as.foldl (fun best a => if cmp best a = .gt then best else a) a)

/-- The least element, of equal ones the first. -/
def minBy (cmp : α → α → Ordering) : List α → Option α
  | [] => none
  | a :: as => some (as.foldl (fun best a => if cmp best a = .gt then a else best) a)

@[simp] theorem maxBy_eq_none {as : List α} : maxBy cmp as = none ↔ as = [] := by
  cases as <;> simp [maxBy]

end MaxBy

/-! ## The first of each key -/

section Firsts

variable {α κ : Type*} [DecidableEq κ]

/-- Keep, of the elements with one key, the first. -/
def firsts (key : α → κ) : List α → List α
  | [] => []
  | a :: l => a :: (firsts key l).filter fun b => key b ≠ key a

theorem firsts_subset {key : α → κ} {l : List α} {a : α} (h : a ∈ firsts key l) : a ∈ l := by
  induction l with
  | nil => exact h
  | cons b l ih =>
    rw [firsts, List.mem_cons] at h
    rcases h with rfl | h
    · exact List.mem_cons_self
    · exact List.mem_cons_of_mem _ (ih (List.mem_filter.mp h).1)

theorem nodup_firsts (key : α → κ) (l : List α) : ((firsts key l).map key).Nodup := by
  induction l with
  | nil => exact List.nodup_nil
  | cons b l ih =>
    rw [firsts, List.map_cons, List.nodup_cons]
    refine ⟨fun h => ?_, ih.sublist (List.filter_sublist.map key)⟩
    obtain ⟨a, ha, hkey⟩ := List.mem_map.mp h
    have := (List.mem_filter.mp ha).2
    simp [hkey] at this

/-- Every key of the list is kept. -/
theorem exists_mem_firsts {key : α → κ} {l : List α} {a : α} (h : a ∈ l) :
    ∃ b ∈ firsts key l, key b = key a := by
  induction l with
  | nil => cases h
  | cons c l ih =>
    rw [firsts]
    by_cases hkey : key c = key a
    · exact ⟨c, List.mem_cons_self, hkey⟩
    · rcases List.mem_cons.mp h with rfl | h
      · exact absurd rfl hkey
      · obtain ⟨b, hb, hba⟩ := ih h
        refine ⟨b, List.mem_cons_of_mem _ (List.mem_filter.mpr ⟨hb, ?_⟩), hba⟩
        simpa [hba] using Ne.symm hkey

end Firsts

/-! ## Positions -/

/-- A position in a list splits it. -/
theorem split_of_getElem? {α : Type*} {l : List α} {i : Nat} {a : α} (h : l[i]? = some a) :
    ∃ front back, l = front ++ a :: back ∧ front.length = i := by
  obtain ⟨hi, rfl⟩ := List.getElem?_eq_some_iff.mp h
  refine ⟨l.take i, l.drop (i + 1), ?_, by simp [hi.le]⟩
  rw [← List.drop_eq_getElem_cons hi, List.take_append_drop]

theorem modify_split {α : Type*} (front back : List α) (a : α) (f : α → α) :
    (front ++ a :: back).modify front.length f = front ++ f a :: back := by
  induction front with
  | nil => rfl
  | cons b front ih => simpa using ih

end Ordered
