import Mathlib.Data.List.Basic
import Mathlib.Logic.Function.Basic

/-!
# Claiming keys in order

A pass over a list in which each element that wants a key takes it, unless an earlier element has it
already: what is claimed after some elements is, for each key, what its first wanter left.
-/

namespace PlateVault

variable {α κ ν : Type*} [DecidableEq κ]

/-- What the elements of a list claimed: for each key, the value of the first that wants it. -/
def claims (wants : α → Option κ) (value : α → ν) (l : List α) (key : κ) : Option ν :=
  (l.find? fun x => wants x = some key).map value

/-- An element is the first of a list's elements to want a key. -/
def FirstToWant (wants : α → Option κ) (before : List α) (x : α) (key : κ) : Prop :=
  wants x = some key ∧ ∀ y ∈ before, wants y ≠ some key

namespace Claims

variable {wants : α → Option κ} {value : α → ν} {l : List α} {x : α} {key : κ}

@[simp] theorem nil : claims wants value [] = fun _ => none := rfl

theorem eq_none_iff : claims wants value l key = none ↔ ∀ x ∈ l, wants x ≠ some key := by
  simp [claims, List.find?_eq_none]

/-- What is claimed was left by an element that wants it, the first to. -/
theorem of_eq_some {left : ν} (h : claims wants value l key = some left) :
    ∃ before x after, l = before ++ x :: after ∧ FirstToWant wants before x key ∧
      value x = left := by
  obtain ⟨x, hfind, hvalue⟩ := Option.map_eq_some_iff.mp h
  obtain ⟨hwants, before, after, rfl, hnone⟩ := List.find?_eq_some_iff_append.mp hfind
  refine ⟨before, x, after, rfl, ⟨of_decide_eq_true hwants, fun y hy hkey => ?_⟩, hvalue⟩
  simpa [hkey] using hnone y hy

/-- The first to want a key has it. -/
theorem of_first (h : FirstToWant wants l x key) (more : List α) :
    claims wants value (l ++ x :: more) key = some (value x) := by
  have hnone : l.find? (fun y => decide (wants y = some key)) = none := by
    simpa [List.find?_eq_none] using h.2
  simp [claims, List.find?_append, hnone, h.1]

theorem find?_snoc (hx : wants x ≠ some key) :
    claims wants value (l ++ [x]) key = claims wants value l key := by
  simp [claims, List.find?_append, hx]

/-- A key nobody had goes to the element that wants it. -/
theorem snoc_of_free (hx : wants x = some key) (hfree : claims wants value l key = none) :
    claims wants value (l ++ [x]) = Function.update (claims wants value l) key (some (value x)) := by
  funext other
  by_cases hother : other = key
  · subst hother
    have hnone := Option.map_eq_none_iff.mp hfree
    simp [claims, List.find?_append, hnone, hx]
  · rw [Function.update_of_ne hother]
    exact find?_snoc fun hwants => hother (Option.some.inj (hwants.symm.trans hx))

/-- A key that is taken stays where it is. -/
theorem snoc_of_taken (hx : wants x = some key) (htaken : claims wants value l key ≠ none) :
    claims wants value (l ++ [x]) = claims wants value l := by
  funext other
  by_cases hother : other = key
  · subst hother
    obtain ⟨found, hfind⟩ := Option.ne_none_iff_exists'.mp fun h => htaken (Option.map_eq_none_iff.mpr h)
    simp [claims, List.find?_append, hfind]
  · exact find?_snoc fun hwants => hother (Option.some.inj (hwants.symm.trans hx))

theorem snoc_of_none (hx : wants x = none) :
    claims wants value (l ++ [x]) = claims wants value l := by
  funext key
  exact find?_snoc (by simp [hx])

/-- Of the elements that want a key, one is the first. -/
theorem exists_first (hx : wants x = some key) (hmem : x ∈ l) :
    ∃ before y after, l = before ++ y :: after ∧ FirstToWant wants before y key := by
  have hsome : claims wants id l key ≠ none := fun h => eq_none_iff.mp h x hmem hx
  obtain ⟨_, hleft⟩ := Option.ne_none_iff_exists'.mp hsome
  obtain ⟨before, y, after, hl, hfirst, -⟩ := of_eq_some hleft
  exact ⟨before, y, after, hl, hfirst⟩

end Claims

/-- Only one element of a list is the first to want a key. -/
theorem FirstToWant.unique {wants : α → Option κ} {key : κ} {before before' after after' : List α}
    {x x' : α} (h : FirstToWant wants before x key) (h' : FirstToWant wants before' x' key)
    (heq : before ++ x :: after = before' ++ x' :: after') :
    before = before' ∧ x = x' ∧ after = after' := by
  rcases List.append_eq_append_iff.mp heq with ⟨more, hbefore', hafter⟩ | ⟨more, hbefore, hafter⟩
  · cases more with
    | nil => simp_all
    | cons y more =>
      obtain ⟨rfl, -⟩ := List.cons_eq_cons.mp hafter
      exact absurd h.1 (h'.2 x (by simp [hbefore']))
  · cases more with
    | nil => simp_all
    | cons y more =>
      obtain ⟨rfl, -⟩ := List.cons_eq_cons.mp hafter
      exact absurd h'.1 (h.2 x' (by simp [hbefore]))

/-! ## Passes -/

/-- A pass gave each element of a list what `outcome` says, with the elements before it known. -/
inductive Scanned {β : Type*} (outcome : List α → α → β → Prop) :
    List α → List α → List β → Prop
  | nil {before : List α} : Scanned outcome before [] []
  | cons {before l : List α} {x : α} {y : β} {l' : List β} (head : outcome before x y)
      (tail : Scanned outcome (before ++ [x]) l l') : Scanned outcome before (x :: l) (y :: l')

namespace Scanned

variable {β γ : Type*} {outcome : List α → α → β → Prop} {before l : List α} {l' : List β}

theorem snoc {x : α} {y : β} (h : Scanned outcome before l l') (hx : outcome (before ++ l) x y) :
    Scanned outcome before (l ++ [x]) (l' ++ [y]) := by
  induction h with
  | nil => exact .cons (by simpa using hx) .nil
  | cons head _ ih => exact .cons head (ih (by simpa using hx))

/-- What an element was given. -/
theorem split {front back : List α} {x : α} (h : Scanned outcome before (front ++ x :: back) l') :
    ∃ front' y back', l' = front' ++ y :: back' ∧ Scanned outcome before front front' ∧
      outcome (before ++ front) x y ∧ Scanned outcome (before ++ front ++ [x]) back back' := by
  induction front generalizing before l' with
  | nil =>
    cases h with
    | cons head tail => exact ⟨[], _, _, rfl, .nil, by simpa using head, by simpa using tail⟩
  | cons z front ih =>
    cases h with
    | cons head tail =>
      obtain ⟨front', y, back', rfl, hfront, hy, hback⟩ := ih tail
      exact ⟨_ :: front', y, back', rfl, .cons head hfront, by simpa using hy, by simpa using hback⟩

/-- Which element was given a result. -/
theorem split_result {front' back' : List β} {y : β}
    (h : Scanned outcome before l (front' ++ y :: back')) :
    ∃ front x back, l = front ++ x :: back ∧ Scanned outcome before front front' ∧
      outcome (before ++ front) x y ∧ Scanned outcome (before ++ front ++ [x]) back back' := by
  induction front' generalizing before l with
  | nil =>
    cases h with
    | cons head tail => exact ⟨[], _, _, rfl, .nil, by simpa using head, by simpa using tail⟩
  | cons z front' ih =>
    cases h with
    | cons head tail =>
      obtain ⟨front, x, back, rfl, hfront, hy, hback⟩ := ih tail
      exact ⟨_ :: front, x, back, rfl, .cons head hfront, by simpa using hy, by simpa using hback⟩

/-- Results are related pairwise where any two elements, in order, make them so. -/
theorem pairwise {R : β → β → Prop} (h : Scanned outcome before l l')
    (hR : ∀ front x middle y back x' y', l = front ++ x :: (middle ++ y :: back) →
      outcome (before ++ front) x x' → outcome (before ++ front ++ x :: middle) y y' → R x' y') :
    l'.Pairwise R := by
  induction h with
  | nil => exact .nil
  | @cons before l x y l' head tail ih =>
    refine .cons (fun z hz => ?_) (ih ?_)
    · obtain ⟨middle', back', rfl⟩ := List.append_of_mem hz
      obtain ⟨middle, w, back, rfl, -, hw, -⟩ := tail.split_result
      exact hR [] x middle w back y z rfl (by simpa using head) (by simpa using hw)
    · intro front u middle w back u' w' hl hu hw
      exact hR (x :: front) u middle w back u' w' (by simp [hl]) (by simpa using hu)
        (by simpa using hw)

end Scanned

end PlateVault
