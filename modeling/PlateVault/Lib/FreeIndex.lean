import Mathlib.Data.Finset.Card

/-!
# Numbered keys that nothing takes

Numbers give different keys, so what is taken takes no more numbers than it has entries: among one
more than that, one is free.
-/

namespace FreeIndex

variable {κ : Type*} [DecidableEq κ] {key : ℕ → κ}

/-- The numbers whose keys are taken are no more than the keys taken. -/
theorem card_taken_le (taken : List κ) (numbers : Finset ℕ)
    (hkey : Set.InjOn key numbers) :
    (numbers.filter fun n => key n ∈ taken).card ≤ taken.length := by
  have hmaps : ∀ n ∈ numbers.filter fun n => key n ∈ taken, key n ∈ taken.toFinset := by
    intro n hn
    exact List.mem_toFinset.mpr (Finset.mem_filter.mp hn).2
  have hinj : Set.InjOn key (numbers.filter fun n => key n ∈ taken) :=
    hkey.mono fun n hn => (Finset.mem_filter.mp hn).1
  exact (Finset.card_le_card_of_injOn key hmaps hinj).trans (List.toFinset_card_le taken)

/-- Of so many numbers, one has two keys that are free of two lists. -/
theorem exists_free {other : ℕ → κ} (taken others : List κ) {numbers : Finset ℕ}
    (hkey : Set.InjOn key numbers) (hother : Set.InjOn other numbers)
    (hcard : taken.length + others.length < numbers.card) :
    ∃ n ∈ numbers, key n ∉ taken ∧ other n ∉ others := by
  by_contra hnone
  have hcover : numbers ⊆ (numbers.filter fun n => key n ∈ taken) ∪
      (numbers.filter fun n => other n ∈ others) := by
    intro n hn
    rw [Finset.mem_union, Finset.mem_filter, Finset.mem_filter]
    by_cases htaken : key n ∈ taken
    · exact .inl ⟨hn, htaken⟩
    · refine .inr ⟨hn, ?_⟩
      by_contra hfree
      exact hnone ⟨n, hn, htaken, hfree⟩
  have hle := (Finset.card_le_card hcover).trans (Finset.card_union_le _ _)
  have hfirst := card_taken_le taken numbers hkey
  have hsecond := card_taken_le others numbers hother
  omega

end FreeIndex
