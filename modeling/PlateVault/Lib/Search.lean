import Mathlib.Data.Nat.Init
import PlateVault.Lib.Fallible

/-!
# Bounded searches

The first of so many successors that passes a test which may itself fail.
-/

namespace Search

variable {α ε : Type} {next : α → Option α} {test : α → Except ε Bool} {stop : α → ε}

/-- So many successors after `a`. -/
def after (next : α → Option α) (a : α) : Nat → Option α
  | 0 => some a
  | steps + 1 => (next a).bind fun b => after next b steps

/-- The first of the next `steps` successors that passes; `stop` where there is no successor. -/
def first (next : α → Option α) (stop : α → ε) (test : α → Except ε Bool) :
    Nat → α → Except ε (Option α)
  | 0, _ => .ok none
  | steps + 1, a =>
    match next a with
    | none => .error (stop a)
    | some b =>
      match test b with
      | .error e => .error e
      | .ok true => .ok (some b)
      | .ok false => first next stop test steps b

/-- The first `k` successors all fail the test. -/
def FailsUpTo (next : α → Option α) (test : α → Except ε Bool) (a : α) (k : Nat) : Prop :=
  ∀ j < k, ∃ b, after next a (j + 1) = some b ∧ test b = .ok false

/-- The successor after `k` others that all fail passes. -/
def PassesAt (next : α → Option α) (test : α → Except ε Bool) (a : α) (k : Nat) (found : α) : Prop :=
  after next a (k + 1) = some found ∧ test found = .ok true ∧ FailsUpTo next test a k

section Steps

variable {a found : α} {k : Nat}

@[simp] theorem failsUpTo_zero : FailsUpTo next test a 0 := fun _ h => absurd h (Nat.not_lt_zero _)

theorem failsUpTo_succ :
    FailsUpTo next test a (k + 1) ↔
      ∃ b, next a = some b ∧ test b = .ok false ∧ FailsUpTo next test b k := by
  constructor
  · intro h
    obtain ⟨b, hb, htest⟩ := h 0 (Nat.succ_pos k)
    obtain ⟨b', hnext, rfl⟩ : ∃ b', next a = some b' ∧ b' = b := by
      simpa [after, Option.bind_eq_some_iff] using hb
    refine ⟨b', hnext, htest, fun j hj => ?_⟩
    obtain ⟨c, hc, hfails⟩ := h (j + 1) (Nat.succ_lt_succ hj)
    rw [after, hnext] at hc
    exact ⟨c, hc, hfails⟩
  · rintro ⟨b, hnext, htest, hrest⟩ j hj
    cases j with
    | zero => exact ⟨b, by simp [after, hnext], htest⟩
    | succ j =>
      obtain ⟨c, hc, hfails⟩ := hrest j (Nat.lt_of_succ_lt_succ hj)
      exact ⟨c, by rw [after, hnext]; exact hc, hfails⟩

theorem passesAt_zero :
    PassesAt next test a 0 found ↔ next a = some found ∧ test found = .ok true := by
  simp [PassesAt, after]

theorem passesAt_succ :
    PassesAt next test a (k + 1) found ↔
      ∃ b, next a = some b ∧ test b = .ok false ∧ PassesAt next test b k found := by
  unfold PassesAt
  rw [failsUpTo_succ, after]
  constructor
  · rintro ⟨hafter, hfound, b, hnext, htest, hrest⟩
    rw [hnext] at hafter
    exact ⟨b, hnext, htest, hafter, hfound, hrest⟩
  · rintro ⟨b, hnext, htest, hafter, hfound, hrest⟩
    rw [hnext]
    exact ⟨hafter, hfound, b, rfl, htest, hrest⟩

end Steps

theorem first_succ (steps : Nat) (a : α) :
    first next stop test (steps + 1) a =
      match next a with
      | none => .error (stop a)
      | some b =>
        match test b with
        | .error e => .error e
        | .ok true => .ok (some b)
        | .ok false => first next stop test steps b :=
  rfl

/-- A search finds the successor that passes after others that all fail. -/
theorem first_eq_some {steps : Nat} {a found : α} :
    first next stop test steps a = .ok (some found) ↔
      ∃ k < steps, PassesAt next test a k found := by
  induction steps generalizing a with
  | zero => simp [first]
  | succ steps ih =>
    rw [first_succ]
    constructor
    · intro h
      cases hnext : next a with
      | none => simp [hnext] at h
      | some b =>
        cases htest : test b with
        | error e => simp [hnext, htest] at h
        | ok passed =>
          cases passed with
          | true =>
            simp only [hnext, htest, Except.ok.injEq, Option.some.injEq] at h
            subst h
            exact ⟨0, Nat.succ_pos _, passesAt_zero.mpr ⟨hnext, htest⟩⟩
          | false =>
            simp only [hnext, htest] at h
            obtain ⟨k, hk, hpasses⟩ := ih.mp h
            exact ⟨k + 1, Nat.succ_lt_succ hk, passesAt_succ.mpr ⟨b, hnext, htest, hpasses⟩⟩
    · rintro ⟨k, hk, hpasses⟩
      cases k with
      | zero =>
        obtain ⟨hnext, htest⟩ := passesAt_zero.mp hpasses
        simp only [hnext, htest]
      | succ k =>
        obtain ⟨b, hnext, htest, hpasses⟩ := passesAt_succ.mp hpasses
        simp only [hnext, htest]
        exact ih.mpr ⟨k, Nat.lt_of_succ_lt_succ hk, hpasses⟩

/-- A search finds nothing where every successor fails. -/
theorem first_eq_none {steps : Nat} {a : α} :
    first next stop test steps a = .ok none ↔ FailsUpTo next test a steps := by
  induction steps generalizing a with
  | zero => simp [first]
  | succ steps ih =>
    rw [first_succ, failsUpTo_succ]
    constructor
    · intro h
      cases hnext : next a with
      | none => simp [hnext] at h
      | some b =>
        cases htest : test b with
        | error e => simp [hnext, htest] at h
        | ok passed =>
          cases passed with
          | true => simp [hnext, htest] at h
          | false =>
            simp only [hnext, htest] at h
            exact ⟨b, rfl, htest, ih.mp h⟩
    · rintro ⟨b, hnext, htest, hrest⟩
      simp only [hnext, htest]
      exact ih.mpr hrest

/-- A search stops where successors run out or where a test fails to answer. -/
theorem first_eq_error {steps : Nat} {a : α} {e : ε} (h : first next stop test steps a = .error e) :
    ∃ k < steps, FailsUpTo next test a k ∧
      (after next a (k + 1) = none ∨ ∃ b, after next a (k + 1) = some b ∧ test b = .error e) := by
  induction steps generalizing a with
  | zero => simp [first] at h
  | succ steps ih =>
    rw [first_succ] at h
    cases hnext : next a with
    | none => exact ⟨0, Nat.succ_pos _, failsUpTo_zero, .inl (by simp [after, hnext])⟩
    | some b =>
      cases htest : test b with
      | error e' =>
        simp only [hnext, htest, Except.error.injEq] at h
        subst h
        exact ⟨0, Nat.succ_pos _, failsUpTo_zero, .inr ⟨b, by simp [after, hnext], htest⟩⟩
      | ok passed =>
        cases passed with
        | true => simp [hnext, htest] at h
        | false =>
          simp only [hnext, htest] at h
          obtain ⟨k, hk, hfails, hend⟩ := ih h
          refine ⟨k + 1, Nat.succ_lt_succ hk, failsUpTo_succ.mpr ⟨b, hnext, htest, hfails⟩, ?_⟩
          rw [after, hnext]
          exact hend

end Search
