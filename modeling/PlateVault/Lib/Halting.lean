import Mathlib.Data.List.Basic

/-!
# Programs with a state that may halt

A program changes a state and returns a value, or halts and leaves the state it halted in.
`Ends p Q E s` says what holds of either end of `p` run from `s`.
-/

/-- A program over the state `σ` that may halt with an `ε`. -/
abbrev Halting (σ ε : Type) := ExceptT ε (StateM σ)

namespace Halting

variable {σ ε α β : Type}

/-- `Q` holds of what `p` returns from `s`, and `E` of what it halts with. -/
def Ends (p : Halting σ ε α) (Q : α → σ → Prop) (E : ε → σ → Prop) (s : σ) : Prop :=
  match p s with
  | (.ok a, s') => Q a s'
  | (.error e, s') => E e s'

variable {Q : α → σ → Prop} {E : ε → σ → Prop} {s : σ}

theorem Ends.mono {p : Halting σ ε α} {Q' : α → σ → Prop} {E' : ε → σ → Prop}
    (hQ : ∀ a s, Q a s → Q' a s) (hE : ∀ e s, E e s → E' e s) (h : p.Ends Q E s) :
    p.Ends Q' E' s := by
  unfold Ends at h ⊢
  split at h
  · exact hQ _ _ h
  · exact hE _ _ h

/-- What is known of a program that returned. -/
theorem Ends.of_ok {p : Halting σ ε α} {a : α} {s' : σ} (h : p.Ends Q E s)
    (hp : p s = (.ok a, s')) : Q a s' := by
  unfold Ends at h
  rw [hp] at h
  exact h

/-- What is known of a program that halted. -/
theorem Ends.of_error {p : Halting σ ε α} {e : ε} {s' : σ} (h : p.Ends Q E s)
    (hp : p s = (.error e, s')) : E e s' := by
  unfold Ends at h
  rw [hp] at h
  exact h

@[simp] theorem ends_pure {a : α} : (pure a : Halting σ ε α).Ends Q E s ↔ Q a s := Iff.rfl

@[simp] theorem ends_throw {e : ε} : (throw e : Halting σ ε α).Ends Q E s ↔ E e s := Iff.rfl

@[simp] theorem ends_get {Q : σ → σ → Prop} : (get : Halting σ ε σ).Ends Q E s ↔ Q s s := Iff.rfl

@[simp] theorem ends_modify {f : σ → σ} {Q : PUnit → σ → Prop} :
    (modify f : Halting σ ε PUnit).Ends Q E s ↔ Q ⟨⟩ (f s) := Iff.rfl

@[simp] theorem ends_modifyGet {f : σ → α × σ} :
    (modifyGet f : Halting σ ε α).Ends Q E s ↔ Q (f s).1 (f s).2 := Iff.rfl

/-- The rule for sequencing. -/
@[simp] theorem ends_bind {p : Halting σ ε α} {f : α → Halting σ ε β} {Q : β → σ → Prop} :
    (p >>= f).Ends Q E s ↔ p.Ends (fun a s' => (f a).Ends Q E s') E s := by
  have hrun : (p >>= f) s = match p s with
      | (.ok a, s') => f a s'
      | (.error e, s') => (.error e, s') := by
    change (ExceptT.bind p f) s = _
    unfold ExceptT.bind
    change (StateT.bind p (ExceptT.bindCont f)) s = _
    unfold StateT.bind
    generalize p s = out
    obtain ⟨out, s'⟩ := out
    cases out <;> rfl
  unfold Ends
  rw [hrun]
  rcases p s with ⟨out, s'⟩
  cases out <;> rfl

/-- A computation without a state, run within a program. -/
def lift (x : Except ε α) : Halting σ ε α := fun s => (x, s)

@[simp] theorem ends_lift_ok {a : α} : (lift (.ok a) : Halting σ ε α).Ends Q E s ↔ Q a s := Iff.rfl

@[simp] theorem ends_lift_error {e : ε} :
    (lift (.error e) : Halting σ ε α).Ends Q E s ↔ E e s := Iff.rfl

end Halting
