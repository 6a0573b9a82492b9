import Mathlib
import PlateVault.Lib.Halting

/-!
# Buffers with checked access

An access out of range, an arithmetic overflow and a division by zero are faults, apart from the
errors a program returns. `Fills` says what a step writes to a buffer; a loop of such steps writes
what they write, whatever their order.
-/

/-- How a computation stops: with an error it returns, or with a fault. -/
inductive Stop (ε : Type)
  | error (error : ε)
  | fault
  deriving DecidableEq, Repr

namespace Buffers

variable {ε α β : Type}

/-- The first number past 64 bits. -/
def wordLimit : Nat := 2 ^ 64

section Operations

/-- An addition that must not overflow. -/
def add (a b : Nat) : Except (Stop ε) Nat := if a + b < wordLimit then .ok (a + b) else .error .fault

def mul (a b : Nat) : Except (Stop ε) Nat := if a * b < wordLimit then .ok (a * b) else .error .fault

def sub (a b : Nat) : Except (Stop ε) Nat := if b ≤ a then .ok (a - b) else .error .fault

def quot (a b : Nat) : Except (Stop ε) Nat := if b = 0 then .error .fault else .ok (a / b)

/-- `buffer[i]`. -/
def item (buffer : List α) (i : Nat) : Except (Stop ε) α :=
  match buffer[i]? with
  | some a => .ok a
  | none => .error .fault

/-- `&buffer[start..finish]`. -/
def slice (buffer : List α) (start finish : Nat) : Except (Stop ε) (List α) :=
  if start ≤ finish ∧ finish ≤ buffer.length then .ok ((buffer.drop start).take (finish - start))
  else .error .fault

/-- `buffer[i] = a`. -/
def put (buffer : List α) (i : Nat) (a : α) : Except (Stop ε) (List α) :=
  if i < buffer.length then .ok (buffer.set i a) else .error .fault

/-- `buffer[start..finish].copy_from_slice(part)`. -/
def copyInto (buffer : List α) (start finish : Nat) (part : List α) :
    Except (Stop ε) (List α) :=
  if start ≤ finish ∧ finish ≤ buffer.length ∧ part.length = finish - start then
    .ok (buffer.take start ++ part ++ buffer.drop finish)
  else .error .fault

end Operations

theorem add_eq_ok {a b : Nat} (h : a + b < wordLimit) :
    (add a b : Except (Stop ε) Nat) = .ok (a + b) := if_pos h

theorem mul_eq_ok {a b : Nat} (h : a * b < wordLimit) :
    (mul a b : Except (Stop ε) Nat) = .ok (a * b) := if_pos h

theorem sub_eq_ok {a b : Nat} (h : b ≤ a) : (sub a b : Except (Stop ε) Nat) = .ok (a - b) := if_pos h

theorem quot_eq_ok {a b : Nat} (h : 0 < b) : (quot a b : Except (Stop ε) Nat) = .ok (a / b) :=
  if_neg (Nat.pos_iff_ne_zero.mp h)

theorem item_eq_ok {buffer : List α} {i : Nat} {a : α} (h : buffer[i]? = some a) :
    (item buffer i : Except (Stop ε) α) = .ok a := by
  rw [item, h]

theorem slice_eq_ok {buffer : List α} {start finish : Nat} (h : start ≤ finish)
    (h' : finish ≤ buffer.length) : (slice buffer start finish : Except (Stop ε) (List α)) =
      .ok ((buffer.drop start).take (finish - start)) := if_pos ⟨h, h'⟩

theorem put_eq_ok {buffer : List α} {i : Nat} {a : α} (h : i < buffer.length) :
    (put buffer i a : Except (Stop ε) (List α)) = .ok (buffer.set i a) := if_pos h

theorem copyInto_eq_ok {buffer part : List α} {start finish : Nat} (h : start ≤ finish)
    (h' : finish ≤ buffer.length) (hpart : part.length = finish - start) :
    (copyInto buffer start finish part : Except (Stop ε) (List α)) =
      .ok (buffer.take start ++ part ++ buffer.drop finish) := if_pos ⟨h, h', hpart⟩

/-! ## What a step writes -/

/-- In a buffer of `length` the step writes `target` over `region` and leaves the rest as it was. -/
def Fills (length : Nat) (region : Nat → Prop) (target : Nat → Option α)
    (step : List α → Except (Stop ε) (List α)) : Prop :=
  ∀ buffer : List α, buffer.length = length → ∃ written, step buffer = .ok written ∧
    written.length = length ∧
    ∀ i, (region i → written[i]? = target i) ∧ (¬region i → written[i]? = buffer[i]?)

variable {length : Nat} {target : Nat → Option α}

theorem fills_put {i : Nat} {a : α} (hi : i < length) (ha : target i = some a) :
    Fills length (· = i) target fun buffer => (put buffer i a : Except (Stop ε) _) := by
  intro buffer hlength
  refine ⟨buffer.set i a, put_eq_ok (hlength ▸ hi), by rw [List.length_set, hlength], fun j => ?_⟩
  constructor
  · rintro rfl
    rw [List.getElem?_set_self (hlength ▸ hi), ha]
  · intro hne
    rw [List.getElem?_set_ne (Ne.symm hne)]

theorem fills_copyInto {start finish : Nat} {part : List α} (h : start ≤ finish)
    (h' : finish ≤ length) (hpart : part.length = finish - start)
    (ha : ∀ i < finish - start, target (start + i) = part[i]?) :
    Fills length (fun i => start ≤ i ∧ i < finish) target fun buffer =>
      (copyInto buffer start finish part : Except (Stop ε) _) := by
  intro buffer hlength
  refine ⟨_, copyInto_eq_ok h (hlength ▸ h') hpart, ?_, fun i => ?_⟩
  · simp only [List.length_append, List.length_take, List.length_drop]
    omega
  · have htake : (buffer.take start).length = start := by
      rw [List.length_take]
      omega
    by_cases hlow : i < start
    · refine ⟨fun hin => absurd hin.1 (by omega), fun _ => ?_⟩
      rw [List.append_assoc, List.getElem?_append_left (by omega), List.getElem?_take_of_lt hlow]
    · by_cases hhigh : i < finish
      · refine ⟨fun _ => ?_, fun hout => absurd ⟨Nat.le_of_not_lt hlow, hhigh⟩ hout⟩
        have hvalue := ha (i - start) (by omega)
        rw [Nat.add_sub_cancel' (Nat.le_of_not_lt hlow)] at hvalue
        rw [List.append_assoc, List.getElem?_append_right (by omega), htake,
          List.getElem?_append_left (by omega), hvalue]
      · refine ⟨fun hin => absurd hin.2 hhigh, fun _ => ?_⟩
        rw [List.getElem?_append_right (by rw [List.length_append]; omega), List.length_append,
          htake, hpart, List.getElem?_drop]
        congr 1
        omega

/-- Steps that compute before they write. -/
theorem Fills.bind {γ : Type} {region : Nat → Prop} {m : Except (Stop ε) γ} {c : γ}
    {step : γ → List α → Except (Stop ε) (List α)} (hm : m = .ok c)
    (h : Fills length region target (step c)) :
    Fills length region target fun buffer => m >>= fun c => step c buffer := by
  subst hm
  exact h

/-- A loop writes what its steps write. -/
theorem fills_loop {xs : List β} {region : β → Nat → Prop}
    {step : List α → β → Except (Stop ε) (List α)}
    (h : ∀ x ∈ xs, Fills length (region x) target fun buffer => step buffer x) :
    Fills length (fun i => ∃ x ∈ xs, region x i) target fun buffer => xs.foldlM step buffer := by
  induction xs with
  | nil =>
    intro buffer hlength
    exact ⟨buffer, rfl, hlength, fun i => ⟨by simp, fun _ => rfl⟩⟩
  | cons x xs ih =>
    intro buffer hlength
    obtain ⟨first, hfirst, hfirstLength, hwrites⟩ := h x List.mem_cons_self buffer hlength
    obtain ⟨last, hlast, hlastLength, hwrites'⟩ :=
      ih (fun y hy => h y (List.mem_cons_of_mem _ hy)) first hfirstLength
    refine ⟨last, ?_, hlastLength, fun i => ?_⟩
    · change step buffer x = .ok first at hfirst
      simp only [List.foldlM_cons, hfirst]
      exact hlast
    · -- a later step that writes the same place writes the same value
      by_cases hlater : ∃ y ∈ xs, region y i
      · refine ⟨fun _ => (hwrites' i).1 hlater, fun hnone => absurd ?_ hnone⟩
        obtain ⟨y, hy, hregion⟩ := hlater
        exact ⟨y, List.mem_cons_of_mem _ hy, hregion⟩
      · have hsame := (hwrites' i).2 hlater
        constructor
        · rintro ⟨y, hy, hregion⟩
          rcases List.mem_cons.mp hy with rfl | hy
          · rw [hsame, (hwrites i).1 hregion]
          · exact absurd ⟨y, hy, hregion⟩ hlater
        · intro hnone
          rw [hsame, (hwrites i).2 fun hregion => hnone ⟨x, List.mem_cons_self, hregion⟩]

/-- The region may be stated otherwise. -/
theorem Fills.of_iff {region region' : Nat → Prop}
    {step : List α → Except (Stop ε) (List α)} (h : Fills length region target step)
    (hiff : ∀ i, region i ↔ region' i) : Fills length region' target step := by
  intro buffer hlength
  obtain ⟨written, hstep, hwritten, hwrites⟩ := h buffer hlength
  exact ⟨written, hstep, hwritten, fun i =>
    ⟨fun hin => (hwrites i).1 ((hiff i).mpr hin), fun hout => (hwrites i).2 (hout ∘ (hiff i).mp)⟩⟩

/-- One step after another, over the same target. -/
theorem Fills.andThen {region region' : Nat → Prop}
    {step step' : List α → Except (Stop ε) (List α)} (h : Fills length region target step)
    (h' : Fills length region' target step') :
    Fills length (fun i => region i ∨ region' i) target fun buffer => step buffer >>= step' := by
  intro buffer hlength
  obtain ⟨first, hfirst, hfirstLength, hwrites⟩ := h buffer hlength
  obtain ⟨last, hlast, hlastLength, hwrites'⟩ := h' first hfirstLength
  refine ⟨last, ?_, hlastLength, fun i => ?_⟩
  · simp only [hfirst]
    exact hlast
  · by_cases hlater : region' i
    · exact ⟨fun _ => (hwrites' i).1 hlater, fun hnone => absurd (.inr hlater) hnone⟩
    · have hsame := (hwrites' i).2 hlater
      constructor
      · rintro (hregion | hregion)
        · rw [hsame, (hwrites i).1 hregion]
        · exact absurd hregion hlater
      · intro hnone
        rw [hsame, (hwrites i).2 (hnone ∘ .inl)]

/-! ## Rows of one length -/

/-- A cell of a grid of rows. -/
theorem cell_lt {row rows column columns : Nat} (hrow : row < rows) (hcolumn : column < columns) :
    row * columns + column < rows * columns := calc
  row * columns + column < row * columns + columns := by omega
  _ = (row + 1) * columns := (Nat.succ_mul row columns).symm
  _ ≤ rows * columns := Nat.mul_le_mul_right columns hrow

theorem cell_div {row column columns : Nat} (hcolumn : column < columns) :
    (row * columns + column) / columns = row := by
  rw [Nat.mul_comm, Nat.mul_add_div (by omega), Nat.div_eq_of_lt hcolumn, Nat.add_zero]

theorem cell_mod {row column columns : Nat} (hcolumn : column < columns) :
    (row * columns + column) % columns = column := by
  rw [Nat.mul_comm, Nat.mul_add_mod, Nat.mod_eq_of_lt hcolumn]

theorem length_blocks {f : Nat → List α} {size count : Nat} (h : ∀ k < count, (f k).length = size) :
    ((List.range count).flatMap f).length = count * size := by
  induction count with
  | zero => simp
  | succ count ih =>
    have hrest := ih fun k hk => h k (Nat.lt_succ_of_lt hk)
    simp [List.range_succ, hrest, h count (Nat.lt_succ_self count), Nat.succ_mul]

/-- An element of a row of blocks is one of its block. -/
theorem getElem?_blocks {f : Nat → List α} {size count k i : Nat}
    (h : ∀ k < count, (f k).length = size) (hk : k < count) (hi : i < size) :
    ((List.range count).flatMap f)[k * size + i]? = (f k)[i]? := by
  induction count with
  | zero => cases hk
  | succ count ih =>
    have hbelow : ∀ k < count, (f k).length = size := fun k hk => h k (Nat.lt_succ_of_lt hk)
    have hlength := length_blocks hbelow
    rw [List.range_succ, List.flatMap_append]
    by_cases hlast : k = count
    · subst hlast
      rw [List.getElem?_append_right (by omega), hlength, Nat.add_sub_cancel_left]
      simp
    · have hlt : k < count := by omega
      have hcell := cell_lt hlt hi
      rw [List.getElem?_append_left (by omega), ih hbelow hlt]

end Buffers
