import Mathlib

/-!
# Natural order of texts

A text is compared token by token: a run of digits by its value, any other character by its
lowercase. A token carries what makes it one, so the order is a total preorder of all of them: a run
stands where its digits stand among the other characters, and no character's lowercase begins with a
digit.
-/

namespace NaturalOrder

open Std (TransCmp OrientedCmp)

/-- The comparison of what two values map to. -/
theorem transCmp_on {α β : Type*} (f : α → β) (cmp : β → β → Ordering) [TransCmp cmp] :
    TransCmp fun a b => cmp (f a) (f b) where
  eq_swap := OrientedCmp.eq_swap
  isLE_trans := TransCmp.isLE_trans

theorem isDigit_iff {c : Char} : c.isDigit = true ↔ '0' ≤ c ∧ c ≤ '9' := by
  simp only [Char.isDigit, Bool.and_eq_true, decide_eq_true_eq]
  exact Iff.rfl

/-- The lowercase of each character. A digit is its own, and no other one begins with a digit. -/
structure Lowering where
  lower : Char → List Char
  lower_digit : ∀ c, c.isDigit = true → lower c = [c]
  lower_other : ∀ c, c.isDigit = false → ∃ d rest, lower c = d :: rest ∧ d.isDigit = false

/-- A maximal run of digits, or another character. -/
inductive Token
  | run (digits : List Char) (h : digits ≠ [] ∧ ∀ d ∈ digits, d.isDigit = true)
  | other (c : Char) (h : c.isDigit = false)

/-- The digits that count. -/
def significant (run : List Char) : List Char := run.dropWhile (· = '0')

/-- Runs of digits by their value: the longer one first decides, then the digits. -/
def compareRuns (left right : List Char) : Ordering :=
  (compare (significant left).length (significant right).length).then
    (List.compareLex compare (significant left) (significant right))

instance : TransCmp compareRuns := by
  have hlength : TransCmp fun left right : List Char =>
      compare (significant left).length (significant right).length :=
    transCmp_on (fun run => (significant run).length) compare
  have hdigits : TransCmp fun left right : List Char =>
      List.compareLex compare (significant left) (significant right) :=
    transCmp_on significant (List.compareLex compare)
  exact inferInstanceAs (TransCmp (compareLex
    (fun left right : List Char => compare (significant left).length (significant right).length)
    (fun left right : List Char => List.compareLex compare (significant left) (significant right))))

/-! ## The value of a run -/

def value (run : List Char) : Nat := Nat.ofDigitChars 10 run 0

def IsRun (run : List Char) : Prop := ∀ d ∈ run, d.isDigit = true

theorem value_cons (d : Char) (run : List Char) :
    value (d :: run) = 10 ^ run.length * (d.toNat - 48) + value run := by
  rw [value, Nat.ofDigitChars_cons, Nat.ofDigitChars_eq_ofDigitChars_zero, Nat.mul_zero,
    Nat.zero_add]
  rfl

theorem digit_range {d : Char} (h : d.isDigit = true) : 48 ≤ d.toNat ∧ d.toNat ≤ 57 := by
  obtain ⟨hlow, hhigh⟩ := isDigit_iff.mp h
  exact ⟨hlow, hhigh⟩

theorem value_lt {run : List Char} (h : IsRun run) : value run < 10 ^ run.length := by
  induction run with
  | nil => decide
  | cons d run ih =>
    have hrest := ih fun c hc => h c (List.mem_cons_of_mem _ hc)
    have hd := digit_range (h d List.mem_cons_self)
    have hle : 10 ^ run.length * (d.toNat - 48) ≤ 10 ^ run.length * 9 :=
      Nat.mul_le_mul_left _ (by omega)
    rw [value_cons, List.length_cons, Nat.pow_succ]
    omega

@[simp] theorem value_significant (run : List Char) : value (significant run) = value run := by
  induction run with
  | nil => rfl
  | cons d run ih =>
    by_cases hzero : d = '0'
    · subst hzero
      change value (significant run) = _
      rw [ih, value_cons]
      change _ = 10 ^ run.length * 0 + _
      omega
    · have : significant (d :: run) = d :: run := List.dropWhile_cons_of_neg (by simpa using hzero)
      rw [this]

theorem isRun_significant {run : List Char} (h : IsRun run) : IsRun (significant run) :=
  fun d hd => h d ((List.dropWhile_sublist _).mem hd)

/-- Digits that begin with no zero are worth what their number of places asks for. -/
theorem le_value_significant {run : List Char} (h : IsRun run) (hne : significant run ≠ []) :
    10 ^ ((significant run).length - 1) ≤ value run := by
  obtain ⟨d, rest, hrun⟩ := List.exists_cons_of_ne_nil hne
  have hd : d ≠ '0' := by
    have hhead := List.head_dropWhile_not (fun c => decide (c = '0')) hne
    rintro rfl
    have hzero : (significant run).head hne = '0' := by simp only [hrun, List.head_cons]
    change (significant run).head hne |> fun c => decide (c = '0') = false at hhead
    simp [hzero] at hhead
  have hdigit := digit_range (isRun_significant h d (by rw [hrun]; exact List.mem_cons_self))
  have hpos : 48 < d.toNat := by
    have : d.toNat ≠ 48 := fun heq => hd (Char.toNat_inj.mp heq)
    omega
  rw [← value_significant run, hrun, value_cons, List.length_cons, Nat.add_sub_cancel]
  have : 10 ^ rest.length * 1 ≤ 10 ^ rest.length * (d.toNat - 48) :=
    Nat.mul_le_mul_left _ (by omega)
  omega

/-- Runs of one length compare by their values. -/
theorem compareLex_digits {left right : List Char} (hleft : IsRun left) (hright : IsRun right)
    (hlength : left.length = right.length) :
    List.compareLex compare left right = compare (value left) (value right) := by
  induction left generalizing right with
  | nil =>
    rw [List.length_nil] at hlength
    rw [List.eq_nil_of_length_eq_zero hlength.symm]
    rfl
  | cons d left ih =>
    cases right with
    | nil => cases hlength
    | cons d' right =>
      have hlength : left.length = right.length := Nat.succ.inj hlength
      have hrest := @ih right (fun c hc => hleft c (List.mem_cons_of_mem _ hc))
        (fun c hc => hright c (List.mem_cons_of_mem _ hc)) hlength
      have hlt := value_lt fun c hc => hleft c (List.mem_cons_of_mem _ hc)
      have hlt' := value_lt fun c hc => hright c (List.mem_cons_of_mem _ hc)
      have hd := digit_range (hleft d List.mem_cons_self)
      have hd' := digit_range (hright d' List.mem_cons_self)
      rw [List.compareLex_cons_cons, hrest, value_cons, value_cons, hlength]
      rw [hlength] at hlt
      -- The first digit that differs outweighs everything behind it.
      have hstep : ∀ m n : Nat, m < n →
          10 ^ right.length * m + 10 ^ right.length ≤ 10 ^ right.length * n := by
        intro m n hmn
        have := Nat.mul_le_mul_left (10 ^ right.length) (Nat.succ_le_of_lt hmn)
        rwa [Nat.mul_succ] at this
      rcases lt_trichotomy d.toNat d'.toNat with hcmp | hcmp | hcmp
      · have hchar : compare d d' = .lt := compare_lt_iff_lt.mpr hcmp
        have := hstep (d.toNat - 48) (d'.toNat - 48) (by omega)
        have hvalues : compare (10 ^ right.length * (d.toNat - 48) + value left)
            (10 ^ right.length * (d'.toNat - 48) + value right) = .lt :=
          compare_lt_iff_lt.mpr (by omega)
        rw [hchar, hvalues]
        rfl
      · have : d = d' := Char.toNat_inj.mp hcmp
        subst this
        rw [compare_eq_iff_eq.mpr rfl]
        change compare (value left) (value right) = _
        rcases lt_trichotomy (value left) (value right) with h | h | h
        · rw [compare_lt_iff_lt.mpr h, compare_lt_iff_lt.mpr (by omega)]
        · rw [h, compare_eq_iff_eq.mpr rfl, compare_eq_iff_eq.mpr rfl]
        · rw [compare_gt_iff_gt.mpr h, compare_gt_iff_gt.mpr (by omega)]
      · have hchar : compare d d' = .gt := compare_gt_iff_gt.mpr hcmp
        have := hstep (d'.toNat - 48) (d.toNat - 48) (by omega)
        have hvalues : compare (10 ^ right.length * (d.toNat - 48) + value left)
            (10 ^ right.length * (d'.toNat - 48) + value right) = .gt :=
          compare_gt_iff_gt.mpr (by omega)
        rw [hchar, hvalues]
        rfl

/-- A run with more significant digits is worth more. -/
theorem value_lt_of_length {left right : List Char} (hleft : IsRun left) (hright : IsRun right)
    (h : (significant left).length < (significant right).length) : value left < value right := by
  have hne : significant right ≠ [] := List.ne_nil_of_length_pos (by omega)
  have hle := le_value_significant hright hne
  have hlt := value_lt (isRun_significant hleft)
  have hpow : 10 ^ (significant left).length ≤ 10 ^ ((significant right).length - 1) :=
    Nat.pow_le_pow_right (by decide) (by omega)
  rw [value_significant] at hlt
  omega

/-- Runs compare by their values, at any length. -/
theorem compareRuns_eq {left right : List Char} (hleft : IsRun left) (hright : IsRun right) :
    compareRuns left right = compare (value left) (value right) := by
  unfold compareRuns
  rcases lt_trichotomy (significant left).length (significant right).length with h | h | h
  · rw [compare_lt_iff_lt.mpr h, compare_lt_iff_lt.mpr (value_lt_of_length hleft hright h)]
    rfl
  · rw [compare_eq_iff_eq.mpr h, compareLex_digits (isRun_significant hleft)
      (isRun_significant hright) h, value_significant, value_significant]
    rfl
  · rw [compare_gt_iff_gt.mpr h, compare_gt_iff_gt.mpr (value_lt_of_length hright hleft h)]
    rfl

section Tokens

variable (L : Lowering)

namespace Token

/-- What a token compares by against one of the other kind. -/
def lowered : Token → List Char
  | .run digits h => L.lower (digits.head h.1)
  | .other c _ => L.lower c

def compareToken : Token → Token → Ordering
  | .run left _, .run right _ => compareRuns left right
  | left, right => List.compareLex compare (left.lowered L) (right.lowered L)

/-- Before the digits, among them or behind them. -/
def rank : Token → Nat
  | .run .. => 1
  | .other c _ =>
    match L.lower c with
    | d :: _ => if d < '0' then 0 else 2
    | [] => 2

def digits : Token → List Char
  | .run digits _ => digits
  | .other .. => []

def letters : Token → List Char
  | .run .. => []
  | .other c _ => L.lower c

variable {L}

theorem compare_rank_lt {d c : Char} {rest : List Char} (hd : d.isDigit = true)
    (hc : c.isDigit = false) : List.compareLex compare [d] (c :: rest) =
      compare 1 (if c < '0' then 0 else 2) := by
  rw [List.compareLex_cons_cons]
  have hdigit := isDigit_iff.mp hd
  split
  · next hlt =>
    have : compare d c = .gt := compare_gt_iff_gt.mpr (lt_of_lt_of_le hlt hdigit.1)
    rw [this]
    rfl
  · next hge =>
    have hnine : '9' < c := by
      by_contra hle
      rw [isDigit_iff.mpr ⟨not_lt.mp hge, not_lt.mp hle⟩] at hc
      cases hc
    have : compare d c = .lt := compare_lt_iff_lt.mpr (lt_of_le_of_lt hdigit.2 hnine)
    rw [this]
    rfl

/-- A run and another character compare by where they stand. -/
theorem compare_run_other {digits : List Char} (h : digits ≠ [] ∧ ∀ d ∈ digits, d.isDigit = true)
    {c : Char} (hc : c.isDigit = false) :
    List.compareLex compare ((run digits h).lowered L) ((other c hc).lowered L) =
      compare ((run digits h).rank L) ((other c hc).rank L) := by
  obtain ⟨d, rest, hlower, hother⟩ := L.lower_other c hc
  have hdigit := h.2 (digits.head h.1) (List.head_mem h.1)
  simp only [lowered, rank, hlower, L.lower_digit _ hdigit]
  exact compare_rank_lt hdigit hother

/-- A run and another character are never alike. -/
theorem compareToken_run_other_ne {digits : List Char}
    (h : digits ≠ [] ∧ ∀ d ∈ digits, d.isDigit = true) {c : Char} (hc : c.isDigit = false) :
    compareToken L (run digits h) (other c hc) ≠ .eq := by
  change List.compareLex compare _ _ ≠ _
  obtain ⟨d, rest, hlower, -⟩ := L.lower_other c hc
  rw [compare_run_other h hc]
  simp only [rank, hlower]
  by_cases hlow : d < '0'
  · rw [if_pos hlow]
    decide
  · rw [if_neg hlow]
    decide

/-- Characters before and behind the digits compare by where they stand. -/
theorem compare_other_other {c c' : Char} (hc : c.isDigit = false) (hc' : c'.isDigit = false) :
    List.compareLex compare (L.lower c) (L.lower c') =
      (compare ((other c hc).rank L) ((other c' hc').rank L)).then
        (List.compareLex compare (L.lower c) (L.lower c')) := by
  obtain ⟨d, rest, hlower, hother⟩ := L.lower_other c hc
  obtain ⟨d', rest', hlower', hother'⟩ := L.lower_other c' hc'
  simp only [rank, hlower, hlower']
  by_cases hlow : d < '0'
  · by_cases hlow' : d' < '0'
    · rw [if_pos hlow, if_pos hlow']
      rfl
    · have : compare d d' = .lt := compare_lt_iff_lt.mpr (lt_of_lt_of_le hlow (not_lt.mp hlow'))
      rw [if_pos hlow, if_neg hlow', List.compareLex_cons_cons, this]
      rfl
  · by_cases hlow' : d' < '0'
    · have : compare d d' = .gt := compare_gt_iff_gt.mpr (lt_of_lt_of_le hlow' (not_lt.mp hlow))
      rw [if_neg hlow, if_pos hlow', List.compareLex_cons_cons, this]
      rfl
    · rw [if_neg hlow, if_neg hlow']
      rfl

/-- Tokens compare by where they stand, then by their value, then by their letters. -/
theorem compareToken_eq (left right : Token) : compareToken L left right =
    (compare (left.rank L) (right.rank L)).then ((compareRuns left.digits right.digits).then
      (List.compareLex compare (left.letters L) (right.letters L))) := by
  cases left with
  | run digits h =>
    cases right with
    | run digits' h' => exact Ordering.then_eq.symm
    | other c hc =>
      change List.compareLex compare _ _ = _
      rw [compare_run_other h hc]
      obtain ⟨d, rest, hlower, -⟩ := L.lower_other c hc
      simp only [rank, hlower]
      by_cases hlow : d < '0'
      · rw [if_pos hlow]
        rfl
      · rw [if_neg hlow]
        rfl
  | other c hc =>
    cases right with
    | run digits h =>
      change List.compareLex compare _ _ = _
      rw [@OrientedCmp.eq_swap _ (List.compareLex compare), compare_run_other h hc]
      obtain ⟨d, rest, hlower, -⟩ := L.lower_other c hc
      simp only [rank, hlower]
      by_cases hlow : d < '0'
      · rw [if_pos hlow]
        rfl
      · rw [if_neg hlow]
        rfl
    | other c' hc' => exact compare_other_other hc hc'

variable (L) in
instance : TransCmp (compareToken L) := by
  have hrank : TransCmp fun left right : Token => compare (left.rank L) (right.rank L) :=
    transCmp_on (rank L) compare
  have hdigits : TransCmp fun left right : Token => compareRuns left.digits right.digits :=
    transCmp_on digits compareRuns
  have hletters : TransCmp fun left right : Token =>
      List.compareLex compare (left.letters L) (right.letters L) :=
    transCmp_on (letters L) (List.compareLex compare)
  have heq : compareToken L = compareLex
      (fun left right : Token => compare (left.rank L) (right.rank L))
      (compareLex (fun left right : Token => compareRuns left.digits right.digits)
        (fun left right : Token =>
          List.compareLex compare (left.letters L) (right.letters L))) :=
    funext fun left => funext fun right => compareToken_eq left right
  rw [heq]
  infer_instance

end Token

/-- The tokens of a text. -/
def tokens : List Char → List Token
  | [] => []
  | c :: rest =>
    if h : c.isDigit = true then
      .run (c :: rest.takeWhile Char.isDigit) ⟨List.cons_ne_nil _ _, by
        intro d hd
        rcases List.mem_cons.mp hd with rfl | hd
        · exact h
        · exact List.mem_takeWhile_imp hd⟩ :: tokens (rest.dropWhile Char.isDigit)
    else .other c (by simpa using h) :: tokens rest
termination_by text => text.length
decreasing_by
  · exact Nat.lt_succ_of_le (List.dropWhile_sublist _).length_le
  · exact Nat.lt_succ_self _

def compareTexts (left right : List Char) : Ordering :=
  List.compareLex (Token.compareToken L) (tokens left) (tokens right)

instance : TransCmp (compareTexts L) := transCmp_on tokens (List.compareLex (Token.compareToken L))

end Tokens

end NaturalOrder
