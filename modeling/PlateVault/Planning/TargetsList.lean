import PlateVault.Lib.NaturalOrder
import PlateVault.Planning.Goals

/-!
# The Targets list

The order of the Targets list and its pages. A column's values compare among themselves, unknown ones
come last in either direction, and the designation and then the id settle what is left.
-/

namespace PlateVault.Planning

open NaturalOrder (Lowering)
open Std (TransCmp OrientedCmp)

structure Measures extends Floats where
  negZero : F64

inductive TargetsColumn
  | designation
  | type
  | maxAlt
  | lunar
  | imgTime
  | filters
  | opposition
  | sessions
  | captured
  deriving DecidableEq, Repr

structure TargetsSort where
  column : TargetsColumn
  descending : Bool
  deriving DecidableEq, Repr

structure TargetRow (M : Measures) where
  id : Uuid
  designation : Text
  objectType : Text
  maxAltitudeDeg : Option M.F64
  lunarSeparationDeg : Option M.F64
  imgTimeMinutes : Option Nat
  bands : List BandState
  /-- The day, counted from 1 January 1970. -/
  nextOpposition : Option Int
  sessions : Nat
  /-- The seconds of each channel. -/
  captured : List M.F64

def BandState.suits (state : BandState) : Bool := state.grade = .good || state.grade = .marginal

/-! ## Texts -/

def digits (chars : Text) : Text := chars.takeWhile Char.isDigit

def behindDigits (chars : Text) : Text := chars.dropWhile Char.isDigit

theorem length_behindDigits_lt {c : Char} {rest : Text} (h : c.isDigit = true) :
    (behindDigits (c :: rest)).length < (c :: rest).length := by
  rw [behindDigits, List.dropWhile_cons_of_pos h]
  exact Nat.lt_succ_of_le (List.dropWhile_sublist _).length_le

/-- Case-insensitive natural order: runs of digits compare by value. -/
def natural (L : Lowering) (first second : Text) : Ordering :=
  match first, second with
  | [], [] => .eq
  | [], _ :: _ => .lt
  | _ :: _, [] => .gt
  | x :: a, y :: b =>
    if _h : x.isDigit = true ∧ y.isDigit = true then
      (NaturalOrder.compareRuns (digits (x :: a)) (digits (y :: b))).then
        (natural L (behindDigits (x :: a)) (behindDigits (y :: b)))
    else (List.compareLex compare (L.lower x) (L.lower y)).then (natural L a b)
termination_by first.length
decreasing_by
  · exact length_behindDigits_lt _h.1
  · exact Nat.lt_succ_self _

/-! ## Columns -/

section Rows

variable (L : Lowering) {M : Measures}

inductive Key (M : Measures)
  | text (value : Text)
  | number (value : M.F64)
  | day (value : Int)

def key (row : TargetRow M) : TargetsColumn → Option (Key M)
  | .designation => some (.text row.designation)
  | .type => some (.text row.objectType)
  | .maxAlt => row.maxAltitudeDeg.map .number
  | .lunar => row.lunarSeparationDeg.map .number
  | .imgTime => row.imgTimeMinutes.map fun minutes => .number (M.literal minutes)
  | .filters =>
    if row.bands.isEmpty then none
    else some (.number (M.literal (min (row.bands.countP BandState.suits) 255)))
  | .opposition => row.nextOpposition.map .day
  | .sessions => some (.number (M.literal row.sessions))
  | .captured => some (.number (row.captured.foldl M.add M.negZero))

def compareKeys : Key M → Key M → Ordering
  | .text a, .text b => natural L a b
  | .number a, .number b => compare a b
  | .day a, .day b => compare a b
  | _, _ => .eq

/-- By the column alone, unknown values last in either direction. -/
def comparePrimary (sort : TargetsSort) (a b : TargetRow M) : Ordering :=
  match key a sort.column, key b sort.column with
  | some x, some y =>
    let order := compareKeys L x y
    if sort.descending then order.swap else order
  | some _, none => .lt
  | none, some _ => .gt
  | none, none => .eq

def compareRows (sort : TargetsSort) (a b : TargetRow M) : Ordering :=
  ((comparePrimary L sort a b).then (natural L a.designation b.designation)).then
    (compare a.id b.id)

def sortRows (rows : List (TargetRow M)) (sort : TargetsSort) : List (TargetRow M) :=
  rows.mergeSort fun a b => (compareRows L sort a b).isLE

def clearMinutes (suitableBands : List Band) (row : TargetRow M) : Nat :=
  ((row.bands.filter fun state => suitableBands.contains state.band).map
    BandState.clearMinutes).max?.getD 0

/-- The order of a query: its sort, and without one the clear time of the chosen bands first. -/
def orderRows (rows : List (TargetRow M)) (sort : Option TargetsSort) (effective : TargetsSort)
    (suitableBands : List Band) : List (TargetRow M) :=
  let rows := sortRows L rows effective
  if sort.isNone && !suitableBands.isEmpty then
    rows.mergeSort fun a b => clearMinutes suitableBands b ≤ clearMinutes suitableBands a
  else rows

/-- The rows of one page; without a limit every remaining one. -/
def page (rows : List (TargetRow M)) (offset : Nat) (limit : Option Nat) : List (TargetRow M) :=
  let rows := rows.drop offset
  match limit with
  | some limit => rows.take limit
  | none => rows

end Rows

/-! ## The order of texts -/

section Natural

variable (L : Lowering)

theorem then_eq_of_ne {order : Ordering} (h : order ≠ .eq) (p q : Ordering) :
    order.then p = order.then q := by
  cases order
  · rfl
  · exact absurd rfl h
  · rfl

theorem tokens_digit {c : Char} (h : c.isDigit = true) (rest : Text) :
    ∃ hrun, NaturalOrder.tokens (c :: rest) =
      .run (digits (c :: rest)) hrun :: NaturalOrder.tokens (behindDigits (c :: rest)) := by
  have hrun : digits (c :: rest) ≠ [] ∧ ∀ d ∈ digits (c :: rest), d.isDigit = true :=
    ⟨by simp [digits, h], fun d hd => List.mem_takeWhile_imp hd⟩
  refine ⟨hrun, ?_⟩
  simp only [digits, behindDigits, List.takeWhile_cons_of_pos h, List.dropWhile_cons_of_pos h]
  rw [NaturalOrder.tokens, dif_pos h]

theorem tokens_other {c : Char} (h : c.isDigit = false) (rest : Text) :
    NaturalOrder.tokens (c :: rest) = .other c h :: NaturalOrder.tokens rest := by
  rw [NaturalOrder.tokens, dif_neg (by simp [h])]

theorem natural_eq (first second : Text) :
    natural L first second = NaturalOrder.compareTexts L first second := by
  fun_induction natural L first second with
  | case1 =>
    rw [NaturalOrder.compareTexts, NaturalOrder.tokens]
    exact List.compareLex_nil_nil.symm
  | case2 y b =>
    rw [NaturalOrder.compareTexts, NaturalOrder.tokens, NaturalOrder.tokens]
    split <;> rfl
  | case3 x a =>
    rw [NaturalOrder.compareTexts, NaturalOrder.tokens, NaturalOrder.tokens]
    split <;> rfl
  | case4 x a y b h ih =>
    obtain ⟨hrun, htokens⟩ := tokens_digit h.1 a
    obtain ⟨hrun', htokens'⟩ := tokens_digit h.2 b
    rw [ih, NaturalOrder.compareTexts, NaturalOrder.compareTexts, htokens, htokens',
      List.compareLex_cons_cons]
    rfl
  | case5 x a y b h ih =>
    rw [ih]
    by_cases hx : x.isDigit = true
    · have hy : y.isDigit = false := by simpa [hx] using h
      obtain ⟨hrun, htokens⟩ := tokens_digit hx a
      have hne := @NaturalOrder.Token.compareToken_run_other_ne L _ hrun y hy
      rw [NaturalOrder.compareTexts, NaturalOrder.compareTexts, htokens, tokens_other hy,
        List.compareLex_cons_cons]
      have hhead : (digits (x :: a)).head hrun.1 = x := by
        simp only [digits, List.takeWhile_cons_of_pos hx, List.head_cons]
      change (List.compareLex compare (L.lower x) (L.lower y)).then _ =
        (List.compareLex compare (L.lower ((digits (x :: a)).head hrun.1)) (L.lower y)).then _
      change List.compareLex compare (L.lower ((digits (x :: a)).head hrun.1)) (L.lower y) ≠ .eq at hne
      rw [hhead] at hne ⊢
      exact then_eq_of_ne hne _ _
    · have hx : x.isDigit = false := by simpa using hx
      rw [NaturalOrder.compareTexts, NaturalOrder.compareTexts, tokens_other hx]
      by_cases hy : y.isDigit = true
      · obtain ⟨hrun, htokens⟩ := tokens_digit hy b
        have hne := @NaturalOrder.Token.compareToken_run_other_ne L _ hrun x hx
        rw [htokens, List.compareLex_cons_cons]
        have hhead : (digits (y :: b)).head hrun.1 = y := by
          simp only [digits, List.takeWhile_cons_of_pos hy, List.head_cons]
        change (List.compareLex compare (L.lower x) (L.lower y)).then _ =
          (List.compareLex compare (L.lower x) (L.lower ((digits (y :: b)).head hrun.1))).then _
        change List.compareLex compare (L.lower ((digits (y :: b)).head hrun.1)) (L.lower x) ≠ .eq
          at hne
        rw [hhead] at hne ⊢
        refine then_eq_of_ne (fun heq => hne ?_) _ _
        rw [@OrientedCmp.eq_swap _ (List.compareLex compare), heq]
        rfl
      · have hy : y.isDigit = false := by simpa using hy
        rw [tokens_other hy, List.compareLex_cons_cons]
        rfl

instance : TransCmp (natural L) := by
  have heq : natural L = NaturalOrder.compareTexts L :=
    funext fun first => funext fun second => natural_eq L first second
  rw [heq]
  infer_instance

/-- Runs of digits compare by their value, however long, and then what stands behind them. -/
theorem natural_runs {run run' rest rest' : Text} (hrun : run ≠ [] ∧ NaturalOrder.IsRun run)
    (hrun' : run' ≠ [] ∧ NaturalOrder.IsRun run') (hrest : ∀ c ∈ rest.head?, c.isDigit = false)
    (hrest' : ∀ c ∈ rest'.head?, c.isDigit = false) :
    natural L (run ++ rest) (run' ++ rest') =
      (compare (NaturalOrder.value run) (NaturalOrder.value run')).then (natural L rest rest') := by
  have hdigits : ∀ {run rest : Text}, NaturalOrder.IsRun run →
      (∀ c ∈ rest.head?, c.isDigit = false) →
        digits (run ++ rest) = run ∧ behindDigits (run ++ rest) = rest := by
    intro run rest hrun hrest
    have hstop : rest.takeWhile Char.isDigit = [] ∧ rest.dropWhile Char.isDigit = rest := by
      cases rest with
      | nil => exact ⟨rfl, rfl⟩
      | cons c rest =>
        have hc : ¬ c.isDigit = true := by simp [hrest c rfl]
        exact ⟨List.takeWhile_cons_of_neg hc, List.dropWhile_cons_of_neg hc⟩
    rw [digits, behindDigits, List.takeWhile_append_of_pos hrun, List.dropWhile_append_of_pos hrun,
      hstop.1, hstop.2, List.append_nil]
    exact ⟨rfl, rfl⟩
  obtain ⟨x, a, rfl⟩ := List.exists_cons_of_ne_nil hrun.1
  obtain ⟨y, b, rfl⟩ := List.exists_cons_of_ne_nil hrun'.1
  have hfirst := hdigits hrun.2 hrest
  have hsecond := hdigits hrun'.2 hrest'
  rw [List.cons_append] at hfirst hsecond ⊢
  rw [List.cons_append, natural,
    dif_pos ⟨hrun.2 x List.mem_cons_self, hrun'.2 y List.mem_cons_self⟩, hfirst.1, hfirst.2,
    hsecond.1, hsecond.2, NaturalOrder.compareRuns_eq hrun.2 hrun'.2]

end Natural

/-! ## The order of rows -/

/-- Known values by `cmp`, before the unknown ones. -/
def knownFirst {α : Type*} (cmp : α → α → Ordering) : Option α → Option α → Ordering
  | some a, some b => cmp a b
  | some _, none => .lt
  | none, some _ => .gt
  | none, none => .eq

instance {α : Type*} (cmp : α → α → Ordering) [OrientedCmp cmp] : OrientedCmp (knownFirst cmp) where
  eq_swap {a b} := by
    cases a <;> cases b
    · rfl
    · rfl
    · rfl
    · exact @OrientedCmp.eq_swap _ cmp _ _ _

instance {α : Type*} (cmp : α → α → Ordering) [TransCmp cmp] : TransCmp (knownFirst cmp) where
  isLE_trans {a b c} hab hbc := by
    cases a with
    | none =>
      cases b with
      | none => exact hbc
      | some b => cases hab
    | some a =>
      cases c with
      | none => rfl
      | some c =>
        cases b with
        | none => cases hbc
        | some b => exact @TransCmp.isLE_trans _ cmp _ _ _ _ hab hbc

section Order

variable (L : Lowering) {M : Measures}

theorem key_kinds (column : TargetsColumn) :
    (∃ f : TargetRow M → Option Text, ∀ row, key row column = (f row).map .text) ∨
      (∃ f : TargetRow M → Option M.F64, ∀ row, key row column = (f row).map .number) ∨
      ∃ f : TargetRow M → Option Int, ∀ row, key row column = (f row).map .day := by
  cases column with
  | designation => exact .inl ⟨fun row => some row.designation, fun _ => rfl⟩
  | type => exact .inl ⟨fun row => some row.objectType, fun _ => rfl⟩
  | maxAlt => exact .inr (.inl ⟨TargetRow.maxAltitudeDeg, fun _ => rfl⟩)
  | lunar => exact .inr (.inl ⟨TargetRow.lunarSeparationDeg, fun _ => rfl⟩)
  | imgTime =>
    refine .inr (.inl ⟨fun row => row.imgTimeMinutes.map fun minutes => M.literal minutes, ?_⟩)
    intro row
    rw [Option.map_map]
    rfl
  | filters =>
    refine .inr (.inl ⟨fun row => if row.bands.isEmpty then none
      else some (M.literal (min (row.bands.countP BandState.suits) 255)), fun row => ?_⟩)
    by_cases hempty : row.bands.isEmpty = true
    · simp [key, hempty]
    · simp [key, hempty]
  | opposition => exact .inr (.inr ⟨TargetRow.nextOpposition, fun _ => rfl⟩)
  | sessions => exact .inr (.inl ⟨fun row => some (M.literal row.sessions), fun _ => rfl⟩)
  | captured =>
    exact .inr (.inl ⟨fun row => some (row.captured.foldl M.add M.negZero), fun _ => rfl⟩)

theorem transCmp_primary_of {α : Type} {sort : TargetsSort} {f : TargetRow M → Option α}
    {make : α → Key M} {cmp : α → α → Ordering} [TransCmp cmp]
    (hkey : ∀ row, key row sort.column = (f row).map make)
    (hcmp : ∀ a b, compareKeys L (make a) (make b) = cmp a b) :
    TransCmp (comparePrimary L sort : TargetRow M → TargetRow M → Ordering) := by
  have hdirected : ∀ directed : α → α → Ordering, TransCmp directed →
      (∀ a b, directed a b = if sort.descending then (cmp a b).swap else cmp a b) →
        TransCmp (comparePrimary L sort : TargetRow M → TargetRow M → Ordering) := by
    intro directed hdirected heq
    have hprimary : (comparePrimary L sort : TargetRow M → TargetRow M → Ordering) =
        fun a b => knownFirst directed (f a) (f b) := by
      funext a b
      simp only [comparePrimary, hkey]
      cases hfa : f a <;> cases hfb : f b <;> simp [knownFirst, heq, hcmp]
    rw [hprimary]
    exact NaturalOrder.transCmp_on f (knownFirst directed)
  by_cases hdescending : sort.descending = true
  · refine hdirected (fun a b => cmp b a) inferInstance fun a b => ?_
    rw [if_pos hdescending]
    exact OrientedCmp.eq_swap
  · exact hdirected cmp inferInstance fun a b => by rw [if_neg hdescending]

instance (sort : TargetsSort) :
    TransCmp (comparePrimary L sort : TargetRow M → TargetRow M → Ordering) := by
  obtain ⟨f, hf⟩ | ⟨f, hf⟩ | ⟨f, hf⟩ := @key_kinds M sort.column
  · exact @transCmp_primary_of L M Text sort f .text (natural L) _ hf fun _ _ => rfl
  · exact @transCmp_primary_of L M M.F64 sort f .number compare _ hf fun _ _ => rfl
  · exact @transCmp_primary_of L M Int sort f .day compare _ hf fun _ _ => rfl

instance (sort : TargetsSort) :
    TransCmp (compareRows L sort : TargetRow M → TargetRow M → Ordering) := by
  have hdesignation : TransCmp fun a b : TargetRow M => natural L a.designation b.designation :=
    NaturalOrder.transCmp_on TargetRow.designation (natural L)
  have hid : TransCmp fun a b : TargetRow M => compare a.id b.id :=
    NaturalOrder.transCmp_on TargetRow.id compare
  exact inferInstanceAs (TransCmp (compareLex (compareLex (comparePrimary L sort)
    (fun a b : TargetRow M => natural L a.designation b.designation))
    (fun a b : TargetRow M => compare a.id b.id)))

theorem id_eq_of_compareRows {sort : TargetsSort} {a b : TargetRow M}
    (h : compareRows L sort a b = .eq) : a.id = b.id :=
  compare_eq_iff_eq.mp (Ordering.then_eq_eq.mp h).2

theorem known_before_unknown {sort : TargetsSort} {a b : TargetRow M}
    (ha : (key a sort.column).isSome = true) (hb : key b sort.column = none) :
    compareRows L sort a b = .lt := by
  obtain ⟨x, hx⟩ := Option.isSome_iff_exists.mp ha
  simp [compareRows, comparePrimary, hx, hb]

section Sorted

variable {L} {rows rows' : List (TargetRow M)} {sort effective : TargetsSort}

theorem sortRows_perm : (sortRows L rows sort).Perm rows := List.mergeSort_perm _ _

theorem pairwise_sortRows :
    (sortRows L rows sort).Pairwise fun a b => (compareRows L sort a b).isLE = true := by
  apply List.pairwise_mergeSort
  · intro a b c hab hbc
    exact TransCmp.isLE_trans hab hbc
  · intro a b
    rw [@OrientedCmp.eq_swap _ (compareRows L sort) _ b a]
    cases compareRows L sort a b <;> rfl

theorem sortRows_congr (hperm : rows.Perm rows') (hids : (rows.map TargetRow.id).Nodup) :
    sortRows L rows sort = sortRows L rows' sort := by
  refine List.Perm.eq_of_pairwise ?_ pairwise_sortRows pairwise_sortRows
    (sortRows_perm.trans (hperm.trans sortRows_perm.symm))
  intro a b ha hb hab hba
  have heq : compareRows L sort a b = .eq := by
    rw [@OrientedCmp.eq_swap _ (compareRows L sort) _ b a] at hba
    cases hcmp : compareRows L sort a b with
    | eq => rfl
    | lt =>
      rw [hcmp] at hba
      cases hba
    | gt =>
      rw [hcmp] at hab
      cases hab
  exact List.inj_on_of_nodup_map hids (sortRows_perm.mem_iff.mp ha)
    (hperm.mem_iff.mpr (sortRows_perm.mem_iff.mp hb)) (id_eq_of_compareRows L heq)

theorem pairwise_sortRows_lt (hids : (rows.map TargetRow.id).Nodup) :
    (sortRows L rows sort).Pairwise fun a b => compareRows L sort a b = .lt := by
  have hne : (sortRows L rows sort).Pairwise fun a b => a.id ≠ b.id :=
    List.pairwise_map.mp ((sortRows_perm.map _).nodup_iff.mpr hids)
  refine (pairwise_sortRows.and hne).imp fun {a b} h => ?_
  cases hcmp : compareRows L sort a b with
  | lt => rfl
  | eq => exact absurd (id_eq_of_compareRows L hcmp) h.2
  | gt =>
    have hle := h.1
    rw [hcmp] at hle
    cases hle

theorem orderRows_perm {query : Option TargetsSort} {bands : List Band} :
    (orderRows L rows query effective bands).Perm rows := by
  unfold orderRows
  dsimp only
  split
  · exact (List.mergeSort_perm _ _).trans sortRows_perm
  · exact sortRows_perm

theorem orderRows_congr {query : Option TargetsSort} {bands : List Band} (hperm : rows.Perm rows')
    (hids : (rows.map TargetRow.id).Nodup) :
    orderRows L rows query effective bands = orderRows L rows' query effective bands := by
  unfold orderRows
  rw [sortRows_congr hperm hids]

end Sorted

theorem flatMap_page {rows : List (TargetRow M)} {size : Nat} (pages : Nat) :
    (List.range pages).flatMap (fun i => page rows (i * size) (some size)) =
      rows.take (pages * size) := by
  induction pages with
  | zero => simp
  | succ pages ih =>
    rw [List.range_succ, List.flatMap_append, ih, Nat.succ_mul, List.take_add]
    simp [page]

end Order

/-! ## The list -/

structure TotalPreorder {α : Type*} (cmp : α → α → Ordering) : Prop where
  refl : ∀ a, cmp a a = .eq
  total : ∀ a b, cmp b a = (cmp a b).swap
  trans : ∀ a b c, (cmp a b).isLE = true → (cmp b c).isLE = true → (cmp a c).isLE = true

theorem totalPreorder_of {α : Type*} (cmp : α → α → Ordering) [TransCmp cmp] : TotalPreorder cmp where
  refl _ := Std.ReflCmp.compare_self
  total _ _ := OrientedCmp.eq_swap
  trans _ _ _ := TransCmp.isLE_trans

def Run (run rest : Text) : Prop :=
  (run ≠ [] ∧ NaturalOrder.IsRun run) ∧ ∀ c ∈ rest.head?, c.isDigit = false

/-- The natural order is a total preorder of all texts that compares runs of digits by value. Rows
have one order for each column and direction, strict where their ids differ, with unknown values last;
the same rows in any order give the same list, and its consecutive pages of any size hold every row
once. -/
theorem targets_list_ordered (L : Lowering) (M : Measures) :
    TotalPreorder (natural L) ∧
      (∀ run rest run' rest', Run run rest → Run run' rest' → natural L (run ++ rest) (run' ++ rest') =
        (compare (NaturalOrder.value run) (NaturalOrder.value run')).then (natural L rest rest')) ∧
      (∀ sort : TargetsSort, TotalPreorder (@compareRows L M sort) ∧
        (∀ a b : TargetRow M, a.id ≠ b.id → compareRows L sort a b ≠ .eq) ∧
        ∀ a b : TargetRow M, (key a sort.column).isSome = true → key b sort.column = none →
          compareRows L sort a b = .lt) ∧
      (∀ (rows rows' : List (TargetRow M)) (query : Option TargetsSort) (effective : TargetsSort)
        (bands : List Band), rows.Perm rows' → (rows.map TargetRow.id).Nodup →
          (sortRows L rows effective).Pairwise (fun a b => compareRows L effective a b = .lt) ∧
          sortRows L rows effective = sortRows L rows' effective ∧
          orderRows L rows query effective bands = orderRows L rows' query effective bands) ∧
      ∀ (rows : List (TargetRow M)) (query : Option TargetsSort) (effective : TargetsSort)
        (bands : List Band) (size pages : Nat), rows.length ≤ pages * size →
          (orderRows L rows query effective bands).Perm rows ∧
          (List.range pages).flatMap (fun i =>
            page (orderRows L rows query effective bands) (i * size) (some size)) =
              orderRows L rows query effective bands := by
  refine ⟨totalPreorder_of _, ?_, ?_, ?_, ?_⟩
  · intro run rest run' rest' hrun hrun'
    exact natural_runs L hrun.1 hrun'.1 hrun.2 hrun'.2
  · intro sort
    exact ⟨totalPreorder_of _, fun a b hne heq => hne (id_eq_of_compareRows L heq),
      fun a b => known_before_unknown L⟩
  · intro rows rows' query effective bands hperm hids
    exact ⟨pairwise_sortRows_lt hids, sortRows_congr hperm hids, orderRows_congr hperm hids⟩
  · intro rows query effective bands size pages hpages
    refine ⟨orderRows_perm, ?_⟩
    rw [flatMap_page, List.take_of_length_le (by rw [orderRows_perm.length_eq]; exact hpages)]

theorem isUpper_range {c : Char} (h : c.isUpper = true) : 65 ≤ c.toNat ∧ c.toNat ≤ 90 := by
  simp only [Char.isUpper, decide_eq_true_eq] at h
  exact h

def asciiLowering : Lowering where
  lower c := if c.isUpper then [Char.ofNat (c.toNat + 32)] else [c]
  lower_digit c h := by
    have hdigit := NaturalOrder.digit_range h
    refine if_neg fun hupper => ?_
    have := isUpper_range hupper
    omega
  lower_other c h := by
    by_cases hupper : c.isUpper = true
    · have hletters : ∀ n < 123, 97 ≤ n → (Char.ofNat n).isDigit = false := by decide
      have := isUpper_range hupper
      exact ⟨_, [], if_pos hupper, hletters (c.toNat + 32) (by omega) (by omega)⟩
    · exact ⟨c, [], if_neg hupper, h⟩

def thousandthMeasures : Measures where
  toFloats := Floats.thousandths
  negZero := (0 : Int)

def messier (id : Uuid) (designation : String) : TargetRow thousandthMeasures where
  id
  designation := designation.toList
  objectType := "galaxy".toList
  maxAltitudeDeg := none
  lunarSeparationDeg := none
  imgTimeMinutes := none
  bands := []
  nextOpposition := none
  sessions := 0
  captured := []

theorem targets_list_ordered_messier :
    sortRows asciiLowering [messier 1 "M 10", messier 2 "m 2"] ⟨.designation, false⟩ =
      sortRows asciiLowering [messier 2 "m 2", messier 1 "M 10"] ⟨.designation, false⟩ := by
  have hids : ([messier 1 "M 10", messier 2 "m 2"].map TargetRow.id).Nodup := by
    simp [messier]
  exact ((targets_list_ordered asciiLowering thousandthMeasures).2.2.2.1 _ _ none
    ⟨.designation, false⟩ [] (List.Perm.swap _ _ _) hids).2.1

end PlateVault.Planning
