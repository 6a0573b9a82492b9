import Mathlib.Data.List.Basic

/-!
# Texts cut at a separator

Fields joined by a separator are read back by cutting so many of them off the front and so many off
the end. What is left between may hold the separator.
-/

namespace Delimited

variable {α : Type} {sep : α}

/-- Fields one after the other, each with the separator behind it. -/
def terminated (sep : α) (fields : List (List α)) : List α := fields.flatMap (· ++ [sep])

@[simp] theorem terminated_nil : terminated sep [] = [] := rfl

@[simp] theorem terminated_cons (field : List α) (fields : List (List α)) :
    terminated sep (field :: fields) = field ++ sep :: terminated sep fields := by
  simp [terminated]

theorem terminated_append (fields others : List (List α)) :
    terminated sep (fields ++ others) = terminated sep fields ++ terminated sep others :=
  List.flatMap_append

/-- Joining writes every field but the last with the separator behind it. -/
theorem intercalate_snoc (fields : List (List α)) (last : List α) :
    List.intercalate [sep] (fields ++ [last]) = terminated sep fields ++ last := by
  induction fields with
  | nil => simp
  | cons field fields ih =>
    rw [List.cons_append, List.intercalate_cons_of_ne_nil (by simp), ih]
    simp

/-- The last field of two or more. -/
theorem intercalate_snoc_of_ne_nil {fields : List (List α)} (last : List α) (h : fields ≠ []) :
    List.intercalate [sep] (fields ++ [last]) = List.intercalate [sep] fields ++ sep :: last := by
  obtain ⟨init, field, rfl⟩ := (List.eq_nil_or_concat fields).resolve_left h
  rw [List.concat_eq_append, intercalate_snoc, intercalate_snoc, terminated_append]
  simp

theorem reverse_intercalate (fields : List (List α)) :
    (List.intercalate [sep] fields).reverse =
      List.intercalate [sep] (fields.reverse.map List.reverse) := by
  induction fields with
  | nil => rfl
  | cons field fields ih =>
    by_cases hnil : fields = []
    · subst hnil
      simp
    · rw [List.intercalate_cons_of_ne_nil hnil, List.reverse_cons, List.map_append,
        List.map_singleton, intercalate_snoc_of_ne_nil _ (by simpa using hnil), ← ih]
      simp

variable [DecidableEq α]

/-- What stands before and after the first separator. -/
def cut (sep : α) : List α → Option (List α × List α)
  | [] => none
  | a :: rest =>
    if a = sep then some ([], rest) else (cut sep rest).map fun (field, rest) => (a :: field, rest)

theorem cut_append {field : List α} (rest : List α) (h : sep ∉ field) :
    cut sep (field ++ sep :: rest) = some (field, rest) := by
  induction field with
  | nil => simp [cut]
  | cons a field ih =>
    have hne : a ≠ sep := fun hsep => h (hsep ▸ List.mem_cons_self)
    have hfield : sep ∉ field := fun hsep => h (List.mem_cons_of_mem _ hsep)
    rw [List.cons_append, cut, if_neg hne, ih hfield]
    rfl

/-- The fields of a text, `n` of them at most: the last holds what is left. -/
def splitN (sep : α) : Nat → List α → List (List α)
  | 0, _ => []
  | 1, text => [text]
  | n + 2, text =>
    match cut sep text with
    | none => [text]
    | some (field, rest) => field :: splitN sep (n + 1) rest

/-- The fields of a text from its end, `n` of them at most. -/
def rsplitN (sep : α) (n : Nat) (text : List α) : List (List α) :=
  (splitN sep n text.reverse).map List.reverse

theorem splitN_terminated {fields : List (List α)} (rest : List α)
    (h : ∀ field ∈ fields, sep ∉ field) :
    splitN sep (fields.length + 1) (terminated sep fields ++ rest) = fields ++ [rest] := by
  induction fields with
  | nil => rfl
  | cons field fields ih =>
    have hcut : cut sep (terminated sep (field :: fields) ++ rest) =
        some (field, terminated sep fields ++ rest) := by
      rw [terminated_cons, List.append_assoc, List.cons_append]
      exact cut_append _ (h field List.mem_cons_self)
    rw [List.length_cons, splitN, hcut]
    simp only [List.cons_append]
    rw [ih fun other hother => h other (List.mem_cons_of_mem _ hother)]

/-- The first fields come off the front as they were written. -/
theorem splitN_intercalate {first : List (List α)} (rest : List (List α)) (hrest : rest ≠ [])
    (h : ∀ field ∈ first, sep ∉ field) :
    splitN sep (first.length + 1) (List.intercalate [sep] (first ++ rest)) =
      first ++ [List.intercalate [sep] rest] := by
  obtain ⟨init, last, rfl⟩ := (List.eq_nil_or_concat rest).resolve_left hrest
  rw [List.concat_eq_append, ← List.append_assoc, intercalate_snoc, terminated_append,
    List.append_assoc, ← intercalate_snoc init last]
  exact splitN_terminated _ h

/-- The last fields come off the end as they were written. -/
theorem rsplitN_intercalate (rest : List α) {last : List (List α)}
    (h : ∀ field ∈ last, sep ∉ field) :
    rsplitN sep (last.length + 1) (List.intercalate [sep] (rest :: last)) =
      last.reverse ++ [rest] := by
  have hlast : ∀ field ∈ last.reverse.map List.reverse, sep ∉ field := by
    intro field hfield
    obtain ⟨other, hother, rfl⟩ := List.mem_map.mp hfield
    rw [List.mem_reverse]
    exact h other (List.mem_reverse.mp hother)
  have hsplit := splitN_intercalate [rest.reverse] (by simp) hlast
  rw [rsplitN, reverse_intercalate, List.reverse_cons, List.map_append]
  rw [List.length_map, List.length_reverse] at hsplit
  rw [List.map_singleton, hsplit]
  simp

end Delimited
