import Mathlib.Data.List.Basic

/-!
# Escaped, separated texts

Fields written one after another behind a separator read back by splitting, when no field holds the
separator. An `Escape` writes any text without its separator, through codes that start with a mark
character; two replacements in the right order undo it, whatever the text holds.
-/

section Fields

variable {α : Type*} [BEq α] [LawfulBEq α]

/-- `head`, then every field behind a separator. -/
def joined (sep : α) (head : List α) (fields : List (List α)) : List α :=
  head ++ fields.flatMap (sep :: ·)

omit [BEq α] [LawfulBEq α] in
@[simp] theorem joined_nil (sep : α) (head : List α) : joined sep head [] = head := by
  simp [joined]

omit [BEq α] [LawfulBEq α] in
theorem joined_cons (sep : α) (head field : List α) (fields : List (List α)) :
    joined sep head (field :: fields) = joined sep (head ++ sep :: field) fields := by
  simp [joined]

/-- Splitting at the separator gives the fields back. -/
theorem splitOn_joined {sep : α} {head : List α} {fields : List (List α)} (hhead : sep ∉ head)
    (hfields : ∀ field ∈ fields, sep ∉ field) :
    (joined sep head fields).splitOn sep = head :: fields := by
  induction fields generalizing head with
  | nil => simpa [joined] using List.splitOn_eq_singleton hhead
  | cons field fields ih =>
    have hstep : joined sep head (field :: fields) = head ++ sep :: joined sep field fields := by
      simp [joined]
    rw [hstep, List.splitOn_append_cons_self_of_not_mem hhead,
      ih (hfields field (by simp)) fun f hf => hfields f (by simp [hf])]

/-- Splitting joined parts splits each of them. -/
theorem splitOn_intercalate_flatMap (sep : α) {parts : List (List α)} (h : parts ≠ []) :
    ([sep].intercalate parts).splitOn sep = parts.flatMap (·.splitOn sep) := by
  induction parts with
  | nil => exact absurd rfl h
  | cons part parts ih =>
    by_cases hrest : parts = []
    · subst hrest
      simp
    · rw [List.intercalate_cons_of_ne_nil hrest, List.append_assoc, List.singleton_append,
        List.splitOn_append_cons_self, ih hrest, List.flatMap_cons]

end Fields

theorem mem_intercalate {α : Type*} {sep : List α} {parts : List (List α)} {c : α}
    (h : c ∈ sep.intercalate parts) : c ∈ sep ∨ ∃ part ∈ parts, c ∈ part := by
  induction parts with
  | nil => cases h
  | cons part parts ih =>
    by_cases hrest : parts = []
    · subst hrest
      rw [List.intercalate_singleton] at h
      exact .inr ⟨part, List.mem_cons_self, h⟩
    · rw [List.intercalate_cons_of_ne_nil hrest, List.append_assoc, List.mem_append,
        List.mem_append] at h
      rcases h with h | h | h
      · exact .inr ⟨part, List.mem_cons_self, h⟩
      · exact .inl h
      · obtain hsep | ⟨other, hother, hc⟩ := ih h
        · exact .inl hsep
        · exact .inr ⟨other, List.mem_cons_of_mem _ hother, hc⟩

theorem map_intercalate {α β : Type*} (f : α → β) (sep : List α) (parts : List (List α)) :
    (sep.intercalate parts).map f = (sep.map f).intercalate (parts.map (·.map f)) := by
  induction parts with
  | nil => rfl
  | cons part parts ih =>
    by_cases hrest : parts = []
    · subst hrest
      simp
    · rw [List.intercalate_cons_of_ne_nil hrest, List.map_append, List.map_append, ih,
        List.map_cons, List.intercalate_cons_of_ne_nil (by simpa using hrest)]

section Replace

variable {α : Type*} [DecidableEq α]

/-- The scan behind `replaceAll`, `skip` characters into a match. -/
def replaceFrom (pattern replacement : List α) : Nat → List α → List α
  | _, [] => []
  | skip + 1, _ :: rest => replaceFrom pattern replacement skip rest
  | 0, c :: rest =>
    if pattern.isPrefixOf (c :: rest) then
      replacement ++ replaceFrom pattern replacement (pattern.length - 1) rest
    else c :: replaceFrom pattern replacement 0 rest

/-- Replace every match of a non-empty pattern, leftmost first and without overlap. -/
def replaceAll (pattern replacement text : List α) : List α :=
  replaceFrom pattern replacement 0 text

theorem replaceFrom_append (pattern replacement skipped rest : List α) :
    replaceFrom pattern replacement skipped.length (skipped ++ rest) =
      replaceAll pattern replacement rest := by
  induction skipped with
  | nil => rfl
  | cons c skipped ih => exact ih

@[simp] theorem replaceAll_nil (pattern replacement : List α) :
    replaceAll pattern replacement [] = [] := rfl

/-- At a match the scan goes on behind it. -/
theorem replaceAll_match (c : α) (pattern replacement rest : List α) :
    replaceAll (c :: pattern) replacement (c :: (pattern ++ rest)) =
      replacement ++ replaceAll (c :: pattern) replacement rest := by
  have hprefix : (c :: pattern).isPrefixOf (c :: (pattern ++ rest)) = true := by
    rw [List.isPrefixOf_iff_prefix]
    exact List.prefix_append (c :: pattern) rest
  simp only [replaceAll, replaceFrom, hprefix, if_true]
  rw [List.length_cons, Nat.add_sub_cancel, replaceFrom_append]
  rfl

/-- A character that starts no match stays. -/
theorem replaceAll_cons {c : α} {pattern replacement rest : List α}
    (h : ¬ pattern <+: c :: rest) :
    replaceAll pattern replacement (c :: rest) = c :: replaceAll pattern replacement rest := by
  have hprefix : pattern.isPrefixOf (c :: rest) = false := by
    rw [← Bool.not_eq_true, List.isPrefixOf_iff_prefix]
    exact h
  simp [replaceAll, replaceFrom, hprefix]

/-- Characters that are not the pattern's first one stay. -/
theorem replaceAll_append {mark : α} {pattern replacement kept : List α} (h : mark ∉ kept)
    (rest : List α) :
    replaceAll (mark :: pattern) replacement (kept ++ rest) =
      kept ++ replaceAll (mark :: pattern) replacement rest := by
  induction kept with
  | nil => rfl
  | cons c kept ih =>
    rw [List.mem_cons, not_or] at h
    rw [List.cons_append, replaceAll_cons, ih h.2, List.cons_append]
    intro hprefix
    exact h.1 (List.cons_prefix_cons.mp hprefix).1

end Replace

/-- Two characters and the codes they are written as: a mark, and the separator a text must not
hold. Codes have one length and neither of the two characters. -/
structure Escape (α : Type*) where
  mark : α
  sep : α
  markCode : List α
  sepCode : List α
  mark_ne_sep : mark ≠ sep
  length_eq : markCode.length = sepCode.length
  code_ne : markCode ≠ sepCode
  mark_notMem_markCode : mark ∉ markCode
  mark_notMem_sepCode : mark ∉ sepCode
  sep_notMem_markCode : sep ∉ markCode
  sep_notMem_sepCode : sep ∉ sepCode

namespace Escape

variable {α : Type*} [DecidableEq α] (e : Escape α)

/-- How one character is written. -/
def code (c : α) : List α :=
  if c = e.mark then e.mark :: e.markCode else if c = e.sep then e.mark :: e.sepCode else [c]

def encode (text : List α) : List α := text.flatMap e.code

/-- Undo the codes: first the separator's, then the mark's. -/
def decode (text : List α) : List α :=
  replaceAll (e.mark :: e.markCode) [e.mark] (replaceAll (e.mark :: e.sepCode) [e.sep] text)

/-- An encoded text never holds the separator. -/
theorem sep_notMem_encode (text : List α) : e.sep ∉ e.encode text := by
  intro h
  obtain ⟨c, -, hc⟩ := List.mem_flatMap.mp h
  unfold code at hc
  split at hc
  · rcases List.mem_cons.mp hc with hsep | hsep
    · exact e.mark_ne_sep hsep.symm
    · exact e.sep_notMem_markCode hsep
  · split at hc
    · rcases List.mem_cons.mp hc with hsep | hsep
      · exact e.mark_ne_sep hsep.symm
      · exact e.sep_notMem_sepCode hsep
    · next _ hne => exact hne (List.mem_singleton.mp hc).symm

omit [DecidableEq α] in
/-- A mark code starts no match of the separator's code. -/
theorem sepCode_not_prefix (rest : List α) :
    ¬ e.mark :: e.sepCode <+: e.mark :: (e.markCode ++ rest) := by
  intro h
  have hprefix : e.sepCode <+: e.markCode ++ rest := (List.cons_prefix_cons.mp h).2
  have heq : e.sepCode = e.markCode := by
    have htake := List.prefix_iff_eq_take.mp hprefix
    rwa [← e.length_eq, List.take_left] at htake
  exact e.code_ne heq.symm

/-- The text between the two replacements: only marks are still coded. -/
def half (text : List α) : List α :=
  text.flatMap fun c => if c = e.mark then e.mark :: e.markCode else [c]

theorem replaceAll_sepCode (text : List α) :
    replaceAll (e.mark :: e.sepCode) [e.sep] (e.encode text) = e.half text := by
  induction text with
  | nil => rfl
  | cons c text ih =>
    simp only [encode, half, List.flatMap_cons] at ih ⊢
    by_cases hmark : c = e.mark
    · subst hmark
      simp only [code, if_true, List.cons_append]
      rw [replaceAll_cons (e.sepCode_not_prefix _), replaceAll_append e.mark_notMem_markCode, ih]
    · by_cases hsep : c = e.sep
      · subst hsep
        simp only [code, if_neg hmark, if_true, List.cons_append]
        rw [replaceAll_match, ih]
        rfl
      · simp only [code, if_neg hmark, if_neg hsep]
        rw [replaceAll_append (by simpa using Ne.symm hmark), ih]

theorem replaceAll_markCode (text : List α) :
    replaceAll (e.mark :: e.markCode) [e.mark] (e.half text) = text := by
  induction text with
  | nil => rfl
  | cons c text ih =>
    simp only [half, List.flatMap_cons] at ih ⊢
    by_cases hmark : c = e.mark
    · subst hmark
      simp only [if_true, List.cons_append]
      rw [replaceAll_match, ih]
      rfl
    · simp only [if_neg hmark]
      rw [replaceAll_append (by simpa using Ne.symm hmark), ih]
      rfl

/-- Every text reads back, also one that looks like a code. -/
theorem decode_encode (text : List α) : e.decode (e.encode text) = text := by
  rw [decode, replaceAll_sepCode, replaceAll_markCode]

theorem encode_injective : Function.Injective e.encode :=
  Function.LeftInverse.injective e.decode_encode

end Escape
