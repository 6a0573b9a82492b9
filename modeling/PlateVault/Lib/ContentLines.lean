import Mathlib.Data.List.Basic

/-!
# Folded content lines

A content line ends in CRLF; a longer one is folded, a CRLF and one white space wherever its writer
breaks it. Unfolding takes every fold out again. `Folds` tells what a folded line may look like,
whatever rule the writer breaks it by.
-/

namespace ContentLines

def crlf : List Char := ['\r', '\n']

/-- Take out every line break that white space follows, and that white space. -/
def unfolded : List Char → List Char
  | '\r' :: '\n' :: ' ' :: rest => unfolded rest
  | '\r' :: '\n' :: '\t' :: rest => unfolded rest
  | c :: rest => c :: unfolded rest
  | [] => []

/-- The lines of a text, `line` being read; a last line without its end is a line. -/
def linesFrom (line : List Char) : List Char → List (List Char)
  | '\r' :: '\n' :: rest => line :: linesFrom [] rest
  | c :: rest => linesFrom (line ++ [c]) rest
  | [] => if line = [] then [] else [line]

/-- `folded` is `line` with folds between some of its characters. -/
inductive Folds : List Char → List Char → Prop
  | nil : Folds [] []
  | char (c : Char) {line folded : List Char} : Folds line folded → Folds (c :: line) (c :: folded)
  | fold {line folded : List Char} : Folds line folded →
      Folds line ('\r' :: '\n' :: ' ' :: folded)

/-- Text that goes on with a line of its own. -/
def Starts (text : List Char) : Prop := ∀ c rest, text = c :: rest → c ≠ ' ' ∧ c ≠ '\t'

theorem unfolded_cons {c : Char} (h : c ≠ '\r') (rest : List Char) :
    unfolded (c :: rest) = c :: unfolded rest := by
  rw [unfolded.eq_def]
  split <;> simp_all

theorem unfolded_crlf {rest : List Char} (h : Starts rest) :
    unfolded (crlf ++ rest) = crlf ++ unfolded rest := by
  have hbreak : unfolded ('\r' :: '\n' :: rest) = '\r' :: unfolded ('\n' :: rest) := by
    rw [unfolded.eq_def]
    split
    · next heq =>
      cases heq
      exact absurd rfl (h ' ' _ rfl).1
    · next heq =>
      cases heq
      exact absurd rfl (h '\t' _ rfl).2
    · next heq =>
      cases heq
      rfl
    · next heq => cases heq
  rw [crlf, List.cons_append, List.cons_append, List.nil_append, hbreak,
    unfolded_cons (by decide)]
  rfl

/-- Unfolding a folded line, whatever line follows. -/
theorem unfolded_folds {line folded rest : List Char} (h : Folds line folded) (hline : '\r' ∉ line)
    (hrest : Starts rest) :
    unfolded (folded ++ (crlf ++ rest)) = line ++ (crlf ++ unfolded rest) := by
  induction h with
  | nil => exact unfolded_crlf hrest
  | char c _ ih =>
    rw [List.mem_cons, not_or] at hline
    rw [List.cons_append, unfolded_cons (Ne.symm hline.1), ih hline.2, List.cons_append]
  | fold _ ih => exact ih hline

theorem linesFrom_append {line rest : List Char} (h : '\r' ∉ line) (read : List Char) :
    linesFrom read (line ++ (crlf ++ rest)) = (read ++ line) :: linesFrom [] rest := by
  induction line generalizing read with
  | nil =>
    rw [List.append_nil]
    rfl
  | cons c line ih =>
    rw [List.mem_cons, not_or] at h
    rw [List.cons_append, linesFrom.eq_def]
    split
    · next heq => exact absurd (List.cons.inj heq).1.symm h.1
    · next heq =>
      obtain ⟨rfl, rfl⟩ := List.cons.inj heq
      rw [ih h.2, List.append_assoc]
      rfl
    · next heq => cases heq

/-- The lines of a text of folded lines. -/
theorem linesFrom_unfolded {lines : List (List Char)} {folded : List Char → List Char}
    (hfolds : ∀ line ∈ lines, Folds line (folded line)) (hcr : ∀ line ∈ lines, '\r' ∉ line)
    (hstarts : ∀ line ∈ lines, ∀ rest, Starts (folded line ++ (crlf ++ rest))) :
    linesFrom [] (unfolded (lines.flatMap fun line => folded line ++ crlf)) = lines := by
  induction lines with
  | nil => rfl
  | cons line lines ih =>
    have hrest : Starts (lines.flatMap fun line => folded line ++ crlf) := by
      cases lines with
      | nil => exact fun c rest h => by cases h
      | cons next lines =>
        rw [List.flatMap_cons, List.append_assoc]
        exact hstarts next (by simp) _
    rw [List.flatMap_cons, List.append_assoc,
      unfolded_folds (hfolds line (by simp)) (hcr line (by simp)) hrest,
      linesFrom_append (hcr line (by simp)), List.nil_append,
      ih (fun l hl => hfolds l (List.mem_cons_of_mem _ hl))
        (fun l hl => hcr l (List.mem_cons_of_mem _ hl))
        (fun l hl => hstarts l (List.mem_cons_of_mem _ hl))]

end ContentLines
