import PlateVault.Lib.Fallible
import PlateVault.Naming.Resolve

/-!
# Pieces of a template

A template part is a sequence of pieces, literal runs and tokens. Each piece renders to a text that
is safe wherever it stands in a segment: without reserved or stripped characters, and with no dot or
white space at an end.
-/

namespace PlateVault.Naming

variable {u : Unicode} {bundle : MetadataBundle}

/-! ## Sanitized texts -/

/-- A text that is safe in a segment, and next to others. -/
structure SafeText (text : Text) : Prop where
  inhabited : text ≠ []
  allowed : ∀ c ∈ text, isDisallowed c = false ∧ isWindowsReservedChar c = false
  first : ∀ c ∈ text.head?, isTrimmed c = false
  last : ∀ c ∈ text.getLast?, isTrimmed c = false

theorem SafeText.append {left right : Text} (h : SafeText left) (h' : SafeText right) :
    SafeText (left ++ right) where
  inhabited := by simp [h.inhabited]
  allowed := fun c hc => (List.mem_append.mp hc).elim (h.allowed c) (h'.allowed c)
  first := fun c hc => by
    rw [List.head?_append_of_ne_nil _ h.inhabited] at hc
    exact h.first c hc
  last := fun c hc => by
    rw [List.getLast?_append_of_ne_nil _ h'.inhabited] at hc
    exact h'.last c hc

theorem substitute_not_reserved (c : Char) : isWindowsReservedChar (substitute c) = false := by
  unfold substitute
  split
  · decide
  · next h => exact Bool.eq_false_iff.mpr h

theorem substitute_allowed {c : Char} (h : isDisallowed c = false) :
    isDisallowed (substitute c) = false := by
  unfold substitute
  split
  · decide
  · exact h

section Trim

variable {p : Char → Bool} {text : Text}

theorem mem_of_mem_dropWhile {c : Char} (h : c ∈ text.dropWhile p) : c ∈ text :=
  (List.dropWhile_sublist p).subset h

theorem mem_dropWhile {c : Char} (hc : p c = false) (h : c ∈ text) : c ∈ text.dropWhile p := by
  induction text with
  | nil => cases h
  | cons d text ih =>
    rw [List.dropWhile_cons]
    split
    · next hd =>
      rcases List.mem_cons.mp h with rfl | hmem
      · rw [hc] at hd
        cases hd
      · exact ih hmem
    · exact h

theorem mem_of_mem_trimMatches {c : Char} (h : c ∈ trimMatches p text) : c ∈ text := by
  rw [trimMatches, List.mem_reverse] at h
  exact mem_of_mem_dropWhile (List.mem_reverse.mp (mem_of_mem_dropWhile h))

theorem mem_trimMatches {c : Char} (hc : p c = false) (h : c ∈ text) : c ∈ trimMatches p text := by
  rw [trimMatches, List.mem_reverse]
  exact mem_dropWhile hc (List.mem_reverse.mpr (mem_dropWhile hc h))

theorem head?_dropWhile {c : Char} (h : c ∈ (text.dropWhile p).head?) : p c = false := by
  induction text with
  | nil => cases h
  | cons d text ih =>
    rw [List.dropWhile_cons] at h
    split at h
    · exact ih h
    · next hd =>
      cases h
      exact Bool.eq_false_iff.mpr hd

theorem getLast?_trimMatches {c : Char} (h : c ∈ (trimMatches p text).getLast?) :
    p c = false := by
  rw [trimMatches, List.getLast?_reverse] at h
  exact head?_dropWhile h

theorem head?_trimMatches {c : Char} (h : c ∈ (trimMatches p text).head?) : p c = false := by
  -- the first character left is the first after the leading ones were dropped
  suffices hfirst : c ∈ (text.dropWhile p).head? from head?_dropWhile hfirst
  rw [trimMatches, List.head?_reverse] at h
  obtain ⟨dropped, hdropped⟩ := List.dropWhile_suffix (l := (text.dropWhile p).reverse) p
  have hrest : (text.dropWhile p).reverse.dropWhile p ≠ [] := by
    rintro hnil
    rw [hnil] at h
    cases h
  rw [← List.getLast?_reverse, ← hdropped, List.getLast?_append_of_ne_nil _ hrest]
  exact h

end Trim

/-! ## Sanitizing -/

/-- What the sanitizer makes of a text before it checks it. -/
def sanitized (u : Unicode) (raw : Text) : Text :=
  step2SubstituteReservedChars (step1NormalizeAndStrip u raw)

section Sanitize

variable {token raw text : Text}

theorem sanitize_eq_ok (h : sanitizeTokenValue u token raw = .ok text) :
    text = sanitized u raw ∧ text ≠ [] := by
  simp only [sanitizeTokenValue, Except.bind_eq_ok_iff] at h
  obtain ⟨-, -, h⟩ := h
  split at h
  · cases h
  · next hne =>
    simp only [Except.bind_eq_ok_iff, Except.pure_eq_ok_iff] at h
    obtain ⟨-, -, -, -, rfl⟩ := h
    exact ⟨rfl, by simpa [List.isEmpty_iff] using hne⟩

theorem sanitize_empty {token' raw' : Text}
    (h : sanitizeTokenValue u token raw = .error (.emptyAfterSanitize token' raw')) :
    sanitized u raw = [] := by
  simp only [sanitizeTokenValue, Except.bind_eq_error_iff] at h
  rcases h with htraversal | ⟨-, -, h⟩
  · unfold step3TraversalCheck at htraversal
    split at htraversal <;> cases htraversal
  · split at h
    · next hempty => exact List.isEmpty_iff.mp hempty
    · simp only [Except.bind_eq_error_iff, Except.pure_ne_error, and_false, exists_false,
        or_false] at h
      rcases h with hreserved | ⟨-, -, hconfusable⟩
      · unfold step4ReservedNameCheck at hreserved
        split at hreserved <;> cases hreserved
      · unfold step5ConfusablesCheck at hconfusable
        split at hconfusable <;> cases hconfusable

theorem SafeText.sanitized (hne : sanitized u raw ≠ []) : SafeText (sanitized u raw) := by
  refine ⟨hne, fun c hc => ?_, fun c hc => head?_trimMatches hc, fun c hc => getLast?_trimMatches hc⟩
  obtain ⟨d, hd, rfl⟩ := List.mem_map.mp (mem_of_mem_trimMatches hc)
  have hallowed : isDisallowed d = false := by simpa using (List.mem_filter.mp hd).2
  exact ⟨substitute_allowed hallowed, substitute_not_reserved d⟩

theorem SafeText.of_sanitize (h : sanitizeTokenValue u token raw = .ok text) : SafeText text := by
  obtain ⟨rfl, hne⟩ := sanitize_eq_ok h
  exact .sanitized hne

/-- The control and the bidi character that no step strips: U+007F and U+061C. -/
def isUnstripped (c : Char) : Bool := c = '\u007f' || c = '\u061c'

theorem unstripped_passes {c : Char} (h : isUnstripped c = true) : isDisallowed c = false ∧
    isWindowsReservedChar c = false ∧ isTrimmed c = false := by
  simp only [isUnstripped, Bool.or_eq_true, decide_eq_true_eq] at h
  rcases h with rfl | rfl <;> decide

theorem any_unstripped_sanitized :
    (sanitized u raw).any isUnstripped = (u.nfc raw).any isUnstripped := by
  rw [Bool.eq_iff_iff, List.any_eq_true, List.any_eq_true]
  constructor
  · rintro ⟨c, hc, hunstripped⟩
    obtain ⟨d, hd, rfl⟩ := List.mem_map.mp (mem_of_mem_trimMatches hc)
    unfold substitute at hunstripped
    split at hunstripped
    · cases hunstripped
    · exact ⟨d, (List.mem_filter.mp hd).1, hunstripped⟩
  · rintro ⟨c, hc, hunstripped⟩
    obtain ⟨hallowed, hreserved, htrimmed⟩ := unstripped_passes hunstripped
    have hsubstitute : substitute c = c := by simp [substitute, hreserved]
    refine ⟨c, mem_trimMatches htrimmed ?_, hunstripped⟩
    exact List.mem_map.mpr ⟨c, List.mem_filter.mpr ⟨hc, by simp [hallowed]⟩, hsubstitute⟩

end Sanitize

/-! ## Fallbacks -/

theorem registry_get_mem {name : Text} {definition : TokenDefinition}
    (h : v1Registry.get name = some definition) :
    definition ∈ v1Registry ∧ definition.name = name :=
  ⟨List.mem_reverse.mp (List.mem_of_find?_eq_some h), by simpa using List.find?_some h⟩

theorem fallback_plain : ∀ definition ∈ v1Registry, isAscii definition.fallback = true ∧
    definition.fallback.map Char.toLower = definition.fallback ∧ definition.transform ≠ .upper ∧
    step2SubstituteReservedChars (definition.fallback.filter (!isDisallowed ·)) =
      definition.fallback ∧ definition.fallback.any isUnstripped = false := by
  decide

theorem fallback_sanitized {definition : TokenDefinition} (h : definition ∈ v1Registry) :
    sanitized u (applyTransform u definition.fallback definition.transform) =
      definition.fallback := by
  obtain ⟨hascii, hlower, hupper, hstep, -⟩ := fallback_plain definition h
  have htransform : applyTransform u definition.fallback definition.transform =
      definition.fallback := by
    cases htransform : definition.transform with
    | sanitizeOnly => rfl
    | dateIso => rfl
    | lower => exact (u.toLowercase_ascii _ hascii).trans hlower
    | upper => exact absurd htransform hupper
  rw [htransform, sanitized, step1NormalizeAndStrip, u.nfc_ascii _ hascii, hstep]

theorem fallback_safe (u : Unicode) {definition : TokenDefinition}
    (h : definition ∈ v1Registry) : SafeText definition.fallback := by
  have hne : ∀ definition ∈ v1Registry, definition.fallback ≠ [] := by decide
  have heq := fallback_sanitized (u := u) h
  rw [← heq]
  refine SafeText.sanitized ?_
  rw [heq]
  exact hne definition h

/-! ## Pieces -/

inductive Piece
  | literal (text : Text)
  | token (name : Text)
  deriving DecidableEq, Repr

def Piece.text : Piece → Text
  | .literal text => text
  | .token name => '{' :: name ++ ['}']

def piecesBefore (before : Text) : List Piece :=
  if before.isEmpty then [] else [.literal before]

def piecesFrom : (turns : Nat) → (rest : Text) → List Piece
  | 0, _ => []
  | turns + 1, rest =>
    if rest.isEmpty then []
    else
      match rest.dropWhile (· ≠ '{') with
      | [] => [.literal rest]
      | brace :: after =>
        piecesBefore (rest.takeWhile (· ≠ '{')) ++
          match after.dropWhile (· ≠ '}') with
          | [] => [.literal (brace :: after)]
          | _ :: rest => .token (after.takeWhile (· ≠ '}')) :: piecesFrom turns rest

def pieces (segment : Text) : List Piece := piecesFrom segment.length segment

theorem dropWhile_brace {c brace : Char} {text after : Text}
    (h : text.dropWhile (· ≠ c) = brace :: after) :
    brace = c ∧ text = text.takeWhile (· ≠ c) ++ c :: after := by
  have hhead : brace ∈ (text.dropWhile (· ≠ c)).head? := by
    rw [h]
    rfl
  obtain rfl : brace = c := by simpa using head?_dropWhile hhead
  refine ⟨rfl, ?_⟩
  rw [← h, List.takeWhile_append_dropWhile]

theorem piecesFrom_text {turns : Nat} {rest : Text} (h : rest.length ≤ turns) :
    (piecesFrom turns rest).flatMap Piece.text = rest := by
  induction turns generalizing rest with
  | zero =>
    obtain rfl : rest = [] := List.length_eq_zero_iff.mp (by omega)
    rfl
  | succ turns ih =>
    have hbefore : ∀ before, (piecesBefore before).flatMap Piece.text = before := by
      intro before
      unfold piecesBefore
      split
      · next hempty => rw [List.isEmpty_iff.mp hempty, List.flatMap_nil]
      · simp [Piece.text]
    unfold piecesFrom
    split
    · next hempty => rw [List.isEmpty_iff.mp hempty, List.flatMap_nil]
    · split
      · simp [Piece.text]
      · next brace after hopen =>
        obtain ⟨rfl, hrest⟩ := dropWhile_brace hopen
        rw [List.flatMap_append, hbefore]
        split
        · conv_rhs => rw [hrest]
          simp [Piece.text]
        · next close rest' hclose =>
          obtain ⟨rfl, hafter⟩ := dropWhile_brace hclose
          have hlength : rest'.length ≤ turns := by
            have h₁ := congrArg List.length hrest
            have h₂ := congrArg List.length hafter
            simp only [List.length_append, List.length_cons] at h₁ h₂
            omega
          rw [List.flatMap_cons, ih hlength]
          conv_rhs => rw [hrest, hafter]
          simp [Piece.text]

theorem pieces_text (segment : Text) : (pieces segment).flatMap Piece.text = segment :=
  piecesFrom_text le_rfl

/-- What one piece renders to, and the tokens that took their fallback. -/
def renderPiece (u : Unicode) (bundle : MetadataBundle) (missingTokens : List Text) :
    Piece → Except ResolveError (Text × List Text)
  | .literal text => do
    let text ← sanitizeLiteral u text
    return (text, missingTokens)
  | .token name => resolveOneToken u bundle v1Registry name missingTokens

def renderPieces (u : Unicode) (bundle : MetadataBundle) :
    List Piece → List Text → Except ResolveError (Text × List Text)
  | [], missingTokens => .ok ([], missingTokens)
  | piece :: rest, missingTokens => do
    let (text, missingTokens) ← renderPiece u bundle missingTokens piece
    let (texts, missingTokens) ← renderPieces u bundle rest missingTokens
    return (text ++ texts, missingTokens)

theorem renderPieces_append (left right : List Piece) (missingTokens : List Text) :
    renderPieces u bundle (left ++ right) missingTokens = (do
      let (text, missingTokens) ← renderPieces u bundle left missingTokens
      let (texts, missingTokens) ← renderPieces u bundle right missingTokens
      return (text ++ texts, missingTokens)) := by
  induction left generalizing missingTokens with
  | nil =>
    change renderPieces u bundle right missingTokens =
      renderPieces u bundle right missingTokens >>= fun rendered => pure ([] ++ rendered.1, rendered.2)
    cases renderPieces u bundle right missingTokens <;> rfl
  | cons piece left ih => simp [renderPieces, ih, List.append_assoc]

theorem renderPieces_before (before : Text) (missingTokens : List Text) :
    renderPieces u bundle (piecesBefore before) missingTokens = (do
      let text ← literalBefore u before
      return (text, missingTokens)) := by
  unfold piecesBefore literalBefore
  split
  · rfl
  · simp only [renderPieces, renderPiece]
    cases sanitizeLiteral u before <;> simp [bind, Except.bind, pure, Except.pure]

theorem resolveRun_eq (turns : Nat) (out : Text) (missingTokens : List Text) (rest : Text) :
    resolveRun u bundle v1Registry turns out missingTokens rest = (do
      let (text, missingTokens) ← renderPieces u bundle (piecesFrom turns rest) missingTokens
      return (out ++ text, missingTokens)) := by
  induction turns generalizing out missingTokens rest with
  | zero => simp [resolveRun, piecesFrom, renderPieces, bind, Except.bind, pure, Except.pure]
  | succ turns ih =>
    unfold resolveRun piecesFrom
    by_cases hempty : rest.isEmpty
    · simp [hempty, renderPieces, bind, Except.bind, pure, Except.pure]
    · rw [if_neg hempty, if_neg hempty]
      cases hopen : rest.dropWhile (· ≠ '{') with
      | nil =>
        simp only [renderPieces, renderPiece]
        cases sanitizeLiteral u rest <;> simp [bind, Except.bind, pure, Except.pure]
      | cons brace after =>
        simp only
        rw [renderPieces_append, renderPieces_before]
        cases literalBefore u (rest.takeWhile (· ≠ '{')) with
        | error error => rfl
        | ok before =>
          cases hclose : after.dropWhile (· ≠ '}') with
          | nil =>
            simp only [renderPieces, renderPiece]
            cases sanitizeLiteral u (brace :: after) <;> simp [bind, Except.bind, pure, Except.pure]
          | cons close rest' =>
            simp only [renderPieces, renderPiece, ih, bind, Except.bind, pure, Except.pure]
            cases resolveOneToken u bundle v1Registry (after.takeWhile (· ≠ '}')) missingTokens with
            | error error => rfl
            | ok taken =>
              obtain ⟨value, missing⟩ := taken
              simp only
              cases renderPieces u bundle (piecesFrom turns rest') missing <;> simp

theorem resolveSegment_eq (segment : Text) (missingTokens : List Text) :
    resolveSegment u bundle v1Registry segment missingTokens =
      renderPieces u bundle (pieces segment) missingTokens := by
  rw [resolveSegment, resolveRun_eq, ← pieces]
  cases renderPieces u bundle (pieces segment) missingTokens <;> rfl

end PlateVault.Naming
