import PlateVault.Naming.Pieces

/-!
# What naming templates resolve to

A resolved path has one safe segment for each part of its template, and lists each token it filled
with a fallback once. Of control and bidi characters two pass; a path is free of these too exactly
when the template's literals and the values of its tokens are.
-/

namespace PlateVault.Naming

variable {u : Unicode} {bundle : MetadataBundle}

/-! ## One piece -/

/-- The sanitizer consumes a text entirely, and it is no traversal. -/
def emptied (u : Unicode) (raw : Text) : Bool :=
  (step3TraversalCheck (step1NormalizeAndStrip u raw)).toBool && (sanitized u raw).isEmpty

/-- A token's metadata is missing, or emptied by sanitizing. -/
def isUnset (u : Unicode) (bundle : MetadataBundle) (definition : TokenDefinition) : Bool :=
  match bundle definition.sourceField with
  | none => true
  | some value => value.isEmpty || emptied u (applyTransform u value definition.transform)

theorem emptied_iff (token : Text) {raw : Text} : emptied u raw = true ↔
    ∃ token' raw', sanitizeTokenValue u token raw = .error (.emptyAfterSanitize token' raw') := by
  rw [emptied, Bool.and_eq_true, List.isEmpty_iff]
  constructor
  · rintro ⟨htraversal, hempty⟩
    cases hok : step3TraversalCheck (step1NormalizeAndStrip u raw) with
    | error error =>
      rw [hok] at htraversal
      cases htraversal
    | ok checked =>
      have hstep : step2SubstituteReservedChars (step1NormalizeAndStrip u raw) = [] := hempty
      exact ⟨token, raw, by simp [sanitizeTokenValue, hok, hstep, bind, Except.bind]⟩
  · rintro ⟨token', raw', h⟩
    refine ⟨?_, sanitize_empty h⟩
    simp only [sanitizeTokenValue, Except.bind_eq_error_iff] at h
    rcases h with htraversal | ⟨checked, hok, -⟩
    · unfold step3TraversalCheck at htraversal
      split at htraversal <;> cases htraversal
    · rw [hok]
      rfl

/-- The value of a token's source field holds a character no step strips. -/
def valueUnstripped (u : Unicode) (bundle : MetadataBundle) (definition : TokenDefinition) : Bool :=
  (bundle definition.sourceField).any fun value =>
    (u.nfc (applyTransform u value definition.transform)).any isUnstripped

structure Rendered (u : Unicode) (bundle : MetadataBundle) (definition : TokenDefinition)
    (text : Text) : Prop where
  safe : SafeText text
  unset : isUnset u bundle definition = true → text = definition.fallback
  unstripped : text.any isUnstripped = valueUnstripped u bundle definition

theorem applyTransform_nil (definition : TokenDefinition) (h : definition ∈ v1Registry) :
    u.nfc (applyTransform u [] definition.transform) = [] := by
  have htransform : applyTransform u [] definition.transform = [] := by
    cases htransform : definition.transform with
    | sanitizeOnly => rfl
    | dateIso => rfl
    | lower => exact u.toLowercase_ascii [] rfl
    | upper => exact absurd htransform (fallback_plain definition h).2.2.1
  rw [htransform, u.nfc_ascii [] rfl]

theorem resolveOneToken_eq_ok {name text : Text} {missing missing' : List Text}
    (h : resolveOneToken u bundle v1Registry name missing = .ok (text, missing')) :
    ∃ definition, v1Registry.get name = some definition ∧ Rendered u bundle definition text ∧
      missing' = missing ++ if isUnset u bundle definition then [name] else [] := by
  unfold resolveOneToken at h
  cases hget : v1Registry.get name with
  | none =>
    rw [hget] at h
    cases h
  | some definition =>
    obtain ⟨hmem, -⟩ := registry_get_mem hget
    have hplain := (fallback_plain definition hmem).2.2.2.2
    refine ⟨definition, rfl, ?_⟩
    simp only [hget] at h
    cases hraw : (bundle definition.sourceField).filter (!·.isEmpty) with
    | none =>
      have hempty : ∀ value, bundle definition.sourceField = some value → value = [] := by
        intro value hvalue
        rw [Option.filter_eq_none_iff] at hraw
        simpa using hraw value hvalue
      have hunset : isUnset u bundle definition = true := by
        unfold isUnset
        split
        · rfl
        · next value hvalue => rw [hempty value hvalue]; rfl
      have hvalue : valueUnstripped u bundle definition = false := by
        unfold valueUnstripped
        cases hvalue : bundle definition.sourceField with
        | none => rfl
        | some value =>
          rw [Option.any_some, hempty value hvalue, applyTransform_nil definition hmem]
          rfl
      -- the fallback is sanitized like a value, and stays as it is
      obtain ⟨rfl, rfl⟩ : text = definition.fallback ∧ missing' = missing ++ [name] := by
        simp only [hraw, Option.getD_none, Option.isNone_none, if_true] at h
        split at h
        · next sanitized hsanitized =>
          cases h
          obtain ⟨rfl, -⟩ := sanitize_eq_ok hsanitized
          exact ⟨fallback_sanitized hmem, rfl⟩
        · cases h
          exact ⟨rfl, rfl⟩
        · cases h
      rw [if_pos hunset]
      exact ⟨⟨fallback_safe u hmem, fun _ => rfl, hplain.trans hvalue.symm⟩, rfl⟩
    | some value =>
      obtain ⟨hvalue, hne⟩ := Option.filter_eq_some_iff.mp hraw
      have hunstripped : valueUnstripped u bundle definition = (sanitized u
          (applyTransform u value definition.transform)).any isUnstripped := by
        rw [valueUnstripped, hvalue, Option.any_some, any_unstripped_sanitized]
      have hisUnset : isUnset u bundle definition =
          emptied u (applyTransform u value definition.transform) := by
        simp only [isUnset, hvalue]
        simp only [Bool.not_eq_true'] at hne
        rw [hne, Bool.false_or]
      simp only [hraw, Option.getD_some, Option.isNone_some, Bool.false_eq_true, if_false] at h
      split at h
      · next sanitized hsanitized =>
        cases h
        obtain ⟨heq, -⟩ := sanitize_eq_ok hsanitized
        have hset : isUnset u bundle definition = false := by
          rw [hisUnset]
          refine Bool.eq_false_iff.mpr fun hemptied => ?_
          obtain ⟨_, _, herror⟩ := (emptied_iff name).mp hemptied
          rw [hsanitized] at herror
          cases herror
        rw [hset]
        refine ⟨⟨.of_sanitize hsanitized, fun hunset => ?_, ?_⟩, by simp⟩
        · rw [hset] at hunset
          cases hunset
        · rw [hunstripped, heq]
      · next token' raw' hsanitized =>
        cases h
        have hunset : isUnset u bundle definition = true := by
          rw [hisUnset]
          exact (emptied_iff name).mpr ⟨token', raw', hsanitized⟩
        rw [if_pos hunset]
        refine ⟨⟨fallback_safe u hmem, fun _ => rfl, ?_⟩, rfl⟩
        rw [hplain, hunstripped, sanitize_empty hsanitized]
        rfl
      · cases h

def ResolveError.ofValue : ResolveError → Prop
  | .pathTraversal _ | .reservedName _ | .unicodeConfusable _ _ | .pathTooLong _ _ => True
  | .empty | .unknownToken _ | .emptySegment _ => False

theorem resolveOneToken_eq_error {name : Text} {missing missing₀ : List Text}
    {error : ResolveError} {resolved : Text × List Text}
    (hplain : resolveOneToken u (fun _ => none) v1Registry name missing₀ = .ok resolved)
    (h : resolveOneToken u bundle v1Registry name missing = .error error) :
    error.ofValue ∧
      ∃ definition, v1Registry.get name = some definition ∧ isUnset u bundle definition = false := by
  unfold resolveOneToken at hplain h
  cases hget : v1Registry.get name with
  | none =>
    rw [hget] at hplain
    cases hplain
  | some definition =>
    simp only [hget] at hplain h
    cases hraw : (bundle definition.sourceField).filter (!·.isEmpty) with
    | none =>
      -- the fallback resolves
      exfalso
      simp only [hraw, Option.getD_none] at h
      simp only [Option.filter_none, Option.getD_none] at hplain
      split at h <;> simp_all
    | some value =>
      obtain ⟨hvalue, hne⟩ := Option.filter_eq_some_iff.mp hraw
      simp only [hraw, Option.getD_some] at h
      split at h
      · cases h
      · cases h
      · next error' hother hsanitized =>
        cases h
        constructor
        · cases error' with
          | emptyAfterSanitize token' raw' => exact absurd rfl (hother token' raw')
          | _ => trivial
        · refine ⟨definition, rfl, ?_⟩
          simp only [isUnset, hvalue]
          simp only [Bool.not_eq_true'] at hne
          rw [hne, Bool.false_or]
          refine Bool.eq_false_iff.mpr fun hemptied => ?_
          obtain ⟨token', raw', herror⟩ := (emptied_iff name).mp hemptied
          rw [hsanitized] at herror
          cases herror
          exact hother _ _ rfl

/-! ## The pieces of a part -/

def Piece.missed (u : Unicode) (bundle : MetadataBundle) : Piece → List Text
  | .literal _ => []
  | .token name =>
    if (v1Registry.get name).any (isUnset u bundle) then [name] else []

/-- The text a piece renders holds a character no step strips. -/
def Piece.unstripped (u : Unicode) (bundle : MetadataBundle) : Piece → Bool
  | .literal text => (u.nfc text).any isUnstripped
  | .token name => (v1Registry.get name).any (valueUnstripped u bundle)

theorem renderPiece_eq_ok {piece : Piece} {text : Text} {missing missing' : List Text}
    (h : renderPiece u bundle missing piece = .ok (text, missing')) :
    SafeText text ∧ missing' = missing ++ piece.missed u bundle ∧
      text.any isUnstripped = piece.unstripped u bundle := by
  cases piece with
  | literal literal =>
    simp only [renderPiece, sanitizeLiteral, Except.bind_eq_ok_iff, Except.mapError_eq_ok_iff,
      Except.pure_eq_ok_iff, Prod.mk.injEq] at h
    obtain ⟨_, hsanitized, rfl, rfl⟩ := h
    refine ⟨.of_sanitize hsanitized, by simp [Piece.missed], ?_⟩
    rw [(sanitize_eq_ok hsanitized).1, any_unstripped_sanitized]
    rfl
  | token name =>
    obtain ⟨definition, hget, hrendered, rfl⟩ := resolveOneToken_eq_ok h
    refine ⟨hrendered.safe, by simp [Piece.missed, hget], ?_⟩
    rw [hrendered.unstripped, Piece.unstripped, hget, Option.any_some]

theorem renderPieces_eq_ok {all : List Piece} {text : Text} {missing missing' : List Text}
    (h : renderPieces u bundle all missing = .ok (text, missing')) :
    (all ≠ [] → SafeText text) ∧ missing' = missing ++ all.flatMap (Piece.missed u bundle) ∧
      text.any isUnstripped = all.any (Piece.unstripped u bundle) := by
  induction all generalizing text missing with
  | nil =>
    cases h
    simp
  | cons piece rest ih =>
    simp only [renderPieces, Except.bind_eq_ok_iff, Except.pure_eq_ok_iff, Prod.mk.injEq] at h
    obtain ⟨⟨left, missing₁⟩, hpiece, ⟨right, missing₂⟩, hrest, rfl, rfl⟩ := h
    obtain ⟨hsafe, rfl, hmark⟩ := renderPiece_eq_ok hpiece
    obtain ⟨hsafe', rfl, hmark'⟩ := ih hrest
    refine ⟨fun _ => ?_, by simp [List.append_assoc], ?_⟩
    · by_cases hrestNil : rest = []
      · have hright : right = [] := by
          rw [hrestNil, renderPieces, Except.ok.injEq, Prod.mk.injEq] at hrest
          exact hrest.1.symm
        rw [hright, List.append_nil]
        exact hsafe
      · exact hsafe.append (hsafe' hrestNil)
    · rw [List.any_append, List.any_cons, hmark, hmark']

theorem renderPieces_eq_error {all : List Piece} {missing missing₀ : List Text}
    {error : ResolveError} {rendered : Text × List Text}
    (hplain : renderPieces u (fun _ => none) all missing₀ = .ok rendered)
    (h : renderPieces u bundle all missing = .error error) :
    error.ofValue ∧ ∃ name definition, .token name ∈ all ∧ v1Registry.get name = some definition ∧
      isUnset u bundle definition = false := by
  induction all generalizing missing missing₀ rendered with
  | nil => cases h
  | cons piece rest ih =>
    simp only [renderPieces, Except.bind_eq_ok_iff] at hplain
    obtain ⟨plain₁, hpiece₀, plain₂, hrest₀, -⟩ := hplain
    simp only [renderPieces, Except.bind_eq_error_iff, Except.pure_ne_error, and_false, exists_false,
      or_false] at h
    rcases h with hpiece | ⟨taken, hpiece, hrest⟩
    · cases piece with
      | literal literal =>
        -- a literal renders the same with any metadata
        exfalso
        simp only [renderPiece, Except.bind_eq_ok_iff, Except.bind_eq_error_iff,
          Except.pure_ne_error, and_false, exists_false, or_false] at hpiece₀ hpiece
        obtain ⟨text, hok, -⟩ := hpiece₀
        rw [hok] at hpiece
        cases hpiece
      | token name =>
        obtain ⟨hvalue, definition, hget, hset⟩ := resolveOneToken_eq_error hpiece₀ hpiece
        exact ⟨hvalue, name, definition, List.mem_cons_self, hget, hset⟩
    · obtain ⟨hvalue, name, definition, hmem, hget, hset⟩ := ih hrest₀ hrest
      exact ⟨hvalue, name, definition, List.mem_cons_of_mem _ hmem, hget, hset⟩

/-! ## The parts of a template -/

/-- The parts of a template between slashes that are not empty. -/
def parts (template : Text) : List Text := (template.splitOn '/').filter (!·.isEmpty)

def templatePieces (template : Text) : List Piece := (parts template).flatMap pieces

theorem resolveSegments_eq_ok {raws segments segments' missing missing' : List Text}
    (h : resolveSegments u bundle v1Registry segments missing raws = .ok (segments', missing')) :
    ∃ resolved, segments' = segments ++ resolved ∧
      List.Forall₂ (fun part segment => ∃ before after,
        resolveSegment u bundle v1Registry part before = .ok (segment, after))
        (raws.filter (!·.isEmpty)) resolved ∧
      missing' = missing ++
        ((raws.filter (!·.isEmpty)).flatMap pieces).flatMap (Piece.missed u bundle) := by
  induction raws generalizing segments missing with
  | nil =>
    cases h
    exact ⟨[], by simp⟩
  | cons raw raws ih =>
    unfold resolveSegments at h
    by_cases hempty : raw.isEmpty
    · rw [if_pos hempty] at h
      simpa [hempty] using ih h
    · rw [if_neg hempty] at h
      simp only [Except.bind_eq_ok_iff] at h
      obtain ⟨⟨segment, missing₁⟩, hone, hrest⟩ := h
      obtain ⟨resolved, rfl, hall, rfl⟩ := ih hrest
      have hmissing : missing₁ = missing ++ (pieces raw).flatMap (Piece.missed u bundle) :=
        (renderPieces_eq_ok ((resolveSegment_eq raw missing).symm.trans hone)).2.1
      refine ⟨segment :: resolved, by simp, ?_, ?_⟩
      · simpa [hempty] using ⟨⟨missing, missing₁, hone⟩, hall⟩
      · simp [hempty, hmissing, List.append_assoc]

theorem resolveSegments_eq_error {raws segments segments₀ missing missing₀ : List Text}
    {error : ResolveError} {resolved : List Text × List Text}
    (hplain : resolveSegments u (fun _ => none) v1Registry segments₀ missing₀ raws = .ok resolved)
    (h : resolveSegments u bundle v1Registry segments missing raws = .error error) :
    error.ofValue ∧ ∃ name definition,
      .token name ∈ (raws.filter (!·.isEmpty)).flatMap pieces ∧
        v1Registry.get name = some definition ∧ isUnset u bundle definition = false := by
  induction raws generalizing segments segments₀ missing missing₀ with
  | nil => cases h
  | cons raw raws ih =>
    unfold resolveSegments at hplain h
    by_cases hempty : raw.isEmpty
    · rw [if_pos hempty] at hplain h
      simpa [hempty] using ih hplain h
    · rw [if_neg hempty] at hplain h
      simp only [Except.bind_eq_ok_iff] at hplain
      obtain ⟨⟨segment, after⟩, hone₀, hrest₀⟩ := hplain
      rw [resolveSegment_eq] at hone₀
      have hmem : ∀ piece, piece ∈ pieces raw ∨ piece ∈ (raws.filter (!·.isEmpty)).flatMap pieces →
          piece ∈ ((raw :: raws).filter (!·.isEmpty)).flatMap pieces := by
        intro piece hpiece
        rw [List.filter_cons_of_pos (by simpa using hempty), List.flatMap_cons]
        exact List.mem_append.mpr hpiece
      simp only [Except.bind_eq_error_iff] at h
      rcases h with hone | ⟨taken, -, hrest⟩
      · rw [resolveSegment_eq] at hone
        obtain ⟨hvalue, name, definition, htoken, hget, hset⟩ := renderPieces_eq_error hone₀ hone
        exact ⟨hvalue, name, definition, hmem _ (.inl htoken), hget, hset⟩
      · obtain ⟨hvalue, name, definition, htoken, hget, hset⟩ := ih hrest₀ hrest
        exact ⟨hvalue, name, definition, hmem _ (.inr htoken), hget, hset⟩

theorem pieces_ne_nil {part : Text} (h : part ≠ []) : pieces part ≠ [] := by
  intro hnil
  have := pieces_text part
  rw [hnil, List.flatMap_nil] at this
  exact h this.symm

theorem mem_parts {template part : Text} (h : part ∈ parts template) : part ≠ [] := by
  simpa using (List.mem_filter.mp h).2

/-! ## Assembled paths -/

theorem not_slash_of_safe {text : Text} (h : SafeText text) : '/' ∉ text := fun hmem => by
  have := (h.allowed '/' hmem).2
  simp [isWindowsReservedChar] at this

theorem checkAssembledSegments_eq_ok {config : ResolverConfig} {path : Text}
    {segments : List Text} (h : checkAssembledSegments u config path segments = .ok ()) :
    ∀ segment ∈ segments, segment ≠ [] →
      namesDevice u segment = false ∧ byteLen segment ≤ config.maxSegmentBytes := by
  induction segments with
  | nil => simp
  | cons first rest ih =>
    unfold checkAssembledSegments at h
    split at h
    · cases h
    · split at h
      · next hempty =>
        intro segment hmem hne
        rcases List.mem_cons.mp hmem with rfl | hmem
        · exact absurd (List.isEmpty_iff.mp hempty) hne
        · exact ih h segment hmem hne
      · simp only [Except.bind_eq_ok_iff, Except.mapError_eq_ok_iff] at h
        obtain ⟨_, hdevice, h⟩ := h
        split at h
        · cases h
        · next hlength =>
          intro segment hmem hne
          rcases List.mem_cons.mp hmem with rfl | hmem
          · refine ⟨?_, by omega⟩
            unfold step4ReservedNameCheck at hdevice
            split at hdevice
            · cases hdevice
            · next hnot => exact Bool.eq_false_iff.mpr hnot
          · exact ih h segment hmem hne

theorem checkAssembledSegments_eq_error {config : ResolverConfig} {path : Text}
    {segments : List Text} {error : ResolveError}
    (h : checkAssembledSegments u config path segments = .error error) : error.ofValue := by
  induction segments with
  | nil => cases h
  | cons first rest ih =>
    unfold checkAssembledSegments at h
    split at h
    · cases h
      trivial
    · split at h
      · exact ih h
      · simp only [Except.bind_eq_error_iff, Except.mapError_eq_error_iff] at h
        rcases h with ⟨_, hdevice, rfl⟩ | ⟨-, -, h⟩
        · unfold step4ReservedNameCheck at hdevice
          split at hdevice
          · cases hdevice
            trivial
          · cases hdevice
        · split at h
          · cases h
            trivial
          · exact ih h

theorem checkAssembledPath_eq_error {config : ResolverConfig} {path : Text}
    {error : ResolveError} (h : checkAssembledPath u config path = .error error) :
    error.ofValue := by
  simp only [checkAssembledPath, Except.bind_eq_error_iff] at h
  rcases h with h | ⟨-, -, h⟩
  · exact checkAssembledSegments_eq_error h
  · split at h
    · cases h
      trivial
    · cases h

/-! ## Resolving a template -/

def isControl (c : Char) : Bool :=
  c.toNat < 0x20 || (0x7F ≤ c.toNat && c.toNat ≤ 0x9F)

/-- The characters with the Unicode property Bidi_Control. -/
def isBidiControl (c : Char) : Bool :=
  let n := c.toNat
  n = 0x61C || n = 0x200E || n = 0x200F || (0x202A ≤ n && n ≤ 0x202E) || (0x2066 ≤ n && n ≤ 0x2069)

theorem control_or_bidi_iff {c : Char} (h : isDisallowed c = false) :
    (isControl c || isBidiControl c) = isUnstripped c := by
  have hunstripped : isUnstripped c = (decide (c.toNat = 0x7F) || decide (c.toNat = 0x61C)) := by
    have hchar : ∀ d : Char, (c = d) ↔ c.toNat = d.toNat := fun d =>
      ⟨fun h => h ▸ rfl, fun h => Char.ext (UInt32.toNat_inj.mp h)⟩
    unfold isUnstripped
    rw [decide_eq_decide.mpr (hchar '\u007f'), decide_eq_decide.mpr (hchar '\u061c')]
    rfl
  rw [hunstripped, Bool.eq_iff_iff]
  simp only [isDisallowed, Bool.or_eq_false_iff, Bool.and_eq_false_iff, decide_eq_false_iff_not] at h
  simp only [isControl, isBidiControl, Bool.or_eq_true, Bool.and_eq_true, decide_eq_true_eq]
  omega

/-- A path's segment may stand in any folder, its control and bidi characters apart. -/
structure SafeSegment (u : Unicode) (segment : Text) : Prop where
  inhabited : segment ≠ []
  notDots : segment ≠ ['.'] ∧ segment ≠ ['.', '.']
  separators : '/' ∉ segment ∧ '\\' ∉ segment
  reserved : ∀ c ∈ segment, c ∉ [':', '?', '*', '"', '<', '>', '|']
  leading : ∀ c ∈ segment.head?, isWhiteSpace c = false
  trailing : ∀ c ∈ segment.getLast?, isWhiteSpace c = false ∧ c ≠ '.'
  device : namesDevice u segment = false
  bytes : byteLen segment ≤ 200

/-- What a template resolved to with some metadata, but for control and bidi characters. -/
structure Resolves (u : Unicode) (template : Text) (bundle : MetadataBundle)
    (resolution : NamingResolution) (segments : List Text) : Prop where
  path : resolution.relativePath = ['/'].intercalate segments
  split : parts template ≠ [] → resolution.relativePath.splitOn '/' = segments
  levels : List.Forall₂ (fun part segment => ∃ before after,
    resolveSegment u bundle v1Registry part before = .ok (segment, after)) (parts template) segments
  safe : ∀ segment ∈ segments, SafeSegment u segment
  chars : resolution.relativePath.length ≤ 200
  once : (resolution.fallbacks.map NamingFallback.token).Nodup
  fallbacks : ∀ token value, ⟨token, value⟩ ∈ resolution.fallbacks ↔
    .token token ∈ templatePieces template ∧ ∃ definition, v1Registry.get token = some definition ∧
      value = definition.fallback ∧ isUnset u bundle definition = true

/-- No literal of a template and no value of its tokens holds U+007F or U+061C after NFC. -/
def Clean (u : Unicode) (template : Text) (bundle : MetadataBundle) : Prop :=
  ∀ piece ∈ templatePieces template, piece.unstripped u bundle = false

theorem renderPieces_plain {all : List Piece} {text text₀ : Text}
    {missing missing' missing₀ missing₀' : List Text}
    (hunset : ∀ name definition, .token name ∈ all → v1Registry.get name = some definition →
      isUnset u bundle definition = true)
    (hplain : renderPieces u (fun _ => none) all missing₀ = .ok (text₀, missing₀'))
    (h : renderPieces u bundle all missing = .ok (text, missing')) : text = text₀ := by
  induction all generalizing text text₀ missing missing₀ with
  | nil =>
    simp only [renderPieces, Except.ok.injEq, Prod.mk.injEq] at h hplain
    rw [← h.1, ← hplain.1]
  | cons piece rest ih =>
    simp only [renderPieces, Except.bind_eq_ok_iff, Except.pure_eq_ok_iff, Prod.mk.injEq] at h hplain
    obtain ⟨⟨left, _⟩, hpiece, ⟨right, _⟩, hrest, rfl, rfl⟩ := h
    obtain ⟨⟨left₀, _⟩, hpiece₀, ⟨right₀, _⟩, hrest₀, rfl, rfl⟩ := hplain
    have hright := ih (fun name definition hmem => hunset name definition (List.mem_cons_of_mem _ hmem))
      hrest₀ hrest
    have hleft : left = left₀ := by
      cases piece with
      | literal literal =>
        simp only [renderPiece, Except.bind_eq_ok_iff, Except.pure_eq_ok_iff, Prod.mk.injEq] at hpiece hpiece₀
        obtain ⟨_, hok, rfl, -⟩ := hpiece
        obtain ⟨_, hok₀, rfl, -⟩ := hpiece₀
        exact Except.ok.inj (hok.symm.trans hok₀)
      | token name =>
        rw [renderPiece] at hpiece hpiece₀
        obtain ⟨definition, hget, hrendered, -⟩ := resolveOneToken_eq_ok hpiece
        obtain ⟨definition₀, hget₀, hrendered₀, -⟩ := resolveOneToken_eq_ok hpiece₀
        obtain rfl : definition = definition₀ := Option.some.inj (hget.symm.trans hget₀)
        rw [hrendered.unset (hunset name definition List.mem_cons_self hget), hrendered₀.unset rfl]
    rw [hleft, hright]

theorem resolveSegments_plain {raws segments resolved resolved₀ : List Text}
    {missing missing' missing₀ missing₀' : List Text}
    (hunset : ∀ name definition, .token name ∈ (raws.filter (!·.isEmpty)).flatMap pieces →
      v1Registry.get name = some definition → isUnset u bundle definition = true)
    (hplain : resolveSegments u (fun _ => none) v1Registry segments missing₀ raws =
      .ok (resolved₀, missing₀'))
    (h : resolveSegments u bundle v1Registry segments missing raws = .ok (resolved, missing')) :
    resolved = resolved₀ := by
  induction raws generalizing segments missing missing₀ with
  | nil =>
    simp only [resolveSegments, Except.ok.injEq, Prod.mk.injEq] at h hplain
    rw [← h.1, ← hplain.1]
  | cons raw raws ih =>
    unfold resolveSegments at h hplain
    by_cases hempty : raw.isEmpty
    · rw [if_pos hempty] at h hplain
      exact ih (by simpa [hempty] using hunset) hplain h
    · rw [if_neg hempty] at h hplain
      simp only [Except.bind_eq_ok_iff] at h hplain
      obtain ⟨⟨segment, _⟩, hone, hrest⟩ := h
      obtain ⟨⟨segment₀, _⟩, hone₀, hrest₀⟩ := hplain
      rw [List.filter_cons_of_pos (by simpa using hempty), List.flatMap_cons] at hunset
      rw [resolveSegment_eq] at hone hone₀
      obtain rfl : segment = segment₀ := renderPieces_plain (fun name definition hmem =>
        hunset name definition (List.mem_append_left _ hmem)) hone₀ hone
      exact ih (fun name definition hmem => hunset name definition (List.mem_append_right _ hmem))
        hrest₀ hrest

theorem resolvePatternStr_eq_ok {template : Text} {resolved : ResolveResult}
    (h : resolvePatternStr u template bundle = .ok resolved) :
    ∃ segments, resolveSegments u bundle v1Registry [] [] (template.splitOn '/') =
        .ok (segments, resolved.missingTokens) ∧
      resolved.relativePath = ['/'].intercalate segments ∧
      checkAssembledPath u {} resolved.relativePath = .ok () := by
  unfold resolvePatternStr resolvePatternStrWith at h
  split at h
  · cases h
  · simp only [Except.bind_eq_ok_iff, Except.pure_eq_ok_iff] at h
    obtain ⟨⟨segments, missing⟩, hsegments, _, hcheck, rfl⟩ := h
    exact ⟨segments, hsegments, rfl, hcheck⟩

theorem resolvePatternStr_eq_error {template : Text} {resolved : ResolveResult}
    {error : ResolveError} (hplain : resolvePatternStr u template (fun _ => none) = .ok resolved)
    (h : resolvePatternStr u template bundle = .error error) :
    error.ofValue ∧ ∃ name definition, .token name ∈ templatePieces template ∧
      v1Registry.get name = some definition ∧ isUnset u bundle definition = false := by
  obtain ⟨segments₀, hsegments₀, hpath₀, hcheck₀⟩ := resolvePatternStr_eq_ok hplain
  unfold resolvePatternStr resolvePatternStrWith at h hplain
  split at h
  · next hblank =>
    rw [if_pos hblank] at hplain
    cases hplain
  · simp only [Except.bind_eq_error_iff, Except.pure_ne_error, and_false, exists_false, or_false] at h
    rcases h with hsegments | ⟨⟨segments, missing⟩, hsegments, hcheck⟩
    · exact resolveSegments_eq_error hsegments₀ hsegments
    · refine ⟨checkAssembledPath_eq_error hcheck, ?_⟩
      by_contra hnone
      push Not at hnone
      have heq : segments = segments₀ := resolveSegments_plain (fun name definition hmem hget =>
        Bool.eq_true_of_not_eq_false (hnone name definition hmem hget)) hsegments₀ hsegments
      rw [heq, ← hpath₀, hcheck₀] at hcheck
      cases hcheck

theorem namingFallbacks_spec (frameType : NamingFrameType) (fallbacks : List NamingFallback)
    {tokens : List Text} (hknown : ∀ token ∈ tokens, (v1Registry.get token).isSome) :
    ∃ result, namingFallbacks frameType fallbacks tokens = .ok result ∧
      ((fallbacks.map NamingFallback.token).Nodup → (result.map NamingFallback.token).Nodup) ∧
      ∀ token value, ⟨token, value⟩ ∈ result ↔ ⟨token, value⟩ ∈ fallbacks ∨
        token ∉ fallbacks.map NamingFallback.token ∧ token ∈ tokens ∧
          ∃ definition, v1Registry.get token = some definition ∧ value = definition.fallback := by
  induction tokens generalizing fallbacks with
  | nil => exact ⟨fallbacks, rfl, fun h => h, by simp⟩
  | cons token tokens ih =>
    obtain ⟨definition, hget⟩ := Option.isSome_iff_exists.mp (hknown token List.mem_cons_self)
    have hrest := fun t (ht : t ∈ tokens) => hknown t (List.mem_cons_of_mem _ ht)
    by_cases hused : fallbacks.any (·.token = token)
    · obtain ⟨result, hresult, hnodup, hmem⟩ := ih fallbacks hrest
      have hin : token ∈ fallbacks.map NamingFallback.token := by
        obtain ⟨used, hmemUsed, heq⟩ := List.any_eq_true.mp hused
        exact List.mem_map.mpr ⟨used, hmemUsed, of_decide_eq_true heq⟩
      refine ⟨result, by rw [namingFallbacks, if_pos hused, hresult], hnodup, fun t value => ?_⟩
      rw [hmem, List.mem_cons]
      refine or_congr_right (and_congr_right fun hnot => and_congr_left' ?_)
      exact ⟨.inr, fun h => h.resolve_left fun heq => hnot (heq ▸ hin)⟩
    · obtain ⟨result, hresult, hnodup, hmem⟩ :=
        ih (fallbacks ++ [⟨token, definition.fallback⟩]) hrest
      have hout : token ∉ fallbacks.map NamingFallback.token := by
        intro hin
        obtain ⟨used, hmemUsed, heq⟩ := List.mem_map.mp hin
        exact hused (List.any_eq_true.mpr ⟨used, hmemUsed, decide_eq_true heq⟩)
      refine ⟨result, ?_, fun h => hnodup ?_, fun t value => ?_⟩
      · rw [namingFallbacks, if_neg hused]
        simp [hget, Result.orElse, hresult, bind, Except.bind]
      · rw [List.map_append]
        exact List.nodup_append.mpr ⟨h, by simp, fun t ht t' ht' heq => hout (by
          simp only [List.map_cons, List.map_nil, List.mem_singleton] at ht'
          rwa [← ht', ← heq])⟩
      · rw [hmem]
        simp only [List.mem_append, NamingFallback.mk.injEq, List.map_append, List.map_cons,
          List.map_nil, not_or, List.mem_cons, List.not_mem_nil, or_false]
        constructor
        · rintro ((hold | ⟨rfl, rfl⟩) | ⟨⟨hnot, hne⟩, htokens, hdefinition⟩)
          · exact .inl hold
          · exact .inr ⟨hout, .inl rfl, definition, hget, rfl⟩
          · exact .inr ⟨hnot, .inr htokens, hdefinition⟩
        · rintro (hold | ⟨hnot, rfl | htokens, other, hother, rfl⟩)
          · exact .inl (.inl hold)
          · obtain rfl : other = definition := Option.some.inj (hother.symm.trans hget)
            exact .inl (.inr ⟨rfl, rfl⟩)
          · by_cases heq : t = token
            · subst heq
              obtain rfl : other = definition := Option.some.inj (hother.symm.trans hget)
              exact .inl (.inr ⟨rfl, rfl⟩)
            · exact .inr ⟨⟨hnot, heq⟩, htokens, other, hother, rfl⟩

theorem safeSegment_of_safe {segment : Text} (h : SafeText segment)
    (hdevice : namesDevice u segment = false) (hbytes : byteLen segment ≤ 200) :
    SafeSegment u segment where
  inhabited := h.inhabited
  notDots := by
    constructor <;> rintro rfl
    · exact absurd (h.first '.' rfl) (by decide)
    · exact absurd (h.first '.' rfl) (by decide)
  separators := by
    refine ⟨not_slash_of_safe h, fun hmem => ?_⟩
    exact absurd (h.allowed _ hmem).2 (by decide)
  reserved := fun c hc hmem => by
    have := (h.allowed c hc).2
    simp only [isWindowsReservedChar, decide_eq_false_iff_not] at this
    exact this (List.mem_cons_of_mem _ (List.mem_cons_of_mem _ hmem))
  leading := fun c hc => by
    have := h.first c hc
    simp only [isTrimmed, Bool.or_eq_false_iff] at this
    exact this.2
  trailing := fun c hc => by
    have := h.last c hc
    simp only [isTrimmed, Bool.or_eq_false_iff, decide_eq_false_iff_not] at this
    exact ⟨this.2, this.1⟩
  device := hdevice
  bytes := hbytes

theorem checkTemplate_eq_ok {frameType : NamingFrameType} {template : Text}
    (h : checkTemplate u frameType template = .ok ()) :
    ∃ resolved, resolvePatternStr u template (fun _ => none) = .ok resolved := by
  simp only [checkTemplate, Result.bind_eq_ok, Except.mapError_eq_ok_iff] at h
  obtain ⟨_, _, _, _, _, _, resolved, hresolved, _⟩ := h
  exact ⟨resolved, hresolved⟩

theorem levels_safe {all segments : List Text} (hne : ∀ part ∈ all, part ≠ [])
    (h : List.Forall₂ (fun part segment => ∃ before after,
      resolveSegment u bundle v1Registry part before = .ok (segment, after)) all segments) :
    (∀ segment ∈ segments, SafeText segment) ∧
      segments.any (·.any isUnstripped) =
        (all.flatMap pieces).any (Piece.unstripped u bundle) := by
  induction h with
  | nil => simp
  | cons hone _ ih =>
    obtain ⟨before, after, hone⟩ := hone
    rw [resolveSegment_eq] at hone
    obtain ⟨hsafe, -, hmark⟩ := renderPieces_eq_ok hone
    obtain ⟨hrest, hmarks⟩ := ih fun part hpart => hne part (List.mem_cons_of_mem _ hpart)
    constructor
    · intro segment hmem
      rcases List.mem_cons.mp hmem with rfl | hmem
      · exact hsafe (pieces_ne_nil (hne _ List.mem_cons_self))
      · exact hrest segment hmem
    · rw [List.any_cons, List.flatMap_cons, List.any_append, hmark, hmarks]

theorem mem_missed {all : List Piece} {token : Text} :
    token ∈ all.flatMap (Piece.missed u bundle) ↔ .token token ∈ all ∧
      ∃ definition, v1Registry.get token = some definition ∧
        isUnset u bundle definition = true := by
  rw [List.mem_flatMap]
  constructor
  · rintro ⟨piece, hpiece, hmem⟩
    cases piece with
    | literal literal => cases hmem
    | token name =>
      simp only [Piece.missed] at hmem
      split at hmem
      · next hany =>
        obtain rfl := List.mem_singleton.mp hmem
        obtain ⟨definition, hget, hunset⟩ := (Option.any_eq_true _ _).mp hany
        exact ⟨hpiece, definition, hget, hunset⟩
      · cases hmem
  · rintro ⟨hpiece, definition, hget, hunset⟩
    exact ⟨_, hpiece, by simp [Piece.missed, hget, hunset]⟩

theorem resolves_of_eq_ok {frameType : NamingFrameType} {template : Text}
    {metadata : NamingMetadata} {resolution : NamingResolution}
    (h : resolveTemplate u frameType template metadata = .ok resolution) :
    ∃ segments, Resolves u template (Naming.bundle metadata) resolution segments ∧
      ((∀ segment ∈ segments, ∀ c ∈ segment, isControl c = false ∧ isBidiControl c = false) ↔
        Clean u template (Naming.bundle metadata)) := by
  simp only [resolveTemplate, Result.bind_eq_ok, Except.mapError_eq_ok_iff, Result.pure_eq_ok] at h
  obtain ⟨resolved, hresolved, fallbacks, hfallbacks, rfl⟩ := h
  obtain ⟨segments, hsegments, hpath, hcheck⟩ := resolvePatternStr_eq_ok hresolved
  obtain ⟨_, rfl, hlevels, hmissing⟩ := resolveSegments_eq_ok hsegments
  obtain ⟨hsafe, hmarks⟩ := levels_safe (fun part hpart => mem_parts hpart) hlevels
  have hsplit : segments ≠ [] → resolved.relativePath.splitOn '/' = segments := fun hne => by
    rw [hpath]
    exact List.splitOn_intercalate '/' (fun segment hmem => not_slash_of_safe (hsafe segment hmem)) hne
  simp only [checkAssembledPath, Except.bind_eq_ok_iff] at hcheck
  obtain ⟨_, hchecked, hlength⟩ := hcheck
  rw [List.nil_append] at hmissing
  have hmem : ∀ token, token ∈ resolved.missingTokens ↔ .token token ∈ templatePieces template ∧
      ∃ definition, v1Registry.get token = some definition ∧
        isUnset u (Naming.bundle metadata) definition = true := fun token => by
    rw [hmissing, templatePieces, parts]
    exact mem_missed
  obtain ⟨result, hresult, hnodup, hin⟩ := namingFallbacks_spec frameType []
    fun token (htoken : token ∈ resolved.missingTokens) => by
      obtain ⟨-, definition, hget, -⟩ := (hmem token).mp htoken
      rw [hget]
      rfl
  obtain rfl : result = fallbacks := Except.ok.inj (hresult.symm.trans hfallbacks)
  refine ⟨segments, ⟨hpath, fun hne => hsplit fun hnil => hne ?_, hlevels, fun segment hmem => ?_, ?_,
    ?_, ?_⟩, ?_⟩
  · rw [hnil] at hlevels
    exact List.forall₂_nil_right_iff.mp hlevels
  · rw [hsplit (List.ne_nil_of_mem hmem)] at hchecked
    obtain ⟨hdevice, hbytes⟩ :=
      checkAssembledSegments_eq_ok hchecked segment hmem (hsafe segment hmem).inhabited
    exact safeSegment_of_safe (hsafe segment hmem) hdevice hbytes
  · split at hlength
    · cases hlength
    · next hle =>
      have hmax : (ResolverConfig.maxPathChars {}) = 200 := rfl
      exact (not_lt.mp hle).trans_eq hmax
  · exact hnodup List.nodup_nil
  · intro token value
    rw [hin]
    simp only [List.not_mem_nil, false_or, List.map_nil, not_false_eq_true, true_and, hmem]
    constructor
    · rintro ⟨⟨hpiece, definition, hget, hunset⟩, definition', hget', rfl⟩
      obtain rfl : definition' = definition := Option.some.inj (hget'.symm.trans hget)
      exact ⟨hpiece, definition', hget, rfl, hunset⟩
    · rintro ⟨hpiece, definition, hget, rfl, hunset⟩
      exact ⟨⟨hpiece, definition, hget, hunset⟩, definition, hget, rfl⟩
  · -- a safe text's control and bidi characters are those its piece's source holds
    have hclean : Clean u template (Naming.bundle metadata) ↔
        segments.any (·.any isUnstripped) = false := by
      rw [hmarks, List.any_eq_false]
      exact forall₂_congr fun piece _ => by rw [Bool.not_eq_true]
    rw [hclean, List.any_eq_false]
    refine forall₂_congr fun segment hsegment => ?_
    rw [Bool.not_eq_true, List.any_eq_false]
    refine forall₂_congr fun c hc => ?_
    rw [Bool.not_eq_true, ← control_or_bidi_iff ((hsafe segment hsegment).allowed c hc).1,
      Bool.or_eq_false_iff]

/-- A template that was accepted resolves to one safe segment for each of its parts, of control and
bidi characters free exactly when it is clean; it fails only for a value of one of its tokens. -/
theorem resolve_template_laws {frameType : NamingFrameType} {template : Text}
    {metadata : NamingMetadata} (haccepted : checkTemplate u frameType template = .ok ()) :
    (∀ resolution, resolveTemplate u frameType template metadata = .ok resolution →
      ∃ segments, Resolves u template (Naming.bundle metadata) resolution segments ∧
        ((∀ segment ∈ segments, ∀ c ∈ segment, isControl c = false ∧ isBidiControl c = false) ↔
          Clean u template (Naming.bundle metadata))) ∧
    ∀ error, resolveTemplate u frameType template metadata = .error error →
      ∃ problem : ResolveError, error = invalid frameType problem.display ∧ problem.ofValue ∧
        ∃ name definition, .token name ∈ templatePieces template ∧
          v1Registry.get name = some definition ∧
          isUnset u (Naming.bundle metadata) definition = false := by
  refine ⟨fun resolution h => resolves_of_eq_ok h, fun error h => ?_⟩
  obtain ⟨resolved, hplain⟩ := checkTemplate_eq_ok haccepted
  simp only [resolveTemplate, Except.bind_eq_error_iff, Except.mapError_eq_error_iff,
    Except.mapError_eq_ok_iff, Except.pure_ne_error, and_false, exists_false, or_false] at h
  rcases h with ⟨problem, hproblem, rfl⟩ | ⟨resolved', hresolved, hfallbacks⟩
  · exact ⟨problem, rfl, resolvePatternStr_eq_error hplain hproblem⟩
  · -- every token missing is registered
    exfalso
    obtain ⟨segments, hsegments, -, -⟩ := resolvePatternStr_eq_ok hresolved
    obtain ⟨-, -, -, hmissing⟩ := resolveSegments_eq_ok hsegments
    obtain ⟨result, hresult, -⟩ := namingFallbacks_spec frameType []
      fun token (htoken : token ∈ resolved'.missingTokens) => by
        rw [hmissing, List.nil_append] at htoken
        obtain ⟨-, definition, hget, -⟩ := mem_missed.mp htoken
        rw [hget]
        rfl
    rw [hresult] at hfallbacks
    cases hfallbacks

/-! ## A light's folder -/

def plainUnicode : Unicode where
  nfc := id
  toLowercase := List.map Char.toLower
  toUppercase := List.map Char.toUpper
  isSingleScript := fun _ => true
  script := fun _ => .latin
  nfc_ascii := fun _ _ => rfl
  toLowercase_ascii := fun _ _ => rfl

def lightTemplate : Text := "{target}/{filter}/{date}/light/".toList

def lightOf (target : String) : NamingMetadata where
  target := some target.toList
  filter := some "Ha/OIII".toList
  date := none
  frameType := none
  camera := none
  exposure := none
  gain := none
  binning := none
  setTemp := none

theorem resolve_template_laws_of_a_light : ∃ resolution segments,
    resolveTemplate plainUnicode .light lightTemplate (lightOf "M31") = .ok resolution ∧
      resolution.relativePath = "M31/Ha_OIII/undated/light".toList ∧
      Resolves plainUnicode lightTemplate (Naming.bundle (lightOf "M31")) resolution segments := by
  have hresolve : resolveTemplate plainUnicode .light lightTemplate (lightOf "M31") =
      .ok ⟨lightTemplate, "M31/Ha_OIII/undated/light".toList,
        [⟨"date".toList, "undated".toList⟩]⟩ := by decide
  obtain ⟨segments, hresolves, -⟩ :=
    (@resolve_template_laws plainUnicode .light lightTemplate (lightOf "M31")
      (by decide)).1 _ hresolve
  exact ⟨_, segments, hresolve, rfl, hresolves⟩

/-- Delete and the Arabic letter mark come through the sanitizer into a folder's name. -/
theorem control_and_bidi_pass :
    checkTemplate plainUnicode .light lightTemplate = .ok () ∧
      (∃ resolution,
        resolveTemplate plainUnicode .light lightTemplate (lightOf "M\u007f31") = .ok resolution ∧
          ∃ c ∈ resolution.relativePath, isControl c = true) ∧
      ∃ resolution,
        resolveTemplate plainUnicode .light lightTemplate (lightOf "\u0645\u061c\u0631") =
            .ok resolution ∧
          ∃ c ∈ resolution.relativePath, isBidiControl c = true := by
  refine ⟨by decide, ⟨⟨lightTemplate, "M\u007f31/Ha_OIII/undated/light".toList,
    [⟨"date".toList, "undated".toList⟩]⟩, by decide, '\u007f', by decide, rfl⟩,
    ⟨lightTemplate, "\u0645\u061c\u0631/Ha_OIII/undated/light".toList,
      [⟨"date".toList, "undated".toList⟩]⟩, by decide, '\u061c', by decide, rfl⟩

end PlateVault.Naming
