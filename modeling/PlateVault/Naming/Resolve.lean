import PlateVault.Naming.Sanitize

/-!
# Naming templates

A template is literal text and `{token}`s between slashes. The validator reads its tokens from left
to right; the resolver renders each part between slashes and checks the path it assembled. Settings
checks a template by both, the resolver with no metadata.
-/

namespace PlateVault.Naming

/-! ## Tokens -/

inductive TokenTransform
  | sanitizeOnly
  | dateIso
  | lower
  | upper
  deriving DecidableEq, Repr

structure TokenDefinition where
  name : Text
  sourceField : Text
  fallback : Text
  transform : TokenTransform
  deriving DecidableEq, Repr

abbrev TokenRegistry := List TokenDefinition

def TokenRegistry.get (registry : TokenRegistry) (name : Text) : Option TokenDefinition :=
  registry.reverse.find? (·.name = name)

def v1Registry : TokenRegistry :=
  [⟨"target".toList, "target".toList, "unclassified".toList, .sanitizeOnly⟩,
    ⟨"filter".toList, "filter".toList, "nofilter".toList, .sanitizeOnly⟩,
    ⟨"date".toList, "date".toList, "undated".toList, .dateIso⟩,
    ⟨"frame_type".toList, "frame_type".toList, "unknown".toList, .lower⟩,
    ⟨"camera".toList, "camera".toList, "unknown-camera".toList, .sanitizeOnly⟩,
    ⟨"exposure".toList, "exposure".toList, "unknown-exposure".toList, .sanitizeOnly⟩,
    ⟨"gain".toList, "gain".toList, "unknown-gain".toList, .sanitizeOnly⟩,
    ⟨"binning".toList, "binning".toList, "1x1".toList, .sanitizeOnly⟩,
    ⟨"set_temp".toList, "set_temp".toList, "untempered".toList, .sanitizeOnly⟩]

def applyTransform (u : Unicode) (value : Text) : TokenTransform → Text
  | .sanitizeOnly => value
  | .dateIso => value
  | .lower => u.toLowercase value
  | .upper => u.toUppercase value

abbrev MetadataBundle := Text → Option Text

structure ResolverConfig where
  maxSegmentBytes? : Option Nat := none
  maxPathChars? : Option Nat := none

def ResolverConfig.maxSegmentBytes (config : ResolverConfig) : Nat :=
  config.maxSegmentBytes?.getD 200

def ResolverConfig.maxPathChars (config : ResolverConfig) : Nat := config.maxPathChars?.getD 200

/-! ## Errors -/

inductive ResolveError
  | empty
  | unknownToken (token : Text)
  | pathTraversal (segment : Text)
  | reservedName (segment : Text)
  | unicodeConfusable (token value : Text)
  | pathTooLong (resolvedLength segmentLengthBytes : Nat)
  | emptySegment (value : Text)
  deriving DecidableEq, Repr

def ResolveError.display : ResolveError → String
  | .empty => "pattern is empty"
  | .unknownToken token => "unknown token: " ++ String.ofList token
  | .pathTraversal segment => "path traversal in segment: " ++ String.ofList segment
  | .reservedName segment => "Windows reserved device name: " ++ String.ofList segment
  | .unicodeConfusable token value =>
    "Unicode confusable in token " ++ String.ofList token ++ ": " ++ String.ofList value
  | .pathTooLong resolvedLength segmentLengthBytes =>
    "path length violated: resolved_length=" ++ String.ofList (decimal resolvedLength) ++
      ", segment_length_bytes=" ++ String.ofList (decimal segmentLengthBytes)
  | .emptySegment value => "pattern segment is empty after sanitization: " ++ String.ofList value

def mapSanitizeError : SanitizeError → ResolveError
  | .pathTraversal segment => .pathTraversal segment
  | .reservedName segment => .reservedName segment
  | .unicodeConfusable token value => .unicodeConfusable token value
  | .emptyAfterSanitize _ value => .emptySegment value

/-! ## Resolving -/

/-- A literal has no fallback, so an emptied one is an error. -/
def sanitizeLiteral (u : Unicode) (literal : Text) : Except ResolveError Text :=
  (sanitizeTokenValue u "literal".toList literal).mapError mapSanitizeError

/-- One `{token}` and the tokens that took their fallback so far. -/
def resolveOneToken (u : Unicode) (bundle : MetadataBundle) (registry : TokenRegistry)
    (tokenName : Text) (missingTokens : List Text) : Except ResolveError (Text × List Text) :=
  match registry.get tokenName with
  | none => .error (.unknownToken tokenName)
  | some definition =>
    let rawOpt := (bundle definition.sourceField).filter (!·.isEmpty)
    let raw := rawOpt.getD definition.fallback
    let isFallback := rawOpt.isNone
    let missingTokens := if isFallback then missingTokens ++ [tokenName] else missingTokens
    match sanitizeTokenValue u tokenName (applyTransform u raw definition.transform) with
    | .ok sanitized => .ok (sanitized, missingTokens)
    -- a value the sanitizer consumed entirely takes the registry fallback
    | .error (.emptyAfterSanitize _ _) =>
      .ok (definition.fallback,
        if isFallback then missingTokens else missingTokens ++ [tokenName])
    | .error error => .error (mapSanitizeError error)

def literalBefore (u : Unicode) (before : Text) : Except ResolveError Text :=
  if before.isEmpty then .ok [] else sanitizeLiteral u before

/-- The loop of `resolve_segment`; each turn takes a token off `rest` or ends. -/
def resolveRun (u : Unicode) (bundle : MetadataBundle) (registry : TokenRegistry) :
    (turns : Nat) → (out : Text) → (missingTokens : List Text) → (rest : Text) →
      Except ResolveError (Text × List Text)
  | 0, out, missingTokens, _ => .ok (out, missingTokens)
  | turns + 1, out, missingTokens, rest =>
    if rest.isEmpty then .ok (out, missingTokens)
    else
      match rest.dropWhile (· ≠ '{') with
      | [] => do
        let literal ← sanitizeLiteral u rest
        return (out ++ literal, missingTokens)
      | brace :: after => do
        let before ← literalBefore u (rest.takeWhile (· ≠ '{'))
        match after.dropWhile (· ≠ '}') with
        -- an unterminated brace and what follows is a literal
        | [] =>
          let literal ← sanitizeLiteral u (brace :: after)
          return (out ++ before ++ literal, missingTokens)
        | _ :: rest =>
          let (value, missingTokens) ←
            resolveOneToken u bundle registry (after.takeWhile (· ≠ '}')) missingTokens
          resolveRun u bundle registry turns (out ++ before ++ value) missingTokens rest

/-- One `/`-delimited segment of a template. -/
def resolveSegment (u : Unicode) (bundle : MetadataBundle) (registry : TokenRegistry)
    (segment : Text) (missingTokens : List Text) : Except ResolveError (Text × List Text) :=
  resolveRun u bundle registry segment.length [] missingTokens segment

def byteLen (text : Text) : Nat := (text.map Char.utf8Size).sum

/-- What only appears once the pieces of a path are joined. -/
def checkAssembledSegments (u : Unicode) (config : ResolverConfig) (relativePath : Text) :
    List Text → Except ResolveError Unit
  | [] => .ok ()
  | segment :: segments =>
    if segment = ['.', '.'] ∨ segment = ['.'] then .error (.pathTraversal segment)
    else if segment.isEmpty then checkAssembledSegments u config relativePath segments
    else do
      (step4ReservedNameCheck u segment).mapError mapSanitizeError
      if byteLen segment > config.maxSegmentBytes then
        .error (.pathTooLong relativePath.length (byteLen segment))
      else checkAssembledSegments u config relativePath segments

def checkAssembledPath (u : Unicode) (config : ResolverConfig) (relativePath : Text) :
    Except ResolveError Unit := do
  checkAssembledSegments u config relativePath (relativePath.splitOn '/')
  if relativePath.length > config.maxPathChars then
    .error (.pathTooLong relativePath.length 0)
  else .ok ()

structure ResolveResult where
  relativePath : Text
  missingTokens : List Text
  deriving DecidableEq, Repr

/-- The segments of a template in order; empty ones are skipped. -/
def resolveSegments (u : Unicode) (bundle : MetadataBundle) (registry : TokenRegistry) :
    List Text → List Text → List Text → Except ResolveError (List Text × List Text)
  | segments, missingTokens, [] => .ok (segments, missingTokens)
  | segments, missingTokens, rawSegment :: rest =>
    if rawSegment.isEmpty then resolveSegments u bundle registry segments missingTokens rest
    else do
      let (segment, missingTokens) ← resolveSegment u bundle registry rawSegment missingTokens
      resolveSegments u bundle registry (segments ++ [segment]) missingTokens rest

def resolvePatternStrWith (u : Unicode) (pattern : Text) (bundle : MetadataBundle)
    (registry : TokenRegistry) (config : ResolverConfig) : Except ResolveError ResolveResult :=
  if (trim pattern).isEmpty then .error .empty
  else do
    let (segments, missingTokens) ← resolveSegments u bundle registry [] [] (pattern.splitOn '/')
    let relativePath := ['/'].intercalate segments
    checkAssembledPath u config relativePath
    return { relativePath, missingTokens }

def resolvePatternStr (u : Unicode) (pattern : Text) (bundle : MetadataBundle) :
    Except ResolveError ResolveResult :=
  resolvePatternStrWith u pattern bundle v1Registry {}

/-! ## Validating -/

inductive PatternStrError
  | empty
  | unknownToken (token : Text)
  deriving DecidableEq, Repr

def PatternStrError.display : PatternStrError → String
  | .empty => "pattern is empty"
  | .unknownToken token => "unknown token: " ++ String.ofList token

/-- The token names of a pattern in order; each turn takes one off `rest`. -/
def tokensFrom : (turns : Nat) → (rest : Text) → List Text
  | 0, _ => []
  | turns + 1, rest =>
    match rest.dropWhile (· ≠ '{') with
    | [] => []
    | _ :: after =>
      match after.dropWhile (· ≠ '}') with
      | [] => []
      | _ :: rest => after.takeWhile (· ≠ '}') :: tokensFrom turns rest

def tokensIn (pattern : Text) : List Text := tokensFrom pattern.length pattern

def validatePatternStr (pattern : Text) : Except PatternStrError Unit :=
  if (trim pattern).isEmpty then .error .empty
  else
    match (tokensIn pattern).find? fun token => (v1Registry.get token).isNone with
    | some token => .error (.unknownToken token)
    | none => .ok ()

/-! ## Templates -/

inductive NamingFrameType
  | light
  | flat
  | dark
  | bias
  | masterFlat
  | masterDark
  | masterBias
  deriving DecidableEq, Repr

def NamingFrameType.asStr : NamingFrameType → String
  | .light => "light"
  | .flat => "flat"
  | .dark => "dark"
  | .bias => "bias"
  | .masterFlat => "master_flat"
  | .masterDark => "master_dark"
  | .masterBias => "master_bias"

structure NamingMetadata where
  target : Option Text
  filter : Option Text
  date : Option Text
  frameType : Option Text
  camera : Option Text
  exposure : Option Text
  gain : Option Text
  binning : Option Text
  setTemp : Option Text
  deriving DecidableEq, Repr

structure NamingFallback where
  token : Text
  value : Text
  deriving DecidableEq, Repr

structure NamingResolution where
  template : Text
  relativePath : Text
  fallbacks : List NamingFallback
  deriving DecidableEq, Repr

def maxTemplateChars : Nat := 200

def invalid (frameType : NamingFrameType) (problem : String) : LibraryError :=
  .invalidInput ("naming template for " ++ frameType.asStr ++ ": " ++ problem)

def checkTemplate (u : Unicode) (frameType : NamingFrameType) (template : Text) : Result Unit := do
  Result.require (!template.isEmpty) (invalid frameType "template is empty")
  Result.require (template.length ≤ maxTemplateChars)
    (invalid frameType ("template length " ++ String.ofList (decimal template.length) ++
      " exceeds " ++ String.ofList (decimal maxTemplateChars) ++ " characters"))
  (validatePatternStr template).mapError fun error => invalid frameType error.display
  let _ ← (resolvePatternStr u template fun _ => none).mapError fun error =>
    invalid frameType error.display
  return ()

def bundle (metadata : NamingMetadata) : MetadataBundle := fun field =>
  ([("target".toList, metadata.target), ("filter".toList, metadata.filter),
    ("date".toList, metadata.date), ("frame_type".toList, metadata.frameType),
    ("camera".toList, metadata.camera), ("exposure".toList, metadata.exposure),
    ("gain".toList, metadata.gain), ("binning".toList, metadata.binning),
    ("set_temp".toList, metadata.setTemp)].lookup field).join

def namingFallbacks (frameType : NamingFrameType) :
    List NamingFallback → List Text → Result (List NamingFallback)
  | fallbacks, [] => .ok fallbacks
  | fallbacks, token :: tokens =>
    if fallbacks.any (·.token = token) then namingFallbacks frameType fallbacks tokens
    else do
      let definition ← Result.orElse (v1Registry.get token)
        (invalid frameType ("unknown token: " ++ String.ofList token))
      namingFallbacks frameType (fallbacks ++ [⟨token, definition.fallback⟩]) tokens

def resolveTemplate (u : Unicode) (frameType : NamingFrameType) (template : Text)
    (metadata : NamingMetadata) : Result NamingResolution := do
  let resolved ← (resolvePatternStr u template (bundle metadata)).mapError fun error =>
    invalid frameType error.display
  let fallbacks ← namingFallbacks frameType [] resolved.missingTokens
  return { template, relativePath := resolved.relativePath, fallbacks }

end PlateVault.Naming
