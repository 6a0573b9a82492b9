import PlateVault.Grouping.Metadata

/-!
# Sanitizing a path segment

The steps that make one path segment of any text: NFC and stripping, substitution and trimming, the
traversal, device-name and confusables checks. Unicode tables come from outside the repository; of
them only what they do to ASCII is used.
-/

namespace PlateVault.Naming

inductive Script
  | latin
  | greek
  | common
  | inherited
  | other
  deriving DecidableEq, Repr

def isAscii (text : Text) : Bool := text.all (·.toNat < 128)

structure Unicode where
  nfc : Text → Text
  toLowercase : Text → Text
  toUppercase : Text → Text
  isSingleScript : Text → Bool
  script : Char → Script
  nfc_ascii : ∀ text, isAscii text = true → nfc text = text
  toLowercase_ascii : ∀ text, isAscii text = true → toLowercase text = text.map Char.toLower

inductive SanitizeError
  | pathTraversal (segment : Text)
  | reservedName (segment : Text)
  | unicodeConfusable (token value : Text)
  | emptyAfterSanitize (token value : Text)
  deriving DecidableEq, Repr

/-! ## The steps -/

def isDisallowed (c : Char) : Bool :=
  let cp := c.toNat
  cp < 0x20 || (0x80 ≤ cp && cp ≤ 0x9F) ||
    -- format characters
    (cp = 0xAD || (0x200B ≤ cp && cp ≤ 0x200F) || (0x2028 ≤ cp && cp ≤ 0x202E) ||
      (0x2060 ≤ cp && cp ≤ 0x206F) || (0xFE00 ≤ cp && cp ≤ 0xFE0F) || cp = 0xFEFF ||
      (0xFFF9 ≤ cp && cp ≤ 0xFFFB))

def step1NormalizeAndStrip (u : Unicode) (input : Text) : Text :=
  (u.nfc input).filter (!isDisallowed ·)

def isWindowsReservedChar (c : Char) : Bool :=
  c ∈ ['/', '\\', ':', '?', '*', '"', '<', '>', '|']

def substitute (c : Char) : Char := if isWindowsReservedChar c then '_' else c

def isTrimmed (c : Char) : Bool := c = '.' || isWhiteSpace c

def step2SubstituteReservedChars (input : Text) : Text :=
  trimMatches isTrimmed (input.map substitute)

def step3TraversalCheck (segment : Text) : Except SanitizeError Unit :=
  if segment = ['.'] ∨ segment = ['.', '.'] then .error (.pathTraversal segment) else .ok ()

def windowsReservedNames : List Text :=
  ["CON", "PRN", "AUX", "NUL", "COM1", "COM2", "COM3", "COM4", "COM5", "COM6", "COM7", "COM8",
    "COM9", "COM¹", "COM²", "COM³", "LPT1", "LPT2", "LPT3", "LPT4", "LPT5", "LPT6", "LPT7", "LPT8",
    "LPT9", "LPT¹", "LPT²", "LPT³"].map String.toList

def stem (segment : Text) : Text := segment.takeWhile (· ≠ '.')

/-- Windows resolves a device from the text before the first dot, in any case. -/
def namesDevice (u : Unicode) (segment : Text) : Bool :=
  windowsReservedNames.contains (u.toUppercase (stem segment))

def step4ReservedNameCheck (u : Unicode) (segment : Text) : Except SanitizeError Unit :=
  if namesDevice u segment then .error (.reservedName segment) else .ok ()

def isAstronomyScript (u : Unicode) (c : Char) : Bool :=
  u.script c = .latin || u.script c = .greek || u.script c = .common || u.script c = .inherited

def step5ConfusablesCheck (u : Unicode) (token value : Text) : Except SanitizeError Unit :=
  if !isAscii value && !u.isSingleScript value && !value.all (isAstronomyScript u) then
    .error (.unicodeConfusable token value)
  else .ok ()

/-- The traversal check runs before trimming collapses a `.` or `..` to nothing. -/
def sanitizeTokenValue (u : Unicode) (token raw : Text) : Except SanitizeError Text := do
  let s := step1NormalizeAndStrip u raw
  step3TraversalCheck s
  let s := step2SubstituteReservedChars s
  if s.isEmpty then .error (.emptyAfterSanitize token raw)
  else do
    step4ReservedNameCheck u s
    step5ConfusablesCheck u token s
    return s

end PlateVault.Naming
