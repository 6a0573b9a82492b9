import PlateVault.View.Basis

/-!
# Folder tokens and entry names

`token` keeps of a group's or a filter's name what a keyword value may hold. `entryBasename` picks
the name an original is placed under: its own while no other input holds it, else one with more and
more digits of the input's id. A text too long for one path component is shortened. `nameKey`
compares two names of one folder.
-/

namespace PlateVault.View

variable (H : Host)

/-! ## Lengths -/

def componentLimit : Nat := 255

/-- What one character takes: UTF-16 units on Windows, bytes elsewhere. -/
def charLen (c : Char) : Nat :=
  if H.windows then (if c.toNat < 0x10000 then 1 else 2) else c.utf8Size

/-- The length of `name` as the platform measures one path component. -/
def componentLen (name : Text) : Nat := (name.map (charLen H)).sum

/-- The longest start of a text that takes at most `room`. -/
def fitting (room : Nat) : Text → Text
  | [] => []
  | c :: rest => if charLen H c ≤ room then c :: fitting (room - charLen H c) rest else []

def trimEndMatches (p : Char → Bool) (text : Text) : Text := (text.reverse.dropWhile p).reverse

def isHyphenOrDot (c : Char) : Bool := c = '-' || c = '.'

/-- `name` when it fits `limit`, else its start, without a trailing hyphen or dot, followed by
`suffix`. -/
def capped (name : Text) (limit : Nat) (suffix : Text) : Text :=
  if componentLen H name ≤ limit then name
  else trimEndMatches isHyphenOrDot (fitting H (limit - componentLen H suffix) name) ++ suffix

/-- The key two names of one folder are compared by: NFC and lowercase. -/
def nameKey (name : Text) : Text := H.lower (H.nfc name)

/-! ## Safe names -/

inductive SanitizeError
  | pathTraversal (segment : Text)
  | reservedName (segment : Text)

def SanitizeError.display : SanitizeError → String
  | .pathTraversal segment => "path traversal attempt in segment: " ++ String.ofList segment
  | .reservedName segment => "Windows reserved device name: " ++ String.ofList segment

def isDisallowed (c : Char) : Bool :=
  let n := c.toNat
  n < 0x20 || (0x80 ≤ n && n ≤ 0x9F) || n = 0xAD || (0x200B ≤ n && n ≤ 0x200F) ||
    (0x2028 ≤ n && n ≤ 0x202E) || (0x2060 ≤ n && n ≤ 0x206F) || (0xFE00 ≤ n && n ≤ 0xFE0F) ||
    n = 0xFEFF || (0xFFF9 ≤ n && n ≤ 0xFFFB)

def step1NormalizeAndStrip (input : Text) : Text := (H.nfc input).filter fun c => !isDisallowed c

def step3TraversalCheck (segment : Text) : Except SanitizeError Unit :=
  if segment = ['.'] || segment = ['.', '.'] then .error (.pathTraversal segment) else .ok ()

def windowsReservedNames : List Text :=
  ["CON".toList, "PRN".toList, "AUX".toList, "NUL".toList, "COM1".toList, "COM2".toList,
    "COM3".toList, "COM4".toList, "COM5".toList, "COM6".toList, "COM7".toList, "COM8".toList,
    "COM9".toList, "COM¹".toList, "COM²".toList, "COM³".toList, "LPT1".toList, "LPT2".toList,
    "LPT3".toList, "LPT4".toList, "LPT5".toList, "LPT6".toList, "LPT7".toList, "LPT8".toList,
    "LPT9".toList, "LPT¹".toList, "LPT²".toList, "LPT³".toList]

/-- The device name is the text before the first dot, in any case. -/
def isReservedName (segment : Text) : Bool :=
  windowsReservedNames.contains (H.upper (segment.takeWhile (· ≠ '.')))

def step4ReservedNameCheck (segment : Text) : Except SanitizeError Unit :=
  if isReservedName H segment then .error (.reservedName segment) else .ok ()

/-! ## Folder tokens -/

/-- `-` and the first eight hex digits of the text's SHA-256. -/
def digestSuffix (text : Text) : Text := '-' :: (H.sha256 text).take 8

def tokenChar (c : Char) : Option Char :=
  if c.isAlphanum || c = '(' || c = ')' || c = '.' then some c
  else if isWhiteSpace c || c = '-' || c = '_' || c = ':' then some '-'
  else none

/-- Append what is kept of `c`, one hyphen of a run. -/
def pushToken (token : Text) (c : Char) : Text :=
  match tokenChar c with
  | none => token
  | some mapped =>
    if mapped = '-' && token.getLast? = some '-' then token else token ++ [mapped]

/-- The token of `raw` within `limit`, named `label` in errors. -/
def token (label : String) (raw : Text) (limit : Nat) : Result Text :=
  let cleaned := H.nfkd (step1NormalizeAndStrip H raw)
  let token := trimMatches isHyphenOrDot (cleaned.foldl pushToken [])
  if token.isEmpty then
    .error (.invalidInput
      ("the " ++ label ++ " name '" ++ String.ofList raw ++ "' leaves no folder name"))
  else match step4ReservedNameCheck H token with
    | .error error => .error (.invalidInput
        ("the " ++ label ++ " name '" ++ String.ofList raw ++ "' is no folder name: " ++
          error.display))
    | .ok () => .ok (capped H token limit (digestSuffix H raw))

/-- `token` that always ends with the suffix from `raw`'s digest. -/
def tokenSuffixed (label : String) (raw : Text) (limit : Nat) : Result Text := do
  let suffix := digestSuffix H raw
  let plain ← token H label raw limit
  .ok (capped H plain (limit - componentLen H suffix) [] ++ suffix)

/-- A group's folder, `GROUP_<token>` or `PANEL_<token>` with the Project's keyword names. -/
def groupFolder (keywords : GroupKeywords) (name : Text) (panel : Bool) : Result Text := do
  let keyword := if panel then keywords.panel else keywords.group
  let before := keyword ++ ['_']
  let token ← token H "group" name (componentLimit - componentLen H before)
  .ok (before ++ token)

/-! ## Entry names -/

def isControl (c : Char) : Bool := c.toNat < 0x20 || (0x7F ≤ c.toNat && c.toNat ≤ 0x9F)

def IsComponent (text : Text) : Prop :=
  text ≠ [] ∧ text ≠ ['.'] ∧ text ≠ ['.', '.'] ∧ '/' ∉ text ∧ '\\' ∉ text

structure IsPlainName (text : Text) : Prop where
  component : IsComponent text
  no_control : ∀ c ∈ text, isControl c = false
  no_device : isReservedName H text = false

structure EntryName where
  input : EntryInput
  basename : Text
  plain : IsPlainName H basename

/-- A name an earlier build reserved, as its row's check admits it. -/
structure ReservedName where
  text : Text
  component : IsComponent text

def refused (basename : Text) (why : String) : LibraryError :=
  .invalidInput (String.ofList (H.debug basename) ++ " is no entry name: " ++ why)

def isPlainFileName (basename : Text) : Bool :=
  !basename.isEmpty && basename.all fun c => !(c = '/' || c = '\\' || isControl c)

theorem IsPlainName.of_checks {basename : Text} (hplain : isPlainFileName basename = true)
    (htraversal : step3TraversalCheck basename = .ok ())
    (hdevice : step4ReservedNameCheck H basename = .ok ()) : IsPlainName H basename := by
  simp only [isPlainFileName, Bool.and_eq_true, Bool.not_eq_true', List.isEmpty_eq_false_iff,
    List.all_eq_true, Bool.or_eq_false_iff, decide_eq_false_iff_not] at hplain
  simp only [step3TraversalCheck, Bool.or_eq_true, decide_eq_true_eq] at htraversal
  simp only [step4ReservedNameCheck] at hdevice
  split at htraversal
  · cases htraversal
  · next hdots =>
    split at hdevice
    · cases hdevice
    · next hname =>
      obtain ⟨hone, htwo⟩ := not_or.mp hdots
      exact ⟨⟨hplain.1, hone, htwo, fun h => (hplain.2 _ h).1.1 rfl,
        fun h => (hplain.2 _ h).1.2 rfl⟩, fun c hc => (hplain.2 c hc).2, by simpa using hname⟩

/-- `EntryName::new`. -/
def EntryName.new (input : EntryInput) (basename : Text) : Result (EntryName H) :=
  if hplain : isPlainFileName basename = true then
    match htraversal : step3TraversalCheck basename with
    | .error error => .error (refused H basename error.display)
    | .ok () =>
      match hdevice : step4ReservedNameCheck H basename with
      | .error error => .error (refused H basename error.display)
      | .ok () =>
        .ok { input, basename, plain := .of_checks H hplain htraversal hdevice }
  else .error (refused H basename "it is not a plain file name")

/-- `str::rsplit_once`. -/
def rsplitOnce (at_ : Char) (text : Text) : Option (Text × Text) :=
  let after := (text.reverse.takeWhile (· ≠ at_)).reverse
  if after.length = text.length then none
  else some (text.take (text.length - after.length - 1), after)

/-- What is shortened of a name, and what it keeps behind it. -/
def stemAndExtension (source : Text) : Text × Text :=
  match rsplitOnce '.' source with
  | some (stem, extension) =>
    if !stem.isEmpty && componentLen H extension + 1 < componentLimit / 2 then
      (stem, '.' :: extension)
    else (source, [])
  | none => (source, [])

def ownName (source : Text) : Text :=
  let source := trimMatches (fun c => isWhiteSpace c || c = '.') source
  if source.isEmpty then "entry".toList else source

/-- The name with the first `digits` hex digits of the id. -/
def suffixedName (source : Text) (id : Uuid) (digits : Nat) : Text :=
  let (stem, extension) := stemAndExtension H source
  let suffix := '-' :: id.simple.take digits ++ extension
  capped H stem (componentLimit - componentLen H suffix) [] ++ suffix

/-- The suffix grows one digit at a time while the name is taken; `left` digits remain. -/
def extendSuffix (source : Text) (id : Uuid) (taken : Text → Bool) (digits : Nat) : Nat → Text
  | 0 => suffixedName H source id digits
  | left + 1 =>
    let name := suffixedName H source id digits
    if !taken name then name else extendSuffix source id taken (digits + 1) left

/-- The basename `entryName` picks, before it is validated. -/
def entryBasename (source : Text) (id : Uuid) (taken : Text → Bool) : Text :=
  let source := ownName source
  if componentLen H source ≤ componentLimit && !taken source then source
  else extendSuffix H source id taken 8 24

def entryName (input : EntryInput) (source : Text) (taken : Text → Bool) : Result (EntryName H) :=
  EntryName.new H input (entryBasename H source input.id taken)

end PlateVault.View
