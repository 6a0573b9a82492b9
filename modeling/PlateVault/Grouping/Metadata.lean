import PlateVault.Base.Basic

/-!
# Capture metadata

The header values grouping reads, and the frame type they name. Floating point, Unicode
normalization and calendar arithmetic come from outside the repository: a `Platform` gives their
values and operations, about which nothing is assumed beyond an order of the numbers and one of the
instants.
-/

namespace PlateVault

/-- What grouping uses of `f64`, of Unicode normalization, of `{:?}` and of the calendar. The order
of `F64` is that of the values: it has one zero, and says nothing of NaN. -/
structure Platform where
  F64 : Type
  order : LinearOrder F64
  isNan : F64 → Bool
  isFinite : F64 → Bool
  literal : Int → F64
  sub : F64 → F64 → F64
  mul : F64 → F64 → F64
  /-- The shortest text that reads back as the value. -/
  display : F64 → Text
  nfc : Text → Text
  debug : Text → Text
  Date : Type
  Time : Type
  DateTime : Type
  dateTimeOrder : LinearOrder DateTime
  fromCalendarDate : (year month day : Nat) → Option Date
  fromHmsNano : (hour minute second nanos : Nat) → Option Time
  /-- A UTC offset by its hours and minutes, in whole seconds. -/
  utcOffset : (hours minutes : Int) → Option Int
  newDateTime : Date → Time → DateTime
  date : DateTime → Date
  /-- Subtract whole seconds, within the supported range. -/
  checkedSub : DateTime → Int → Option DateTime
  /-- Add seconds, within the supported range. -/
  checkedAdd : DateTime → F64 → Option DateTime
  displayDate : Date → Text

namespace Platform

instance (P : Platform) : LinearOrder P.F64 := P.order
instance (P : Platform) : LinearOrder P.DateTime := P.dateTimeOrder

variable {P : Platform}

/-- IEEE `<=`: false of NaN. -/
def le (left right : P.F64) : Bool := !P.isNan left && !P.isNan right && left ≤ right

/-- IEEE `<`: false of NaN. -/
def lt (left right : P.F64) : Bool := !P.isNan left && !P.isNan right && left < right

end Platform

/-! ## Texts -/

def isWhiteSpace (c : Char) : Bool :=
  let n := c.toNat
  (9 ≤ n && n ≤ 13) || n = 0x20 || n = 0x85 || n = 0xA0 || n = 0x1680 ||
    (0x2000 ≤ n && n ≤ 0x200A) || n = 0x2028 || n = 0x2029 || n = 0x202F || n = 0x205F ||
    n = 0x3000

def trimMatches (p : Char → Bool) (text : Text) : Text :=
  ((text.dropWhile p).reverse.dropWhile p).reverse

/-- `str::trim`. -/
def trim (text : Text) : Text := trimMatches isWhiteSpace text

/-! ## Frame types -/

inductive FrameType
  | light
  | dark
  | bias
  | flat
  | darkFlat
  deriving DecidableEq, Repr

def FrameType.asStr : FrameType → Text
  | .light => "light".toList
  | .dark => "dark".toList
  | .bias => "bias".toList
  | .flat => "flat".toList
  | .darkFlat => "dark_flat".toList

/-- `v1_normalization_table`; no text maps to a dark flat. -/
def v1NormalizationTable : List (Text × FrameType) :=
  [("light".toList, .light), ("light frame".toList, .light), ("light frames".toList, .light),
    ("science".toList, .light), ("science frame".toList, .light),
    ("science frames".toList, .light), ("object".toList, .light),
    ("dark".toList, .dark), ("dark frame".toList, .dark), ("dark frames".toList, .dark),
    ("bias".toList, .bias), ("bias frame".toList, .bias), ("bias frames".toList, .bias),
    ("offset".toList, .bias), ("offset frame".toList, .bias), ("zero".toList, .bias),
    ("flat".toList, .flat), ("flat frame".toList, .flat), ("flat frames".toList, .flat),
    ("sky flat".toList, .flat), ("dawn flat".toList, .flat), ("dusk flat".toList, .flat),
    ("twilight flat".toList, .flat)]

/-- `ImageTypNormalizationTable::normalize`. -/
def normalize (table : List (Text × FrameType)) (raw : Text) : Option FrameType :=
  let key := (trim raw).map Char.toLower
  if key.isEmpty then none else table.lookup key

structure CaptureMetadata (P : Platform) where
  raw : Text → Option Text
  imageType : Option Text
  filter : Option Text
  camera : Option Text
  cameraId : Option Text
  telescope : Option Text
  exposureSeconds : Option P.F64
  gain : Option P.F64
  offset : Option Int
  binningX : Option Nat
  binningY : Option Nat
  width : Option Nat
  height : Option Nat
  readoutMode : Option Text
  setTemperatureC : Option P.F64
  dateObs : Option Text
  dateLocal : Option Text
  siteLongitudeDeg : Option P.F64
  raDeg : Option P.F64
  decDeg : Option P.F64
  wcsRaDeg : Option P.F64
  wcsDecDeg : Option P.F64
  skyRotationDeg : Option P.F64
  mechanicalRotationDeg : Option P.F64
  focalLengthMm : Option P.F64
  pixelSizeUm : Option P.F64
  framingLabel : Option Text

inductive ImageTypeEvidence
  | absent
  | blank
  | known (frame : FrameType)
  | unclassified (text : Text)
  deriving DecidableEq, Repr

namespace CaptureMetadata

variable {P : Platform}

/-- Classify the effective IMAGETYP: trimmed NFC text looked up in the shared table. -/
def imageTypeEvidence (meta_ : CaptureMetadata P) : ImageTypeEvidence :=
  match meta_.imageType with
  | none => .absent
  | some value =>
    let trimmed := trim value
    if trimmed.isEmpty then .blank
    else
      let text := P.nfc trimmed
      match normalize v1NormalizationTable text with
      | some frame => .known frame
      | none => .unclassified text

/-- Whether this is a light frame; `none` where the type is unknown evidence. -/
def isLight (meta_ : CaptureMetadata P) : Option Bool :=
  match meta_.imageTypeEvidence with
  | .known frame => some (frame = .light)
  | .absent | .blank | .unclassified _ => none

end CaptureMetadata

end PlateVault
