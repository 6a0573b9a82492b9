import PlateVault.Grouping.Metadata
import PlateVault.Lib.Escape

/-!
# The capture key

`derive` writes the canonical key of a frame's metadata: sixteen fields, each known with its
canonical text or unknown, behind the version prefix. The observing night is one of them; it is
read from the headers alone. `nightOf` is the catalog's reader of the night of a key.
-/

namespace PlateVault

/-! ## Header times -/

section HeaderTimes

variable {P : Platform}

inductive HeaderTime (P : Platform)
  | date (date : P.Date)
  | dateTime (time : P.DateTime) (offset : Option Int)

def isAsciiDigit (c : Char) : Bool := '0' ≤ c && c ≤ '9'

def digitValue (c : Char) : Nat := c.toNat - '0'.toNat

def digits (text : Text) : Option Nat :=
  text.foldlM (fun value c => if isAsciiDigit c then some (value * 10 + digitValue c) else none) 0

def takeTwo : Text → Option (Nat × Text)
  | a :: b :: rest => (digits [a, b]).map fun value => (value, rest)
  | _ => none

def expect (c : Char) : Text → Option Text
  | first :: rest => if first = c then some rest else none
  | [] => none

def fractionNanos (scale : Nat) : Text → Nat
  | [] => 0
  | c :: rest => digitValue c * scale + fractionNanos (scale / 10) rest

/-- `[:SS[.fff…]]`: seconds, nanoseconds and the rest. -/
def parseSeconds (rest : Text) : Option (Nat × Nat × Text) :=
  match rest with
  | ':' :: rest => do
    let (second, rest) ← takeTwo rest
    match rest with
    | '.' :: rest =>
      let fraction := rest.takeWhile isAsciiDigit
      if fraction.isEmpty then none
      else some (second, fractionNanos 100000000 (fraction.take 9), rest.drop fraction.length)
    | _ => some (second, 0, rest)
  | _ => some (0, 0, rest)

/-- `[Z|±HH[:]MM]`, to the end: the offset in seconds, if one is written. -/
def parseZone (P : Platform) (rest : Text) : Option (Option Int) :=
  match rest with
  | [] => some none
  | ['Z'] | ['z'] => some (some 0)
  | sign :: zone =>
    if sign = '+' || sign = '-' then do
      let (hours, zone) ← takeTwo zone
      let zone := match zone with
        | ':' :: zone => zone
        | _ => zone
      let (minutes, zone) ← takeTwo zone
      if zone.isEmpty then
        let sign : Int := if sign = '-' then -1 else 1
        (P.utcOffset (sign * hours) (sign * minutes)).map some
      else none
    else none

/-- Parse FITS/ISO `YYYY-MM-DD[(T| )HH:MM[:SS[.fff…]]][Z|±HH[:]MM]`. -/
def parseHeaderTime (P : Platform) (raw : Text) : Option (HeaderTime P) := do
  let text := trim (trimMatches (· = '\'') (trim raw))
  if text.length < 10 || text[4]? ≠ some '-' || text[7]? ≠ some '-' then none
  else do
    let year ← digits (text.take 4)
    let month ← digits ((text.drop 5).take 2)
    let day ← digits ((text.drop 8).take 2)
    let date ← P.fromCalendarDate year month day
    match text.drop 10 with
    | [] => some (.date date)
    | separator :: rest =>
      if separator = 'T' || separator = ' ' then do
        let (hour, rest) ← takeTwo rest
        let rest ← expect ':' rest
        let (minute, rest) ← takeTwo rest
        let (second, nanos, rest) ← parseSeconds rest
        let time ← P.fromHmsNano hour minute second nanos
        let offset ← parseZone P rest
        some (.dateTime (P.newDateTime date time) offset)
      else none

def toUtc (time : P.DateTime) : Option Int → Option P.DateTime
  | none => some time
  | some offset => P.checkedSub time offset

/-- The calendar date whose noon starts the night containing `time`. -/
def noonNight (time : P.DateTime) : Option P.Date :=
  (P.checkedSub time (12 * 3600)).map P.date

/-- Longitude in `-180..=180`, accepting the `0..360` east-positive form. -/
def eastLongitude (degrees : P.F64) : Option P.F64 :=
  if !(P.le (P.literal (-180)) degrees && P.le degrees (P.literal 360)) then none
  else some (if P.lt (P.literal 180) degrees then P.sub degrees (P.literal 360) else degrees)

end HeaderTimes

/-! ## The observing night -/

section Night

variable {P : Platform}

def basisDateLoc : Text := "date-loc-noon".toList
def basisLongitude : Text := "longitude-mean-solar-noon".toList
def basisUtc : Text := "utc-date-provisional".toList

structure Night (P : Platform) where
  value : Option (P.Date × Text)
  notes : List Text

def provisionalUtc (date : P.Date) (notes : List Text) : Night P where
  value := some (date, basisUtc)
  notes := notes ++ ["night: provisional UTC date; no DATE-LOC time or site longitude".toList]

/-- The night `DATE-LOC` gives, else why it gives none. -/
def localNight (meta_ : CaptureMetadata P) : Option P.Date × List Text :=
  match meta_.dateLocal with
  | none => (none, [])
  | some raw =>
    match parseHeaderTime P raw with
    | some (.dateTime time _) =>
      match noonNight time with
      | some date => (some date, [])
      | none => (none, ["night: DATE-LOC=".toList ++ P.debug raw ++
          " is outside the supported date range".toList])
    | some (.date _) => (none, ["night: DATE-LOC=".toList ++ P.debug raw ++
        " has no time of day for the noon boundary".toList])
    | none => (none, ["night: DATE-LOC=".toList ++ P.debug raw ++
        " is not a valid date-time".toList])

/-- The night of a UTC instant at the site's longitude, else why there is none. -/
def longitudeNight (meta_ : CaptureMetadata P) (utc : Option P.DateTime) :
    Option P.Date × List Text :=
  match utc, meta_.siteLongitudeDeg.map eastLongitude with
  | some utc, some (some longitude) =>
    ((P.checkedAdd utc (P.mul longitude (P.literal 240))).bind noonNight, [])
  | some _, some none => (none, ["night: site longitude is outside -180..360 degrees".toList])
  | _, _ => (none, [])

/-- Header-derived observing night: `DATE-LOC` with a time of day, then `DATE-OBS` with the site
longitude, then the provisional UTC date of `DATE-OBS`. -/
def night (meta_ : CaptureMetadata P) : Night P :=
  match localNight meta_ with
  | (some date, notes) => { value := some (date, basisDateLoc), notes }
  | (none, notes) =>
    let observed := meta_.dateObs.map fun raw => (raw, parseHeaderTime P raw)
    let utc := match observed with
      | some (_, some (.dateTime time offset)) => toUtc time offset
      | _ => none
    match longitudeNight meta_ utc with
    | (some date, _) => { value := some (date, basisLongitude), notes }
    | (none, more) =>
      let notes := notes ++ more
      match observed with
      | some (_, some (.date date)) => provisionalUtc date notes
      | some (_, some (.dateTime _ _)) =>
        match utc with
        | some utc => provisionalUtc (P.date utc) notes
        | none =>
          { value := none
            notes := notes ++ ["night: DATE-OBS is outside the supported date range".toList] }
      | some (raw, none) =>
        { value := none
          notes := notes ++ ["night: DATE-OBS=".toList ++ P.debug raw ++
            " is not a valid date-time".toList] }
      | none => { value := none, notes }

/-- When a frame was captured: `DATE-OBS` in UTC, else `DATE-LOC`; `none` without a time of day. -/
def captureInstant (meta_ : CaptureMetadata P) : Option P.DateTime :=
  let parse (raw : Option Text) : Option P.DateTime :=
    match raw.bind (parseHeaderTime P) with
    | some (.dateTime time offset) => toUtc time offset
    | _ => none
  (parse meta_.dateObs).or (parse meta_.dateLocal)

end Night

/-! ## The writer -/

section Writer

variable {P : Platform}

def keyVersion : Text := "capture-v1".toList

structure KeyWriter where
  key : Text
  provisional : List Text
  raw : Text → Option Text

namespace KeyWriter

def note (writer : KeyWriter) (note : Text) : KeyWriter :=
  { writer with provisional := writer.provisional ++ [note] }

def escaped : Char → Text
  | '%' => "%25".toList
  | '|' => "%7C".toList
  | other => [other]

def known (writer : KeyWriter) (name value : Text) : KeyWriter :=
  { writer with key := writer.key ++ '|' :: name ++ '=' :: value.flatMap escaped }

def unknown (writer : KeyWriter) (name reason : Text) : KeyWriter :=
  ({ writer with key := writer.key ++ '|' :: name ++ ['?'] }).note
    (name ++ ": unknown; ".toList ++ reason)

def unknownFromHeader (P : Platform) (writer : KeyWriter) (name : Text) (header : Option Text) :
    KeyWriter :=
  let reason := match header with
    | some header =>
      match writer.raw header with
      | some value => "header ".toList ++ header ++ '=' :: P.debug value ++ " is not usable".toList
      | none => "header ".toList ++ header ++ " is absent".toList
    | none => "not recorded".toList
  writer.unknown name reason

end KeyWriter

def canonicalText (P : Platform) (value : Text) : Option Text :=
  let text := P.nfc (trim value)
  if text.isEmpty then none else some text

def canonicalDecimal (value : P.F64) : Option Text :=
  if P.isFinite value then some (P.display value) else none

namespace KeyWriter

def text (P : Platform) (writer : KeyWriter) (name : Text) (value : Option Text)
    (header : Option Text) : KeyWriter :=
  match value.map (canonicalText P) with
  | some (some text) => writer.known name text
  | some none => writer.unknown name "value is blank".toList
  | none => writer.unknownFromHeader P name header

def decimal (writer : KeyWriter) (name : Text) (value : Option P.F64) (header : Option Text) :
    KeyWriter :=
  match value.bind canonicalDecimal with
  | some text => writer.known name text
  | none => writer.unknownFromHeader P name header

def integer (P : Platform) (writer : KeyWriter) (name : Text) (value : Option Nat)
    (header : Option Text) : KeyWriter :=
  match value with
  | some value => writer.known name (PlateVault.decimal value)
  | none => writer.unknownFromHeader P name header

end KeyWriter

structure Capture where
  key : Text
  dateBasis : Option Text
  light : Bool
  provisional : List Text

def writeType (meta_ : CaptureMetadata P) (key : KeyWriter) : KeyWriter :=
  match meta_.imageTypeEvidence with
  | .known frame => key.known "type".toList frame.asStr
  | .unclassified text =>
    (key.known "type".toList ("unclassified:".toList ++ text)).note
      ("type: IMAGETYP ".toList ++ P.debug text ++ " is not a recognised frame type".toList)
  | .blank => key.unknown "type".toList "IMAGETYP is blank".toList
  | .absent => key.unknownFromHeader P "type".toList (some "IMAGETYP".toList)

def nightText (date : P.Date) (basis : Text) : Text := P.displayDate date ++ '@' :: basis

def writeNight (night : Night P) (key : KeyWriter) : KeyWriter :=
  let key := { key with provisional := key.provisional ++ night.notes }
  match night.value with
  | some (date, basis) => key.known "night".toList (nightText date basis)
  | none => key.unknown "night".toList "no usable DATE-LOC or DATE-OBS".toList

/-- An `i64` in decimal. -/
def decimalInt : Int → Text
  | .ofNat n => decimal n
  | .negSucc n => '-' :: decimal (n + 1)

/-- The offset field, an `i64` where the other counts are `u32`. -/
def writeOffset (P : Platform) (offset : Option Int) (key : KeyWriter) : KeyWriter :=
  match offset with
  | some offset => key.known "offset".toList (decimalInt offset)
  | none => key.unknownFromHeader P "offset".toList none

def derive (meta_ : CaptureMetadata P) : Capture :=
  let key : KeyWriter := { key := keyVersion, provisional := [], raw := meta_.raw }
  let key := writeType meta_ key
  let night := night meta_
  let key := writeNight night key
  let key := key.text P "camera".toList meta_.camera (some "INSTRUME".toList)
  let key := key.text P "camera_id".toList meta_.cameraId (some "CAMERAID".toList)
  let key := key.text P "telescope".toList meta_.telescope (some "TELESCOP".toList)
  let key := key.decimal "focal_length_mm".toList meta_.focalLengthMm none
  let key := key.text P "filter".toList meta_.filter (some "FILTER".toList)
  let key := key.decimal "exposure_s".toList
    (meta_.exposureSeconds.filter fun v => P.le (P.literal 0) v) (some "EXPTIME".toList)
  let key := key.decimal "gain".toList meta_.gain (some "GAIN".toList)
  let key := writeOffset P meta_.offset key
  let key := key.integer P "binning_x".toList meta_.binningX (some "XBINNING".toList)
  let key := key.integer P "binning_y".toList meta_.binningY (some "YBINNING".toList)
  let key := key.integer P "width".toList meta_.width (some "NAXIS1".toList)
  let key := key.integer P "height".toList meta_.height (some "NAXIS2".toList)
  let key := key.text P "readout".toList meta_.readoutMode (some "READOUTM".toList)
  let key := key.decimal "set_temp_c".toList meta_.setTemperatureC none
  { key := key.key
    dateBasis := night.value.map Prod.snd
    light := meta_.isLight = some true
    provisional := key.provisional }

end Writer

/-! ## The reader of the night -/

def stripPrefix (pre text : Text) : Option Text :=
  if pre.isPrefixOf text then some (text.drop pre.length) else none

/-- The `night` value of a session key, by the catalog's own two replacements. -/
def nightOf (key : Text) : Option Text :=
  ((key.splitOn '|').findSome? (stripPrefix "night=".toList)).map fun night =>
    replaceAll "%25".toList ['%'] (replaceAll "%7C".toList ['|'] night)

end PlateVault
