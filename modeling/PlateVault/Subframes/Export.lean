import PlateVault.Import.Paths
import PlateVault.Lib.Delimited
import PlateVault.Roots.Host

/-!
# SubframeSelector exports

An export is lines: a preamble of keyed rows, the table's header, and the data rows. The header is
the first line with an `Index` or a `File` field. Each row's `File` field is what lies between the
fields before and after it, because the exporter quotes paths and expressions without escaping.
What reads a CSV record and a number comes from outside the repository.
-/

namespace PlateVault.Subframes

open Delimited (splitN rsplitN cut)
open Roots (parseU64)

def maxExportBytes : Nat := 16 * 2 ^ 20

/-! ## Reasons and layouts -/

def columns30 : List Text :=
  ["Index".toList, "Approved".toList, "Locked".toList, "File".toList, "Weight".toList,
    "PSF Signal Weight".toList, "PSF SNR".toList, "PSF Scale".toList, "PSF Scale SNR".toList,
    "PSF Count".toList, "M*".toList, "N*".toList, "SNR".toList, "FWHM".toList,
    "Eccentricity".toList, "Altitude".toList, "Azimuth".toList, "Median".toList,
    "Median Mean Deviation".toList, "Noise".toList, "Noise Ratio".toList, "Stars".toList,
    "Star Residual".toList, "PSF Total Flux".toList, "PSF Total Power Flux".toList,
    "PSF Total Mean Flux".toList, "PSF Total Mean Power Flux".toList, "FWHM Mean Deviation".toList,
    "Eccentricity Mean Deviation".toList, "Star Residual Mean Deviation".toList]

def columns28 : List Text :=
  ["Index".toList, "Approved".toList, "Locked".toList, "File".toList, "Weight".toList,
    "PSF Signal Weight".toList, "PSF SNR".toList, "PSF Count".toList, "M*".toList, "N*".toList,
    "SNR".toList, "FWHM".toList, "Eccentricity".toList, "Altitude".toList, "Azimuth".toList,
    "Median".toList, "Median Mean Deviation".toList, "Noise".toList, "Noise Ratio".toList,
    "Stars".toList, "Star Residual".toList, "PSF Total Flux".toList, "PSF Total Power Flux".toList,
    "PSF Total Mean Flux".toList, "PSF Total Mean Power Flux".toList, "FWHM Mean Deviation".toList,
    "Eccentricity Mean Deviation".toList, "Star Residual Mean Deviation".toList]

def columns23 : List Text :=
  ["Index".toList, "Approved".toList, "Locked".toList, "File".toList, "Weight".toList,
    "SNR Weight".toList, "PSF Signal Weight".toList, "PSF Signal Power Weight".toList,
    "PSF Flux".toList, "PSF Flux Power".toList, "FWHM".toList, "Eccentricity".toList,
    "Altitude".toList, "Azimuth".toList, "Median".toList, "Median Mean Deviation".toList,
    "Noise".toList, "Noise Ratio".toList, "Stars".toList, "Star Residual".toList,
    "FWHM Mean Deviation".toList, "Eccentricity Mean Deviation".toList,
    "Star Residual Mean Deviation".toList]

def noDeclaredUnits : List Text :=
  ["Weight".toList, "PSF Signal Weight".toList, "PSF SNR".toList, "PSF Scale".toList,
    "PSF Scale SNR".toList, "PSF Total Flux".toList, "PSF Total Power Flux".toList,
    "PSF Total Mean Flux".toList, "PSF Total Mean Power Flux".toList, "M*".toList, "N*".toList,
    "SNR".toList, "Noise Ratio".toList, "Star Residual".toList,
    "Star Residual Mean Deviation".toList, "SNR Weight".toList, "PSF Signal Power Weight".toList,
    "PSF Flux".toList, "PSF Flux Power".toList]

inductive Reason
  | missingUnits
  | noDeclaredUnits
  | circularPsf
  | notSupported
  | unknownColumn
  | decisionNotImported
  | unparsedValue
  | emptyValue
  | duplicateAssetMatch
  | defaultSubframeScale
  /-- Why a row does not parse, in words. -/
  | text (message : Text)
  deriving DecidableEq, Repr

inductive ExportLayout
  | columns30
  | columns28
  | columns23
  deriving DecidableEq, Repr

inductive ColumnClass
  | mapped
  | unavailable
  | identity
  | excluded
  deriving DecidableEq, Repr

inductive Units
  | count
  | px
  | dimensionless
  | dn
  | normalized
  | arcsec
  | electrons
  deriving DecidableEq, Repr

structure PreambleEntry where
  key : Text
  value : Text
  deriving DecidableEq, Repr

structure ImportColumn where
  header : Text
  position : Nat
  cls : ColumnClass
  units : Option Units
  unitsBasis : List PreambleEntry
  reason : Option Reason
  warnings : List Reason
  deriving DecidableEq, Repr

def byteOrderMark : Char := Char.ofNat 0xFEFF

/-- The characters a CSV reader does not take as part of a field. -/
def special : List Char := [',', '"', '\r', '\n', byteOrderMark]

/-- What an import uses of other packages. A line of fields without special characters is one record
of these fields. -/
structure Readers where
  /-- The first CSV record of a line, if it has one. -/
  record : Text → Except Text (Option (List Text))
  F64 : Type
  parseF64 : Text → Option F64
  isFinite : F64 → Bool
  /-- Whether a number is exactly 1. -/
  isOne : F64 → Bool
  /-- A text as `{:?}` prints it. -/
  debug : Text → Text
  record_plain : ∀ fields : List Text, List.intercalate [','] fields ≠ [] →
    (∀ field ∈ fields, ∀ c ∈ field, c ∉ special) →
    record (List.intercalate [','] fields) = .ok (some fields)

structure ImportCell (F64 : Type) where
  position : Nat
  raw : Text
  value : Option F64
  reason : Option Reason

/-- One data row; `index` is `none` for a row that does not parse. -/
structure ExportRow (F64 : Type) where
  /-- The line in the file, from 1. -/
  line : Nat
  index : Option Nat
  /-- The File field as written, without its outer quotes. -/
  file : Text
  values : List (ImportCell F64)
  reason : Option Reason

structure SubframeExport (F64 : Type) where
  moduleVersion : Option Text
  psfType : Option Text
  preamble : List PreambleEntry
  layout : ExportLayout
  columns : List ImportColumn
  rows : List (ExportRow F64)

/-- `LibraryError::UnsupportedFormat`, the one error of `parse`. -/
structure UnsupportedFormat where
  message : Text
  deriving DecidableEq, Repr

/-! ## The preamble -/

/-- `text.contains(part)`. -/
def contains (text part : Text) : Bool := text.tails.any part.isPrefixOf

/-- What follows the first `part`. -/
def behind (part : Text) (text : Text) : Option Text :=
  (text.tails.find? part.isPrefixOf).map (·.drop part.length)

def moduleVersionMark : Text := " module version ".toList

def unquote (value : Text) : Text :=
  match value with
  | '"' :: inner => if inner.getLast? = some '"' then inner.dropLast else value
  | _ => value

/-- The preamble as read so far: the version, the entries and whether the last one is open. -/
structure Reading where
  version : Option Text
  entries : List PreambleEntry
  «open» : Bool

def Reading.line (reading : Reading) (line : Text) : Reading :=
  if reading.open then
    match reading.entries.getLast? with
    | none => reading
    | some last =>
      let value := last.value ++ '\n' :: line
      let «open» := line.getLast? != some '"'
      { reading with
        entries := reading.entries.dropLast ++
          [{ last with value := if «open» then value else unquote value }]
        «open» := «open» }
  else if (trim line).isEmpty then reading
  else match cut ',' line with
    | none =>
      if reading.version.isNone && contains line moduleVersionMark then
        { reading with version := (behind moduleVersionMark line).map trim }
      else { reading with entries := reading.entries ++ [⟨trim line, []⟩] }
    | some (key, value) =>
      let «open» := value.head? = some '"' ∧ (value.length = 1 ∨ value.getLast? ≠ some '"')
      { reading with
        entries := reading.entries ++ [⟨trim key, if «open» then value else unquote value⟩]
        «open» := «open» }

def readPreamble (lines : List Text) : Option Text × List PreambleEntry :=
  let read := lines.foldl Reading.line ⟨none, [], false⟩
  (read.version, read.entries)

abbrev Preamble := List PreambleEntry

def Preamble.entry (preamble : Preamble) (key : Text) : Option PreambleEntry :=
  preamble.find? (·.key = key)

def Preamble.value (preamble : Preamble) (key : Text) : Option Text :=
  (preamble.entry key).map (·.value)

/-! ## Columns -/

section Columns

variable (R : Readers)

def mapped (column : ImportColumn) (units : Units) : ImportColumn :=
  { column with cls := .mapped, units := some units }

def refused (column : ImportColumn) (reason : Reason) : ImportColumn :=
  { column with reason := some reason }

/-- FWHM units from `Scale Unit`, recorded with `Subframe Scale`. -/
def scaleUnits (column : ImportColumn) (preamble : Preamble) : ImportColumn :=
  match preamble.entry "Scale Unit".toList with
  | none => refused column .missingUnits
  | some unit =>
    let withUnit := { column with unitsBasis := column.unitsBasis ++ [unit] }
    if contains unit.value "(arcsec)".toList then
      match preamble.entry "Subframe Scale".toList with
      | none => mapped withUnit .arcsec
      | some scale =>
        mapped
          { withUnit with
            unitsBasis := withUnit.unitsBasis ++ [scale]
            -- exactly 1: the module's default scale, not a measured plate scale
            warnings :=
              if (R.parseF64 (trim scale.value)).any R.isOne then [.defaultSubframeScale] else [] }
          .arcsec
    else if contains unit.value "(pixel)".toList then mapped withUnit .px
    else refused column .missingUnits

/-- Median and Noise units from `Data Unit`, recorded with the row the module converted with. -/
def dataUnits (column : ImportColumn) (preamble : Preamble) : ImportColumn :=
  match preamble.entry "Data Unit".toList with
  | none => refused column .missingUnits
  | some unit =>
    let recorded (units : Units) (conversion : Option Text) : ImportColumn :=
      mapped
        { column with
          unitsBasis :=
            column.unitsBasis ++ unit :: (conversion.bind preamble.entry).toList }
        units
    if contains unit.value "(e-)".toList then recorded .electrons (some "Camera Gain".toList)
    else if contains unit.value "(DN)".toList then recorded .dn none
    else if "Normalized".toList.isPrefixOf unit.value then
      recorded .normalized (some "Camera Resolution".toList)
    else refused column .missingUnits

def classify (header : Text) (position : Nat) (preamble : Preamble) : ImportColumn :=
  let column : ImportColumn := ⟨header, position, .unavailable, none, [], none, []⟩
  if header ∈ ["Index".toList, "File".toList] then { column with cls := .identity }
  else if header ∈ ["Approved".toList, "Locked".toList] then
    refused { column with cls := .excluded } .decisionNotImported
  else if header ∈ ["FWHM".toList, "FWHM Mean Deviation".toList] then scaleUnits R column preamble
  else if header ∈ ["Median".toList, "Median Mean Deviation".toList, "Noise".toList] then
    dataUnits column preamble
  else if header ∈ ["Eccentricity".toList, "Eccentricity Mean Deviation".toList] then
    match (preamble.entry "Circular PSF".toList).filter (·.value = "true".toList) with
    | some circular => refused { column with unitsBasis := [circular] } .circularPsf
    | none => mapped column .dimensionless
  else if header ∈ ["Stars".toList, "PSF Count".toList] then mapped column .count
  else if header ∈ ["Altitude".toList, "Azimuth".toList] then refused column .notSupported
  else if header ∈ noDeclaredUnits then refused column .noDeclaredUnits
  else refused column .unknownColumn

def layoutOf (headers : List Text) : Option ExportLayout :=
  ([(.columns30, columns30), (.columns28, columns28), (.columns23, columns23)] :
    List (ExportLayout × List Text)).find? (fun (_, names) => names.all (· ∈ headers)) |>.map (·.1)

end Columns

/-! ## Rows -/

/-- Where a row's fields are: every field but File is free of commas, so File is what lies between
the fields before and after it. -/
structure RowShape where
  fields : Nat
  indexAt : Nat
  fileAt : Nat
  mapped : List Nat

namespace RowShape

variable (R : Readers) (shape : RowShape)

def split (text : Text) : Option (List Text) :=
  let after := shape.fields - shape.fileAt - 1
  let leading := splitN ',' (shape.fileAt + 1) text
  let fields := leading.take shape.fileAt
  match (leading.drop shape.fileAt).head? with
  | none => none
  | some rest =>
    if fields.length ≠ shape.fileAt then none
    else
      let trailing := rsplitN ',' (after + 1) rest
      if trailing.length ≠ after + 1 then none else some (fields ++ trailing.reverse)

def cell (fields : List Text) (position : Nat) : ImportCell R.F64 :=
  let raw := trim (fields.getD position [])
  if raw.isEmpty then ⟨position, raw, none, some .emptyValue⟩
  else match (R.parseF64 raw).filter R.isFinite with
    | some value => ⟨position, raw, some value, none⟩
    | none => ⟨position, raw, none, some .unparsedValue⟩

def unparsed (line : Nat) (reason : Text) : ExportRow R.F64 :=
  ⟨line, none, [], [], some (.text reason)⟩

def row (line : Nat) (fields : List Text) : ExportRow R.F64 :=
  match parseU64 (trim (fields.getD shape.indexAt [])) with
  | none =>
    unparsed R line ("Index ".toList ++ R.debug (fields.getD shape.indexAt []) ++
      " is not a whole number".toList)
  | some index =>
    ⟨line, some index, unquote (fields.getD shape.fileAt []), shape.mapped.map (cell R fields),
      none⟩

def parse (line : Nat) (text : Text) : ExportRow R.F64 :=
  match shape.split text with
  | none =>
    unparsed R line ("the row does not have the header's ".toList ++ decimal shape.fields ++
      " fields".toList)
  | some fields => shape.row R line fields

/-- The rows of the lines behind the header, each with its number; blank lines are none. -/
def rows (lines : List Text) (headerAt : Nat) : List (ExportRow R.F64) :=
  (((lines.zipIdx 1).drop (headerAt + 1)).filter fun (line, _) => !(trim line).isEmpty).map
    fun (text, line) => shape.parse R line text

end RowShape

/-! ## The export -/

def lines (text : Text) : List Text :=
  (text.splitOn '\n').map fun line => if line.getLast? = some '\r' then line.dropLast else line

def isHeader (line : Text) : Bool :=
  (line.splitOn ',').any fun field => trim field = "Index".toList || trim field = "File".toList

section Parse

variable (R : Readers)

def headerFields (line : Text) : Except UnsupportedFormat (List Text) :=
  match R.record line with
  | .error error => .error ⟨"table header: ".toList ++ error⟩
  | .ok record => .ok ((record.getD []).map trim)

def unsupported (message : String) : UnsupportedFormat := ⟨message.toList⟩

/-- The table whose header is on line `headerAt`, counted from 0. -/
def parseTable (lines : List Text) (headerAt : Nat) :
    Except UnsupportedFormat (SubframeExport R.F64) := do
  let headers ← headerFields R (lines.getD headerAt [])
  match headers.findIdx? (· = "Index".toList), headers.findIdx? (· = "File".toList) with
  | some indexAt, some fileAt =>
    match layoutOf headers with
    | none =>
      .error (unsupported
        "the table header matches no 30-, 28- or 23-column SubframeSelector layout")
    | some layout =>
      let (moduleVersion, preamble) := readPreamble (lines.take headerAt)
      let columns := headers.zipIdx.map fun (header, position) =>
        classify R header position preamble
      let mapped := (columns.filter (·.cls = .mapped)).map (·.position)
      let shape : RowShape := ⟨headers.length, indexAt, fileAt, mapped⟩
      .ok ⟨moduleVersion, Preamble.value preamble "PSF Type".toList, preamble, layout, columns,
        shape.rows R lines headerAt⟩
  | _, _ => .error (unsupported "the table needs both an Index and a File column")

/-- Parse a `SubframeSelector` export. -/
def parse (bytes : Text) : Except UnsupportedFormat (SubframeExport R.F64) :=
  if maxExportBytes < bytes.length then
    .error (unsupported "a SubframeSelector export is at most 16 MiB")
  else match fromUtf8 bytes with
    | none => .error (unsupported "a SubframeSelector export is UTF-8 text")
    | some text =>
      match (lines text).findIdx? isHeader with
      | none => .error (unsupported "the export has no table header with Index and File")
      | some headerAt => parseTable R (lines text) headerAt

end Parse

end PlateVault.Subframes
