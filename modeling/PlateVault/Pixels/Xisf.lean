import PlateVault.Grouping.Metadata
import PlateVault.Pixels.Stored
import PlateVault.Roots.Host

/-!
# XISF images

A monolithic XISF file is read to its header, whose `<Image>` element says what the attachment holds:
the geometry, the sample format, the codec with its subblocks and its shuffling, the pixel storage
and the byte order. The attachment is inflated, unshuffled, brought to planar order and cut into
planes. What parses XML and keywords and what inflates a block come from outside the repository.
-/

namespace PlateVault.Pixels

open Buffers (add mul sub quot item slice put copyInto)
open Halting (lift)

def malformedError (what : String) : PixelError := .malformed what.toList

def unsupportedError (what : String) : PixelError := .unsupported what.toList

inductive Codec
  | zlib
  | lz4
  | lz4Hc
  deriving DecidableEq, Repr

structure Compression where
  codec : Codec
  uncompressedSize : Nat
  shuffleItemSize : Option Nat
  deriving DecidableEq, Repr

inductive PixelStorage
  | planar
  | normal
  deriving DecidableEq, Repr

/-- A `<ColorFilterArray>` child. -/
structure CfaElement where
  pattern : Option Text

/-- The single `<Image>` element's attributes and its CFA child. -/
structure ImageElement where
  attributes : Text → Option Text
  cfa : Option CfaElement

structure Outside extends Floats where
  /-- The `SATURATE` level of a header. -/
  saturate : Bytes → Except Text (Option F64)
  utf8 : Bytes → Except Text Text
  imageElement : Text → Except PixelError ImageElement
  parseF64 : Text → Option F64
  /-- What a block inflates to. -/
  zlib : Bytes → Except Text Bytes
  lz4 : Bytes → Except Text Bytes
  /-- The error of an lz4 block of so many bytes where there is room for so many. -/
  tooSmall : Nat → Nat → Text
  debug : Text → String

/-! ## Attributes -/

section Attributes

variable (O : Outside)

def parseU64 (text : Text) (what : String) : Except PixelError Nat :=
  match Roots.parseU64 (trim text) with
  | some n => .ok n
  | none => .error (malformedError ("XISF " ++ what ++ " " ++ O.debug text))

def sampleFormat (name : Text) : Except PixelError SampleFormat :=
  if name = "UInt8".toList then .ok .u8
  else if name = "UInt16".toList then .ok .u16
  else if name = "UInt32".toList then .ok .u32
  else if name = "Float32".toList then .ok .f32
  else if name = "Float64".toList then .ok .f64
  else if name = "Complex32".toList ∨ name = "Complex64".toList then
    .error (unsupportedError ("XISF complex samples (" ++ String.ofList name ++ ")"))
  else .error (unsupportedError ("XISF sample format " ++ String.ofList name))

/-- The parts of a text between `:`. -/
def parts (text : Text) : List Text := text.splitOn ':'

/-- `attachment:position:size`. -/
def attachment (location : Text) : Except PixelError (Nat × Nat) := do
  let first := trim ((parts location).getD 0 [])
  if first = "attachment".toList then
    let position ← parseU64 O ((parts location).getD 1 []) "attachment position"
    let size ← parseU64 O ((parts location).getD 2 []) "attachment size"
    pure (position, size)
  else if first = "inline".toList then .error (unsupportedError "XISF inline data block")
  else if first = "embedded".toList then .error (unsupportedError "XISF embedded data block")
  else if "url(".toList <+: first ∨ "path(".toList <+: first then
    .error (unsupportedError "XISF external data block")
  else .error (malformedError ("XISF location " ++ O.debug location))

def codecOf (base : Text) : Except PixelError Codec :=
  if base = "zlib".toList then .ok .zlib
  else if base = "lz4".toList then .ok .lz4
  else if base = "lz4hc".toList then .ok .lz4Hc
  else if base = "zstd".toList then .error (unsupportedError "XISF zstd compression")
  else .error (unsupportedError ("XISF compression codec " ++ String.ofList base))

/-- `codec[+sh]:uncompressed-size[:item-size]`. -/
def compression (recorded : Text) : Except PixelError Compression := do
  let codecName := trim ((parts recorded).getD 0 [])
  let shuffled := "+sh".toList.isSuffixOf codecName
  let base := if shuffled then codecName.dropLast.dropLast.dropLast else codecName
  let codec ← codecOf base
  let uncompressedSize ← parseU64 O ((parts recorded).getD 1 []) "uncompressed size"
  if shuffled then
    let size ← parseU64 O ((parts recorded).getD 2 []) "shuffle item size"
    if size < 2 ^ 32 ∧ 0 < size then pure ⟨codec, uncompressedSize, some size⟩
    else .error (malformedError "XISF shuffle item size")
  else pure ⟨codec, uncompressedSize, none⟩

/-- What stands before and after the first `c`. -/
def splitOnce (c : Char) (text : Text) : Option (Text × Text) :=
  if c ∈ text then some (text.takeWhile (· ≠ c), (text.dropWhile (· ≠ c)).tail) else none

/-- `compressed,uncompressed:compressed,uncompressed...`. -/
def subblocks (recorded : Text) : Except PixelError (List (Nat × Nat)) :=
  (parts recorded).mapM fun pair =>
    match splitOnce ',' pair with
    | none => .error (malformedError ("XISF subblocks " ++ O.debug recorded))
    | some (compressed, uncompressed) => do
      let compressed ← parseU64 O compressed "subblock size"
      let uncompressed ← parseU64 O uncompressed "subblock size"
      pure (compressed, uncompressed)

def bounds (recorded : Text) : Except PixelError (O.F64 × O.F64) :=
  let invalid : PixelError := malformedError ("XISF bounds " ++ O.debug recorded)
  let parse := fun text : Text =>
    match (O.parseF64 (trim text)).filter O.isFinite with
    | some value => .ok value
    | none => Except.error invalid
  match splitOnce ':' recorded with
  | none => .error invalid
  | some (low, high) => do
    let low ← parse low
    let high ← parse high
    pure (low, high)

end Attributes

/-! ## Sizes -/

def checkedAdd (a b : Nat) : Option Nat := if a + b < Buffers.wordLimit then some (a + b) else none

def checkedMul (a b : Nat) : Option Nat := if a * b < Buffers.wordLimit then some (a * b) else none

/-- Bytes for `width * height * channels` samples, refusing overflow. -/
def dataLen (width height channels : Nat) (format : SampleFormat) (what : String) :
    Except PixelError Nat :=
  match (checkedMul width height).bind fun samples => (checkedMul samples channels).bind fun samples =>
      checkedMul samples format.bytes with
  | some bytes => .ok bytes
  | none => .error (malformedError (what ++ " geometry " ++ toString width ++ "x" ++ toString height ++
      "x" ++ toString channels ++ " overflows"))

/-- Refuses subblocks that reach past the attachment or do not inflate to exactly `expected` bytes. -/
def checkSubblocks (parts : List (Nat × Nat)) (attachment expected : Nat) : Except PixelError Unit :=
  let total := fun size : Nat × Nat → Nat =>
    parts.foldlM (fun sum part => checkedAdd sum (size part)) 0
  if (total Prod.fst).all (attachment < ·) then
    .error (malformedError "XISF subblocks reach past the attachment")
  else if total Prod.snd ≠ some expected then
    .error (malformedError ("XISF subblocks do not inflate to the " ++ toString expected ++
      " bytes the geometry needs"))
  else .ok ()

structure Layout (F64 : Type) where
  geometry : List Nat
  width : Nat
  height : Nat
  channels : Nat
  format : SampleFormat
  position : Nat
  size : Nat
  compression : Option Compression
  storage : PixelStorage
  byteOrder : ByteOrder
  colorSpace : Text
  bounds : Option (F64 × F64)
  subblocks : Option (List (Nat × Nat))
  expected : Nat

section Layout

variable (O : Outside)

def toU32 (value : Nat) (what : String) : Except PixelError Nat :=
  if value < 2 ^ 32 ∧ 0 < value then .ok value
  else .error (malformedError ("XISF geometry " ++ what ++ " = " ++ toString value))

def storageOf (name : Text) : Except PixelError PixelStorage :=
  if name = "Planar".toList then .ok .planar
  else if name = "Normal".toList then .ok .normal
  else .error (unsupportedError ("XISF pixel storage " ++ String.ofList name))

def byteOrderOf (name : Text) : Except PixelError ByteOrder :=
  if name = "little".toList then .ok .little
  else if name = "big".toList then .ok .big
  else .error (malformedError ("XISF byte order " ++ O.debug name))

def required (recorded : Option Text) (name : String) : Except PixelError Text :=
  match recorded with
  | some value => .ok value
  | none => .error (malformedError ("XISF Image without " ++ name))

def optional {α : Type} (recorded : Option Text) (parse : Text → Except PixelError α) :
    Except PixelError (Option α) :=
  match recorded with
  | none => .ok none
  | some value => do pure (some (← parse value))

def checkSizes (compression : Option Compression) (subblocks : Option (List (Nat × Nat)))
    (size expected : Nat) : Except PixelError Unit :=
  match compression, subblocks with
  | none, _ =>
    if size ≠ expected then
      .error (malformedError ("XISF attachment holds " ++ toString size ++ " bytes, geometry needs " ++
        toString expected))
    else .ok ()
  | some compression, subblocks =>
    if compression.uncompressedSize ≠ expected then
      .error (malformedError ("XISF compression records " ++ toString compression.uncompressedSize ++
        " uncompressed bytes, geometry needs " ++ toString expected))
    else
      match subblocks with
      | some parts => checkSubblocks parts size expected
      | none => .ok ()

/-- The part of decoding that reads the `<Image>` element. -/
def layoutOf (image : ImageElement) : Except PixelError (Layout O.F64) := do
  let recorded := fun name : String => image.attributes name.toList
  let geometry ← (parts (← required (recorded "geometry") "geometry")).mapM
    fun part => parseU64 O part "geometry"
  match geometry with
  | [w, h, c] => do
    let width ← toU32 w "width"
    let height ← toU32 h "height"
    let channels ← toU32 c "channels"
    let format ← sampleFormat (← required (recorded "sampleFormat") "sampleFormat")
    let (position, size) ← attachment O (← required (recorded "location") "location")
    let compression ← optional (recorded "compression") (Pixels.compression O)
    let storage ← storageOf ((recorded "pixelStorage").getD "Planar".toList)
    let byteOrder ← byteOrderOf O ((recorded "byteOrder").getD "little".toList)
    let bounds ← optional (recorded "bounds") (Pixels.bounds O)
    let subblocks ← optional (recorded "subblocks") (Pixels.subblocks O)
    let expected ← dataLen width height channels format "XISF"
    checkSizes compression subblocks size expected
    pure { geometry, width, height, channels, format, position, size, compression, storage,
           byteOrder, colorSpace := (recorded "colorSpace").getD "Gray".toList, bounds, subblocks,
           expected }
  | _ => .error (unsupportedError ("XISF geometry with " ++ toString (geometry.length - 1) ++
      " dimensions"))

end Layout

/-! ## Blocks -/

section Blocks

variable (O : Outside)

/-- Inflates `data` into a part of `len` bytes, refusing a block that inflates to any other length. -/
def inflateInto (codec : Codec) (data : Bytes) (len : Nat) : Except Stopped Bytes :=
  match codec with
  | .zlib =>
    match O.zlib data with
    | .error error => .error (malformed ("XISF zlib block: " ++ String.ofList error))
    | .ok plain =>
      if len < plain.length then
        .error (malformed ("XISF block inflates past the " ++ toString len ++ " bytes recorded"))
      else if plain.length ≠ len then
        .error (malformed ("XISF block inflated to " ++ toString plain.length ++ " bytes, " ++
          toString len ++ " recorded"))
      else .ok plain
  | .lz4 | .lz4Hc =>
    match O.lz4 data with
    | .error error => .error (malformed ("XISF lz4 block: " ++ String.ofList error))
    | .ok plain =>
      if len < plain.length then
        .error (malformed ("XISF lz4 block: " ++ String.ofList (O.tooSmall plain.length len)))
      else if plain.length ≠ len then
        .error (malformed ("XISF block inflated to " ++ toString plain.length ++ " bytes, " ++
          toString len ++ " recorded"))
      else .ok plain

def unshuffle (bytes : Bytes) (itemSize : Nat) : Except Stopped Bytes := do
  let items ← quot bytes.length itemSize
  let out := List.replicate bytes.length 0
  let out ← (List.range itemSize).foldlM (fun out byte =>
    (List.range items).foldlM (fun out i => do
      let source ← add (← mul byte items) i
      let value ← item bytes source
      let target ← add (← mul i itemSize) byte
      put out target value) out) out
  let whole ← mul items itemSize
  let tail ← slice bytes whole bytes.length
  copyInto out whole bytes.length tail

def deinterleave (bytes : Bytes) (channels itemSize : Nat) : Except Stopped Bytes := do
  let pixelSize ← mul channels itemSize
  let pixels ← quot bytes.length pixelSize
  let out := List.replicate bytes.length 0
  (List.range pixels).foldlM (fun out pixel =>
    (List.range channels).foldlM (fun out channel => do
      let source ← mul (← add (← mul pixel channels) channel) itemSize
      let target ← mul (← add (← mul channel pixels) pixel) itemSize
      let part ← slice bytes source (← add source itemSize)
      copyInto out target (← add target itemSize) part) out) out

variable (world : Surroundings)

def inflateParts (codec : Codec) (block : Bytes) :
    List (Nat × Nat) → Nat → Nat → Bytes → Decoding Bytes
  | [], _, _, inflated => pure inflated
  | (compressed, plain) :: rest, read, written, inflated => do
    check world
    let readTo ← lift (add read compressed)
    let data ← lift (slice block read readTo)
    let writtenTo ← lift (add written plain)
    let part ← lift (slice inflated written writtenTo)
    let filled ← lift (inflateInto O codec data part.length)
    let inflated ← lift (copyInto inflated written writtenTo filled)
    inflateParts codec block rest readTo writtenTo inflated

/-- A zeroed buffer of `len` bytes. -/
def zeroed (len : Nat) : Decoding Bytes :=
  if isizeMax < len || !world.reserve len then throw (malformed "XISF block does not fit in memory")
  else pure (List.replicate len 0)

def rawOf (layout : Layout O.F64) (block : Bytes) : Decoding Bytes :=
  match layout.compression with
  | none => pure block
  | some compression => do
    let inflated ← zeroed world layout.expected
    let inflated ← match layout.subblocks with
      | none => lift (inflateInto O compression.codec block inflated.length)
      | some parts => inflateParts O world compression.codec block parts 0 0 inflated
    match compression.shuffleItemSize with
    | some itemSize => lift (unshuffle inflated itemSize)
    | none => pure inflated

def planarOf (layout : Layout O.F64) (raw : Bytes) : Except Stopped Bytes :=
  match layout.storage with
  | .normal =>
    if 1 < layout.channels then deinterleave raw layout.channels layout.format.bytes else .ok raw
  | .planar => .ok raw

end Blocks

/-! ## The decoder -/

structure Footprint where
  decodedBytes : Nat
  decodeBytes : Nat
  scratchBytes : Nat
  deriving DecidableEq, Repr

/-- Bytes of the `f64` copy of one plane's samples that measuring makes; an image of several planes
is refused before any copy. -/
def scratchBytes (width height planes : Nat) : Except Stopped Nat :=
  if planes = 1 then do mul (← mul width height) 8 else .ok 0

def saturatingAdd (a b : Nat) : Nat := min (a + b) (Buffers.wordLimit - 1)

def Footprint.new (width height channels decoded decodeBytes : Nat) : Except Stopped Footprint := do
  let scratch ← Pixels.scratchBytes width height channels
  pure ⟨decoded, decodeBytes, scratch⟩

structure StructureEvidence (F64 : Type) where
  sampleFormat : SampleFormat
  geometry : List Nat
  byteOrder : ByteOrder
  storage : Option PixelStorage
  compression : Option Compression
  colorSpace : Option Text
  bounds : Option (F64 × F64)

structure DecodedImage (F64 : Type) where
  planes : List (Plane F64)
  evidence : StructureEvidence F64

/-- `XISF0100`. -/
def signature : Bytes := [0x58, 0x49, 0x53, 0x46, 0x30, 0x31, 0x30, 0x30]

def maxHeader : Nat := 8 * 2 ^ 20

section Decoder

variable (O : Outside)

def identity : Scaling O.F64 := ⟨O.literal 0, O.literal 1⟩

/-- The stored type's maximum after scaling for integer data. -/
def typeMaximum (format : SampleFormat) (scaling : Scaling O.F64) : Saturation O.F64 :=
  match format.integerMaximum with
  | some maximum =>
    if O.gt scaling.scale (O.literal 0) then
      ⟨some (O.add scaling.zero (O.mul scaling.scale (O.literal maximum))), .typeMaximum⟩
    else ⟨none, .unknown⟩
  | none => ⟨none, .unknown⟩

def saturationOf (saturate : Option O.F64) (bounds : Option (O.F64 × O.F64))
    (format : SampleFormat) : Saturation O.F64 :=
  match saturate.filter O.isFinite with
  | some level => ⟨some level, .saturateKeyword⟩
  | none =>
    match bounds with
    | some (_, high) =>
      if format.isFloat then ⟨some high, .xisfBounds⟩ else typeMaximum O format (identity O)
    | none => if format.isFloat then ⟨none, .unknown⟩ else typeMaximum O format (identity O)

def kindOf (cfa : Option CfaElement) (channels index : Nat) (colorSpace : Text) : PlaneKind :=
  if channels = 1 then
    match cfa with
    | some cfa => .cfaMosaic ⟨cfa.pattern, none, none, none, .colorFilterArray⟩
    | none => .mono
  else .channel index channels (some colorSpace)

def planesOf (image : ImageElement) (layout : Layout O.F64) (saturation : Saturation O.F64)
    (planar : Bytes) : Except Stopped (List (Plane O.F64)) := do
  let planeBytes ← quot layout.expected layout.channels
  (List.range layout.channels).mapM fun index => do
    let start ← mul index planeBytes
    let part ← slice planar start (← add start planeBytes)
    pure {
      width := layout.width
      height := layout.height
      kind := kindOf image.cfa layout.channels index layout.colorSpace
      samples := samplesFromBytes part layout.format layout.byteOrder
      scaling := identity O
      blank := none
      saturation }

/-- What a file's start says, before its samples are read. -/
structure Header where
  xmlLen : Nat
  saturate : Option O.F64
  image : ImageElement
  layout : Layout O.F64

def headerOf (preamble xmlBytes : Bytes) (xmlLen : Nat) : Except PixelError (Header O) :=
  match O.saturate (preamble ++ xmlBytes) with
  | .error error => .error (malformedError ("XISF header: " ++ String.ofList error))
  | .ok saturate =>
    match O.utf8 xmlBytes with
    | .error error => .error (malformedError ("XISF header UTF-8: " ++ String.ofList error))
    | .ok xml => do
      let image ← O.imageElement xml
      let layout ← layoutOf O image
      pure ⟨xmlLen, saturate, image, layout⟩

/-- An error of the code's own, as a computation stops with it. -/
def returned {α : Type} (x : Except PixelError α) : Except Stopped α := x.mapError .error

variable (world : Surroundings)

def readHeader : Decoding (Header O) := do
  let preamble ← readExact world 16 "XISF preamble"
  let start ← lift (slice preamble 0 8)
  if start ≠ signature then throw (malformed "XISF signature")
  let length ← lift (slice preamble 8 12)
  let xmlLen := ofLittleEndian length
  if maxHeader < xmlLen then
    throw (malformed ("XISF header of " ++ toString xmlLen ++ " bytes exceeds 8 MiB"))
  let xmlBytes ← readExact world xmlLen "XISF header"
  lift (returned (headerOf O preamble xmlBytes xmlLen))

variable {G : Type} (admission : Footprint → Except PixelError G)

/-- The memory the image holds, put to the caller before any sample is read. -/
def admitted (header : Header O) : Except Stopped G := do
  let layout := header.layout
  let twice ← add 16 (← mul 2 header.xmlLen)
  let decodeBytes :=
    saturatingAdd (saturatingAdd twice layout.expected) (max layout.size layout.expected)
  let footprint ←
    Footprint.new layout.width layout.height layout.channels layout.expected decodeBytes
  returned (admission footprint)

def readImage (header : Header O) : Decoding (DecodedImage O.F64) := do
  let layout := header.layout
  let consumed ← lift (add 16 header.xmlLen)
  if layout.position < consumed then
    throw (malformed "XISF attachment overlaps the header")
  let gap ← lift (sub layout.position consumed)
  skip world "XISF file before the attachment" gap
  let block ← readExact world layout.size "XISF attachment"
  check world
  let raw ← rawOf O world layout block
  check world
  let planar ← lift (planarOf O layout raw)
  let saturation := saturationOf O header.saturate layout.bounds layout.format
  let planes ← lift (planesOf O header.image layout saturation planar)
  pure {
    planes
    evidence := {
      sampleFormat := layout.format
      geometry := layout.geometry
      byteOrder := layout.byteOrder
      storage := some layout.storage
      compression := layout.compression
      colorSpace := some layout.colorSpace
      bounds := layout.bounds } }

def decode : Decoding (DecodedImage O.F64 × G) := do
  let header ← readHeader O world
  let grant ← lift (admitted O admission header)
  let image ← readImage O world header
  pure (image, grant)

end Decoder

end PlateVault.Pixels
