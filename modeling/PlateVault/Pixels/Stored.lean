import PlateVault.Base.Floats
import PlateVault.Lib.Buffers

/-!
# Stored samples

The stored sample types, samples as they are converted from bytes, and reading a file in chunks that
may be canceled, break off or end early. A float is its bits.
-/

namespace PlateVault.Pixels

abbrev Bytes := List UInt8

inductive PixelError
  | unsupported (feature : Text)
  | malformed (what : Text)
  | io (error : Text)
  | canceled
  deriving DecidableEq, Repr

abbrev Stopped := Stop PixelError

def malformed (what : String) : Stopped := .error (.malformed what.toList)

def unsupported (what : String) : Stopped := .error (.unsupported what.toList)

/-! ## Samples -/

inductive SampleFormat
  | u8
  | i16
  | u16
  | i32
  | u32
  | i64
  | f32
  | f64
  deriving DecidableEq, Repr

namespace SampleFormat

def bytes : SampleFormat → Nat
  | u8 => 1
  | i16 | u16 => 2
  | i32 | u32 | f32 => 4
  | i64 | f64 => 8

def isFloat : SampleFormat → Bool
  | f32 | f64 => true
  | _ => false

/-- The largest stored value of an integer type, `none` for floats. -/
def integerMaximum : SampleFormat → Option Int
  | u8 => some (2 ^ 8 - 1)
  | i16 => some (2 ^ 15 - 1)
  | u16 => some (2 ^ 16 - 1)
  | i32 => some (2 ^ 31 - 1)
  | u32 => some (2 ^ 32 - 1)
  | i64 => some (2 ^ 63 - 1)
  | f32 | f64 => none

theorem bytes_pos (format : SampleFormat) : 0 < format.bytes := by cases format <;> decide

theorem bytes_le (format : SampleFormat) : format.bytes ≤ 8 := by cases format <;> decide

end SampleFormat

inductive ByteOrder
  | little
  | big
  deriving DecidableEq, Repr

inductive StoredSamples
  | u8 (values : List UInt8)
  | i16 (values : List Int16)
  | u16 (values : List UInt16)
  | i32 (values : List Int32)
  | u32 (values : List UInt32)
  | i64 (values : List Int64)
  | f32 (bits : List UInt32)
  | f64 (bits : List UInt64)
  deriving DecidableEq, Repr

namespace StoredSamples

def len : StoredSamples → Nat
  | u8 values => values.length
  | i16 values => values.length
  | u16 values => values.length
  | i32 values => values.length
  | u32 values => values.length
  | i64 values => values.length
  | f32 bits => bits.length
  | f64 bits => bits.length

end StoredSamples

def ofLittleEndian (bytes : Bytes) : Nat := bytes.foldr (fun byte rest => byte.toNat + 256 * rest) 0

def numberOf (order : ByteOrder) (chunk : Bytes) : Nat :=
  match order with
  | .big => ofLittleEndian chunk.reverse
  | .little => ofLittleEndian chunk

def samplesOf (format : SampleFormat) (order : ByteOrder) (chunks : List Bytes) : StoredSamples :=
  let numbers := chunks.map (numberOf order)
  match format with
  | .u8 => .u8 (numbers.map UInt8.ofNat)
  | .i16 => .i16 (numbers.map fun n => .ofBitVec (.ofNat 16 n))
  | .u16 => .u16 (numbers.map UInt16.ofNat)
  | .i32 => .i32 (numbers.map fun n => .ofBitVec (.ofNat 32 n))
  | .u32 => .u32 (numbers.map UInt32.ofNat)
  | .i64 => .i64 (numbers.map fun n => .ofBitVec (.ofNat 64 n))
  | .f32 => .f32 (numbers.map UInt32.ofNat)
  | .f64 => .f64 (numbers.map UInt64.ofNat)

/-- `as_chunks`: the whole chunks of `size` bytes, without a rest. -/
def asChunks (size : Nat) (bytes : Bytes) : List Bytes :=
  (List.range (bytes.length / size)).map fun i => (bytes.drop (i * size)).take size

/-- Converts stored bytes in `order` to samples of `format`. -/
def samplesFromBytes (bytes : Bytes) (format : SampleFormat) (order : ByteOrder) : StoredSamples :=
  match format with
  | .u8 => .u8 bytes
  | _ => samplesOf format order (asChunks format.bytes bytes)

@[simp] theorem len_samplesOf (format : SampleFormat) (order : ByteOrder) (chunks : List Bytes) :
    (samplesOf format order chunks).len = chunks.length := by
  cases format <;> simp [samplesOf, StoredSamples.len]

theorem asChunks_one (bytes : Bytes) : asChunks 1 bytes = bytes.map fun byte => [byte] := by
  apply List.ext_getElem
  · simp [asChunks]
  · intro i hi hi'
    rw [List.length_map] at hi'
    simp only [asChunks, List.getElem_map, List.getElem_range, Nat.mul_one]
    rw [List.take_one_drop_eq_of_lt_length hi']
    rfl

theorem samplesFromBytes_eq (bytes : Bytes) (format : SampleFormat) (order : ByteOrder) :
    samplesFromBytes bytes format order = samplesOf format order (asChunks format.bytes bytes) := by
  cases format with
  | u8 =>
    have hbyte : ∀ byte : UInt8, UInt8.ofNat (numberOf order [byte]) = byte := by
      intro byte
      cases order <;> simp [numberOf, ofLittleEndian]
    simp [samplesFromBytes, samplesOf, SampleFormat.bytes, asChunks_one, Function.comp_def, hbyte]
  | _ => rfl

/-! ## Planes -/

section Planes

variable (F64 : Type)

inductive SaturationSource
  | saturateKeyword
  | xisfBounds
  | typeMaximum
  | unknown
  deriving DecidableEq, Repr

structure Saturation where
  level : Option F64
  source : SaturationSource

structure Scaling where
  zero : F64
  scale : F64

inductive CfaSource
  | bayerpatKeyword
  | colorFilterArray
  deriving DecidableEq, Repr

structure CfaEvidence where
  pattern : Option Text
  xOffset : Option Int
  yOffset : Option Int
  rowOrder : Option Text
  source : CfaSource

inductive PlaneKind
  | mono
  | cfaMosaic (evidence : CfaEvidence)
  | channel (index count : Nat) (colorSpace : Option Text)

structure Plane where
  width : Nat
  height : Nat
  kind : PlaneKind
  samples : StoredSamples
  scaling : Scaling F64
  blank : Option Int
  saturation : Saturation F64

end Planes

/-! ## Reading -/

/-- The file that is left to read, and how often a cancelation was looked for. -/
structure Reader where
  rest : Bytes
  polls : Nat

/-- What reading meets: whether a look finds a cancelation, the error of the read where so many bytes
are left, and whether memory for so many bytes is there. -/
structure Surroundings where
  canceled : Nat → Bool
  broken : Nat → Option Text
  reserve : Nat → Bool

abbrev Decoding := Halting Reader Stopped

def chunk : Nat := 4 * 2 ^ 20

def isizeMax : Nat := 2 ^ 63 - 1

section Reading

variable (world : Surroundings)

def check : Decoding Unit := do
  let reader ← get
  set { reader with polls := reader.polls + 1 }
  if world.canceled reader.polls then throw (.error .canceled)

/-- The next `count` bytes, by as many reads as it takes. `truncated` is the error of a file that ends
after so many of them. -/
def readAll (count : Nat) (truncated : Nat → Stopped) : Decoding Bytes := do
  let reader ← get
  match world.broken reader.rest.length with
  | some error => throw (.error (.io error))
  | none =>
    if reader.rest.length < count then throw (truncated reader.rest.length)
    set { reader with rest := reader.rest.drop count }
    pure (reader.rest.take count)

/-- The loop of `readExact` from `start` on. -/
def readChunks (len : Nat) (what : String) (start : Nat) (buffer : Bytes) : Decoding Bytes :=
  if _h : start < len then do
    check world
    let past ← Halting.lift (Buffers.add start chunk)
    let chunk ← readAll world (min past len - start) fun filled =>
      malformed (what ++ " truncated after " ++ toString (start + filled) ++ " of " ++
        toString len ++ " bytes")
    readChunks len what (min (start + Pixels.chunk) len) (buffer ++ chunk)
  else pure buffer
termination_by len - start
decreasing_by simp only [Pixels.chunk]; omega

/-- Reads exactly `len` bytes. -/
def readExact (len : Nat) (what : String) : Decoding Bytes := do
  if isizeMax < len || !world.reserve len then
    throw (malformed (what ++ " of " ++ toString len ++ " bytes does not fit in memory"))
  readChunks world len what 0 []

/-- Reads and discards `remaining` bytes. -/
def skip (what : String) (remaining : Nat) : Decoding Unit :=
  if _h : 0 < remaining then do
    check world
    let step := min remaining chunk
    let _ ← readAll world step fun _ => malformed (what ++ " truncated")
    skip what (remaining - min remaining chunk)
  else pure ()
termination_by remaining
decreasing_by simp only [chunk]; omega

end Reading

end PlateVault.Pixels
