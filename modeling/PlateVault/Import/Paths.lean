import PlateVault.Base.Paths
import PlateVault.Naming.Sanitize

/-!
# Names as a volume tells them apart

A path's payload, the text it encodes, and its identity on a volume: folded only where the volume's
recorded capabilities are both known.
-/

namespace PlateVault

/-! ## Encoded texts -/

def utf8 (text : Text) : Text :=
  (text.flatMap String.utf8EncodeChar).map fun byte => Char.ofNat byte.toNat

/-- `str::from_utf8`. -/
def fromUtf8 (bytes : Text) : Option Text :=
  (bytes.map fun c => UInt8.ofNat c.toNat).toByteArray.utf8Decode?.map Array.toList

theorem fromUtf8_utf8 (text : Text) : fromUtf8 (utf8 text) = some text := by
  have hbyte : ∀ byte : UInt8, UInt8.ofNat (Char.ofNat byte.toNat).toNat = byte := by
    intro byte
    have hvalid : byte.toNat.isValidChar := .inl (by have := byte.toNat_lt; omega)
    rw [Char.ofNat, dif_pos hvalid]
    exact UInt8.ofNat_toNat
  have hbytes : (utf8 text).map (fun c => UInt8.ofNat c.toNat) =
      text.flatMap String.utf8EncodeChar := by
    rw [utf8, List.map_map]
    refine (List.map_congr_left fun byte _ => ?_).trans (List.map_id _)
    exact hbyte byte
  rw [fromUtf8, hbytes]
  show ((text.utf8Encode).utf8Decode?).map Array.toList = some text
  rw [List.utf8Decode?_utf8Encode]
  rfl

/-! ## Payloads -/

def Component.text : Component → Text
  | .curDir => ".".toList
  | .parentDir => "..".toList
  | .normal name => name

namespace PathBuf

def ofName (name : Text) : PathBuf where
  absolute := false
  parts := [if name = ".".toList then .curDir else if name = "..".toList then .parentDir
    else .normal name]

def payload (path : PathBuf) : Text :=
  (if path.absolute then ['/'] else []) ++ List.intercalate ['/'] (path.parts.map Component.text)

end PathBuf

/-! ## Identities -/

inductive PathIdentity
  | native (path : NativePath)
  | folded (text : Text)
  deriving DecidableEq, Repr

namespace NativePath

def text : NativePath → Option Text
  | .host path => fromUtf8 path.payload
  | .foreign _ => none

def identityOn (u : Naming.Unicode) (path : NativePath) (volume : VolumeIdentity) : PathIdentity :=
  if volume.case = .unknown || volume.normalization = .unknown then .native path
  else match path.text with
    | none => .native path
    | some text =>
      let text := if volume.normalization = .insensitive then u.nfc text else text
      .folded (if volume.case = .insensitive then u.toLowercase text else text)

/-- Compare paths only using recorded filesystem capabilities. -/
def sameOn (u : Naming.Unicode) (path other : NativePath) (volume : VolumeIdentity) : Bool :=
  path.identityOn u volume = other.identityOn u volume

end NativePath

end PlateVault
