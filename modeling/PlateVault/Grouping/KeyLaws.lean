import PlateVault.Grouping.Key

/-!
# The capture key is injective and its night reads back

`canonical` says what each of the sixteen fields of a key means: a canonical text, or unknown. The
writer's key is these fields joined behind the version, each escaped, so two keys agree exactly when
all sixteen do, and `nightOf` finds the night that was written.
-/

namespace PlateVault

inductive CanonicalField
  | type
  | night
  | camera
  | cameraId
  | telescope
  | focalLengthMm
  | filter
  | exposureS
  | gain
  | offset
  | binningX
  | binningY
  | width
  | height
  | readout
  | setTempC
  deriving DecidableEq, Repr

namespace CanonicalField

def all : List CanonicalField :=
  [type, night, camera, cameraId, telescope, focalLengthMm, filter, exposureS, gain, offset,
    binningX, binningY, width, height, readout, setTempC]

def name : CanonicalField → Text
  | type => "type".toList
  | night => "night".toList
  | camera => "camera".toList
  | cameraId => "camera_id".toList
  | telescope => "telescope".toList
  | focalLengthMm => "focal_length_mm".toList
  | filter => "filter".toList
  | exposureS => "exposure_s".toList
  | gain => "gain".toList
  | offset => "offset".toList
  | binningX => "binning_x".toList
  | binningY => "binning_y".toList
  | width => "width".toList
  | height => "height".toList
  | readout => "readout".toList
  | setTempC => "set_temp_c".toList

theorem mem_all (field : CanonicalField) : field ∈ all := by cases field <;> decide

end CanonicalField

section Canonical

variable {P : Platform}

def canonicalType : ImageTypeEvidence → Option Text
  | .known frame => some frame.asStr
  | .unclassified text => some ("unclassified:".toList ++ text)
  | .blank | .absent => none

/-- The canonical text of a field of the metadata, `none` where it is unknown. -/
def canonical (meta_ : CaptureMetadata P) : CanonicalField → Option Text
  | .type => canonicalType meta_.imageTypeEvidence
  | .night => (night meta_).value.map fun (date, basis) => nightText date basis
  | .camera => meta_.camera.bind (canonicalText P)
  | .cameraId => meta_.cameraId.bind (canonicalText P)
  | .telescope => meta_.telescope.bind (canonicalText P)
  | .focalLengthMm => meta_.focalLengthMm.bind canonicalDecimal
  | .filter => meta_.filter.bind (canonicalText P)
  | .exposureS => (meta_.exposureSeconds.filter fun v => P.le (P.literal 0) v).bind canonicalDecimal
  | .gain => meta_.gain.bind canonicalDecimal
  | .offset => meta_.offset.map decimalInt
  | .binningX => meta_.binningX.map decimal
  | .binningY => meta_.binningY.map decimal
  | .width => meta_.width.map decimal
  | .height => meta_.height.map decimal
  | .readout => meta_.readoutMode.bind (canonicalText P)
  | .setTempC => meta_.setTemperatureC.bind canonicalDecimal

end Canonical

/-! ## What the writer appends -/

def keyEscape : Escape Char where
  mark := '%'
  sep := '|'
  markCode := ['2', '5']
  sepCode := ['7', 'C']
  mark_ne_sep := by decide
  length_eq := rfl
  code_ne := by decide
  mark_notMem_markCode := by decide
  mark_notMem_sepCode := by decide
  sep_notMem_markCode := by decide
  sep_notMem_sepCode := by decide

def fieldText (name : Text) : Option Text → Text
  | some value => name ++ '=' :: keyEscape.encode value
  | none => name ++ ['?']

theorem escaped_eq_code (c : Char) : KeyWriter.escaped c = keyEscape.code c := by
  unfold KeyWriter.escaped
  split
  · rfl
  · rfl
  · next hmark hsep =>
    have hm : ¬ c = keyEscape.mark := hmark
    have hs : ¬ c = keyEscape.sep := hsep
    simp [Escape.code, hm, hs]

namespace KeyWriter

variable {P : Platform}

theorem key_known (writer : KeyWriter) (name value : Text) :
    (writer.known name value).key = writer.key ++ '|' :: fieldText name (some value) := by
  have hcode : value.flatMap escaped = keyEscape.encode value :=
    congrArg value.flatMap (funext escaped_eq_code)
  simp [known, fieldText, hcode]

theorem key_unknown (writer : KeyWriter) (name reason : Text) :
    (writer.unknown name reason).key = writer.key ++ '|' :: fieldText name none := by
  simp [unknown, note, fieldText]

theorem key_unknownFromHeader (writer : KeyWriter) (name : Text) (header : Option Text) :
    (writer.unknownFromHeader P name header).key = writer.key ++ '|' :: fieldText name none :=
  key_unknown ..

theorem key_text (writer : KeyWriter) (name : Text) (value header : Option Text) :
    (writer.text P name value header).key =
      writer.key ++ '|' :: fieldText name (value.bind (canonicalText P)) := by
  cases value with
  | none => exact key_unknownFromHeader ..
  | some value =>
    cases htext : canonicalText P value with
    | none => simpa [text, htext] using key_unknown ..
    | some canonical => simpa [text, htext] using key_known ..

theorem key_decimal (writer : KeyWriter) (name : Text) (value : Option P.F64)
    (header : Option Text) :
    (writer.decimal name value header).key =
      writer.key ++ '|' :: fieldText name (value.bind canonicalDecimal) := by
  unfold decimal
  cases value.bind canonicalDecimal with
  | none => exact key_unknownFromHeader ..
  | some text => exact key_known ..

theorem key_integer (writer : KeyWriter) (name : Text) (value : Option Nat)
    (header : Option Text) :
    (writer.integer P name value header).key =
      writer.key ++ '|' :: fieldText name (value.map PlateVault.decimal) := by
  cases value with
  | none => exact key_unknownFromHeader ..
  | some value => exact key_known ..

theorem key_writeType (meta_ : CaptureMetadata P) (writer : KeyWriter) :
    (writeType meta_ writer).key =
      writer.key ++ '|' :: fieldText "type".toList (canonicalType meta_.imageTypeEvidence) := by
  unfold writeType
  cases meta_.imageTypeEvidence with
  | known frame => exact key_known ..
  | unclassified text => exact key_known ..
  | blank => exact key_unknown ..
  | absent => exact key_unknownFromHeader ..

theorem key_writeNight (night : Night P) (writer : KeyWriter) :
    (writeNight night writer).key = writer.key ++ '|' :: fieldText "night".toList
      (night.value.map fun (date, basis) => nightText date basis) := by
  unfold writeNight
  cases night.value with
  | none => exact key_unknown ..
  | some value => exact key_known ..

theorem key_writeOffset (offset : Option Int) (writer : KeyWriter) :
    (writeOffset P offset writer).key =
      writer.key ++ '|' :: fieldText "offset".toList (offset.map decimalInt) := by
  cases offset with
  | none => exact key_unknownFromHeader ..
  | some offset => exact key_known ..

end KeyWriter

section Key

variable {P : Platform}

/-- The fields of a key, as they stand behind its version. -/
def fieldTexts (meta_ : CaptureMetadata P) : List Text :=
  CanonicalField.all.map fun field => fieldText field.name (canonical meta_ field)

theorem derive_key (meta_ : CaptureMetadata P) :
    (derive meta_).key = joined '|' keyVersion (fieldTexts meta_) := by
  simp only [derive, KeyWriter.key_decimal, KeyWriter.key_text, KeyWriter.key_integer,
    KeyWriter.key_writeOffset, KeyWriter.key_writeNight, KeyWriter.key_writeType]
  simp only [fieldTexts, CanonicalField.all, List.map_cons, List.map_nil, joined_cons, joined_nil]
  rfl

/-! ## Reading back -/

theorem sep_notMem_fieldText (field : CanonicalField) (value : Option Text) :
    '|' ∉ fieldText field.name value := by
  have hname : '|' ∉ field.name := by cases field <;> decide
  cases value with
  | none => simp [fieldText, hname]
  | some value =>
    have hvalue : '|' ∉ keyEscape.encode value := keyEscape.sep_notMem_encode value
    simp [fieldText, hname, hvalue]

theorem splitOn_key (meta_ : CaptureMetadata P) :
    ((derive meta_).key).splitOn '|' = keyVersion :: fieldTexts meta_ := by
  rw [derive_key]
  refine splitOn_joined (by decide) fun text htext => ?_
  obtain ⟨field, -, rfl⟩ := List.mem_map.mp htext
  exact sep_notMem_fieldText field _

theorem fieldText_injective (name : Text) : Function.Injective (fieldText name) := by
  intro left right h
  cases left with
  | none =>
    cases right with
    | none => rfl
    | some right => simp [fieldText] at h
  | some left =>
    cases right with
    | none => simp [fieldText] at h
    | some right =>
      have hcode : keyEscape.encode left = keyEscape.encode right := by simpa [fieldText] using h
      rw [keyEscape.encode_injective hcode]

theorem key_eq_iff (left right : CaptureMetadata P) :
    (derive left).key = (derive right).key ↔
      ∀ field, canonical left field = canonical right field := by
  constructor
  · intro h field
    have hsplit : keyVersion :: fieldTexts left = keyVersion :: fieldTexts right := by
      rw [← splitOn_key, ← splitOn_key, h]
    have hfields := List.map_inj_left.mp (List.cons.inj hsplit).2
    exact fieldText_injective _ (hfields field field.mem_all)
  · intro h
    have hcanonical : canonical left = canonical right := funext h
    rw [derive_key, derive_key, fieldTexts, fieldTexts, hcanonical]

theorem stripPrefix_fieldText_of_ne {field : CanonicalField} (h : field ≠ .night)
    (value : Option Text) : stripPrefix "night=".toList (fieldText field.name value) = none := by
  have hnames : ∀ field : CanonicalField, field ≠ .night →
      ∃ c rest, field.name = c :: rest ∧ c ≠ 'n' := by
    intro field h
    cases field
    case night => exact absurd rfl h
    all_goals exact ⟨_, _, rfl, by decide⟩
  obtain ⟨c, rest, hname, hc⟩ := hnames field h
  have htext : ∃ more, fieldText field.name value = c :: more := by
    cases value <;> exact ⟨_, by rw [fieldText, hname]; rfl⟩
  obtain ⟨more, htext⟩ := htext
  rw [htext]
  exact if_neg fun hprefix => hc (List.cons_prefix_cons.mp (List.isPrefixOf_iff_prefix.mp hprefix)).1.symm

theorem stripPrefix_night (value : Option Text) :
    stripPrefix "night=".toList (fieldText (CanonicalField.name .night) value) =
      value.map keyEscape.encode := by
  cases value with
  | none => rfl
  | some value =>
    have hprefix : "night=".toList.isPrefixOf
        (fieldText (CanonicalField.name .night) (some value)) = true := by
      rw [List.isPrefixOf_iff_prefix]
      exact List.prefix_append "night=".toList (keyEscape.encode value)
    rw [stripPrefix, if_pos hprefix]
    rfl

theorem decode_night (text : Text) :
    replaceAll "%25".toList ['%'] (replaceAll "%7C".toList ['|'] (keyEscape.encode text)) = text :=
  keyEscape.decode_encode text

theorem findSome?_night (meta_ : CaptureMetadata P) :
    (keyVersion :: fieldTexts meta_).findSome? (stripPrefix "night=".toList) =
      (canonical meta_ .night).map keyEscape.encode := by
  have hversion : stripPrefix "night=".toList keyVersion = none := by decide
  have hrest : (CanonicalField.all.drop 2).findSome? (fun field =>
      stripPrefix "night=".toList (fieldText field.name (canonical meta_ field))) = none := by
    refine List.findSome?_eq_none_iff.mpr fun field hfield => stripPrefix_fieldText_of_ne ?_ _
    rintro rfl
    revert hfield
    decide
  have hfields : fieldTexts meta_ =
      fieldText (CanonicalField.name .type) (canonical meta_ .type) ::
      fieldText (CanonicalField.name .night) (canonical meta_ .night) ::
      (CanonicalField.all.drop 2).map fun field => fieldText field.name (canonical meta_ field) :=
    rfl
  rw [hfields, List.findSome?_cons, hversion, List.findSome?_cons,
    stripPrefix_fieldText_of_ne (by decide), List.findSome?_cons, stripPrefix_night,
    List.findSome?_map]
  cases canonical meta_ .night with
  | none => exact hrest
  | some text => rfl

theorem nightOf_key (meta_ : CaptureMetadata P) :
    nightOf (derive meta_).key = canonical meta_ .night := by
  rw [nightOf, splitOn_key, findSome?_night, Option.map_map]
  cases canonical meta_ .night with
  | none => rfl
  | some text => exact congrArg some (decode_night text)

/-! ## What else a key determines -/

theorem isLight_iff (meta_ : CaptureMetadata P) :
    meta_.isLight = some true ↔ canonical meta_ .type = some "light".toList := by
  rw [CaptureMetadata.isLight, canonical]
  cases meta_.imageTypeEvidence with
  | known frame => cases frame <;> decide
  | unclassified text =>
    have hne : "unclassified:".toList ++ text ≠ "light".toList := by
      intro h
      have hhead := congrArg List.head? h
      simp at hhead
    simpa [canonicalType] using hne
  | blank => simp [canonicalType]
  | absent => simp [canonicalType]

theorem light_of_key_eq {left right : CaptureMetadata P} (h : (derive left).key = (derive right).key) :
    (derive left).light = (derive right).light := by
  have htype := (key_eq_iff left right).mp h .type
  have hiff : (left.isLight = some true) = (right.isLight = some true) := by
    rw [isLight_iff, isLight_iff, htype]
  simp only [derive, hiff]

theorem basis_notMem (meta_ : CaptureMetadata P) {date : P.Date} {basis : Text}
    (h : (night meta_).value = some (date, basis)) : '@' ∉ basis := by
  have hbasis : basis = basisDateLoc ∨ basis = basisLongitude ∨ basis = basisUtc := by
    unfold night provisionalUtc at h
    split at h
    · cases h
      exact .inl rfl
    · simp only at h
      split at h
      · cases h
        exact .inr (.inl rfl)
      · split at h
        · cases h
          exact .inr (.inr rfl)
        · split at h
          · cases h
            exact .inr (.inr rfl)
          · cases h
        · cases h
        · cases h
  rcases hbasis with rfl | rfl | rfl <;> decide

theorem append_cons_right_inj {α : Type} {a a' b b' : List α} {c : α} (hb : c ∉ b) (hb' : c ∉ b')
    (h : a ++ c :: b = a' ++ c :: b') : b = b' := by
  have hcases : ∀ more left right : List α, c ∉ left → c :: left = more ++ c :: right →
      left = right := by
    intro more left right hleft heq
    cases more with
    | nil => exact (List.cons.inj heq).2
    | cons x more =>
      refine absurd ?_ hleft
      rw [(List.cons.inj heq).2]
      exact List.mem_append_right _ List.mem_cons_self
  rcases List.append_eq_append_iff.mp h with ⟨more, -, heq⟩ | ⟨more, -, heq⟩
  · exact hcases more b b' hb heq
  · exact (hcases more b' b hb' heq).symm

theorem dateBasis_of_key_eq {left right : CaptureMetadata P}
    (h : (derive left).key = (derive right).key) :
    (derive left).dateBasis = (derive right).dateBasis := by
  have hnight := (key_eq_iff left right).mp h .night
  simp only [canonical] at hnight
  simp only [derive]
  cases hleft : (night left).value with
  | none =>
    rw [hleft, Option.map_none] at hnight
    rw [Option.map_eq_none_iff.mp hnight.symm]
  | some leftValue =>
    cases hright : (night right).value with
    | none => simp [hleft, hright] at hnight
    | some rightValue =>
      rw [hleft, hright, Option.map_some, Option.map_some, Option.some.injEq] at hnight
      exact congrArg some (append_cons_right_inj (basis_notMem left hleft)
        (basis_notMem right hright) hnight)

/-- Two metadata values give one key exactly when each of the sixteen fields is unknown in both or
has one canonical text in both, and the night of a key is the one it was written with. -/
theorem key_injective_and_reads_back :
    (∀ left right : CaptureMetadata P, (derive left).key = (derive right).key ↔
      ∀ field, canonical left field = canonical right field) ∧
    ∀ meta_ : CaptureMetadata P, nightOf (derive meta_).key =
      (night meta_).value.map fun (date, basis) => nightText date basis :=
  ⟨key_eq_iff, nightOf_key⟩

end Key

end PlateVault
