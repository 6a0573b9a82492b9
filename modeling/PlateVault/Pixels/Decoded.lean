import PlateVault.Lib.Fallible
import PlateVault.Pixels.Shuffle

/-!
# What decoding an XISF image gives

Whatever the file, every access of the decoder stays within its buffers and no size overflows, but
for one: the scratch memory of a single plane of `2 ^ 61` samples or more. Where decoding succeeds,
the subblocks inflate to consecutive parts of exactly the bytes the geometry needs, and each sample
of each plane is the one whose bytes stand where the storage and the shuffling put it.
-/

namespace PlateVault.Pixels

open Buffers
open Halting (lift Ends ends_bind)

/-! ## Positions -/

section Positions

variable {O : Outside}

def Outside.inflates (O : Outside) : Codec → Bytes → Except Text Bytes
  | .zlib => O.zlib
  | .lz4 | .lz4Hc => O.lz4

/-- Subblocks that stand one after the other in a block and inflate to consecutive parts. -/
inductive Inflates (O : Outside) (codec : Codec) : Bytes → List (Nat × Nat) → Bytes → Prop
  | nil (block : Bytes) : Inflates O codec block [] []
  | cons {block part tail : Bytes} {compressed plain : Nat} {rest : List (Nat × Nat)} :
      compressed ≤ block.length → O.inflates codec (block.take compressed) = .ok part →
      part.length = plain → Inflates O codec (block.drop compressed) rest tail →
      Inflates O codec block ((compressed, plain) :: rest) (part ++ tail)

/-- The bytes an attachment stands for, before unshuffling. -/
def Stored (O : Outside) (layout : Layout O.F64) (block inflated : Bytes) : Prop :=
  match layout.compression with
  | none => inflated = block
  | some compression =>
    match layout.subblocks with
    | none => O.inflates compression.codec block = .ok inflated
    | some parts => Inflates O compression.codec block parts inflated

/-- Where byte `j` of the unshuffled bytes stands in the inflated ones. -/
def unshuffledAt {F64 : Type} (layout : Layout F64) (j : Nat) : Nat :=
  match layout.compression.bind (·.shuffleItemSize) with
  | some itemSize => shuffledAt itemSize layout.expected j
  | none => j

/-- Where byte `j` of the planar bytes stands in the unshuffled ones. -/
def planarAt {F64 : Type} (layout : Layout F64) (j : Nat) : Nat :=
  if layout.storage = .normal ∧ 1 < layout.channels then
    interleavedAt layout.channels (layout.width * layout.height) layout.format.bytes j
  else j

/-- Where byte `k` of the sample at `(x, y)` of a channel stands in the inflated bytes. -/
def positionOf {F64 : Type} (layout : Layout F64) (channel x y k : Nat) : Nat :=
  unshuffledAt layout (planarAt layout
    (((channel * layout.height + y) * layout.width + x) * layout.format.bytes + k))

def sampleBytes {F64 : Type} (layout : Layout F64) (inflated : Bytes) (channel x y : Nat) : Bytes :=
  (List.range layout.format.bytes).map fun k => inflated.getD (positionOf layout channel x y k) 0

end Positions

/-! ## Headers -/

section Headers

variable {O : Outside}

structure Layout.Sound {F64 : Type} (layout : Layout F64) : Prop where
  width_pos : 0 < layout.width
  width_lt : layout.width < 2 ^ 32
  height_pos : 0 < layout.height
  height_lt : layout.height < 2 ^ 32
  channels_pos : 0 < layout.channels
  channels_lt : layout.channels < 2 ^ 32
  expected_eq : layout.expected =
    layout.channels * (layout.width * layout.height) * layout.format.bytes
  expected_lt : layout.expected < wordLimit
  plain : layout.compression = none → layout.size = layout.expected
  item_pos : ∀ compression itemSize, layout.compression = some compression →
    compression.shuffleItemSize = some itemSize → 0 < itemSize
  parts : ∀ compression parts, layout.compression = some compression →
    layout.subblocks = some parts → (parts.map Prod.fst).sum ≤ layout.size ∧
      (parts.map Prod.snd).sum = layout.expected

theorem checkedAdd_eq_some {a b c : Nat} : checkedAdd a b = some c ↔ a + b < wordLimit ∧ a + b = c := by
  simp [checkedAdd]

theorem checkedMul_eq_some {a b c : Nat} : checkedMul a b = some c ↔ a * b < wordLimit ∧ a * b = c := by
  simp [checkedMul]

theorem total_eq_some {parts : List (Nat × Nat)} {size : Nat × Nat → Nat} {start total : Nat}
    (h : parts.foldlM (fun sum part => checkedAdd sum (size part)) start = some total) :
    total = start + (parts.map size).sum := by
  induction parts generalizing start with
  | nil =>
    cases h
    rfl
  | cons part parts ih =>
    rw [List.foldlM_cons] at h
    obtain ⟨next, hnext, hrest⟩ := Option.bind_eq_some_iff.mp h
    obtain ⟨-, rfl⟩ := checkedAdd_eq_some.mp hnext
    rw [ih hrest, List.map_cons, List.sum_cons, Nat.add_assoc]

theorem checkSubblocks_eq_ok {parts : List (Nat × Nat)} {attachment expected : Nat}
    (h : checkSubblocks parts attachment expected = .ok ()) :
    (parts.map Prod.fst).sum ≤ attachment ∧ (parts.map Prod.snd).sum = expected := by
  unfold checkSubblocks at h
  simp only at h
  split at h
  · cases h
  rename_i hreach
  split at h
  · cases h
  rename_i hexpected
  rw [not_not] at hexpected
  constructor
  · cases hsum : parts.foldlM (fun sum part => checkedAdd sum part.fst) 0 with
    | none => simp [hsum] at hreach
    | some total =>
      have htotal := total_eq_some hsum
      simp only [hsum, Option.all_some, decide_eq_true_eq, not_lt] at hreach
      omega
  · have htotal := total_eq_some hexpected
    omega

theorem checkSizes_eq_ok {compression : Option Compression}
    {subblocks : Option (List (Nat × Nat))} {size expected : Nat}
    (h : checkSizes compression subblocks size expected = .ok ()) :
    (compression = none → size = expected) ∧
      ∀ compression' parts, compression = some compression' → subblocks = some parts →
        (parts.map Prod.fst).sum ≤ size ∧ (parts.map Prod.snd).sum = expected := by
  unfold checkSizes at h
  split at h
  · split at h
    · cases h
    · rename_i hsize
      exact ⟨fun _ => not_not.mp hsize, nofun⟩
  · refine ⟨nofun, fun compression' parts _ hparts => ?_⟩
    split at h
    · cases h
    · subst hparts
      exact checkSubblocks_eq_ok h

theorem dataLen_eq_ok {width height channels expected : Nat} {format : SampleFormat} {what : String}
    (h : dataLen width height channels format what = .ok expected) :
    expected < wordLimit ∧ expected = channels * (width * height) * format.bytes := by
  unfold dataLen at h
  split at h
  · rename_i bytes hbytes
    obtain ⟨plane, hplane, hbytes⟩ := Option.bind_eq_some_iff.mp hbytes
    obtain ⟨samples, hsamples, hbytes⟩ := Option.bind_eq_some_iff.mp hbytes
    obtain ⟨-, rfl⟩ := checkedMul_eq_some.mp hplane
    obtain ⟨-, rfl⟩ := checkedMul_eq_some.mp hsamples
    obtain ⟨hlt, rfl⟩ := checkedMul_eq_some.mp hbytes
    cases h
    exact ⟨hlt, by rw [Nat.mul_comm channels]⟩
  · cases h

theorem toU32_eq_ok {value n : Nat} {what : String} (h : toU32 value what = .ok n) :
    0 < n ∧ n < 2 ^ 32 := by
  unfold toU32 at h
  split at h
  · rename_i hvalue
    cases h
    exact ⟨hvalue.2, hvalue.1⟩
  · cases h

theorem compression_item_pos {recorded : Text} {found : Compression} {itemSize : Nat}
    (h : compression O recorded = .ok found) (hitem : found.shuffleItemSize = some itemSize) :
    0 < itemSize := by
  simp only [compression, Except.bind_eq_ok_iff] at h
  obtain ⟨codec, -, uncompressed, -, h⟩ := h
  split at h
  · obtain ⟨size, -, h⟩ := Except.bind_eq_ok_iff.mp h
    split at h
    · rename_i hsize
      obtain rfl := Except.pure_eq_ok_iff.mp h
      cases hitem
      exact hsize.2
    · cases h
  · obtain rfl := Except.pure_eq_ok_iff.mp h
    cases hitem

theorem optional_eq_some {α : Type} {recorded : Option Text} {parse : Text → Except PixelError α}
    {found : Option α} (h : optional recorded parse = .ok found) {a : α} (ha : found = some a) :
    ∃ value, parse value = .ok a := by
  unfold optional at h
  split at h
  · cases h
    cases ha
  · obtain ⟨b, hb, hpure⟩ := Except.bind_eq_ok_iff.mp h
    obtain rfl := Except.pure_eq_ok_iff.mp hpure
    cases ha
    exact ⟨_, hb⟩

theorem layoutOf_sound {image : ImageElement} {layout : Layout O.F64}
    (h : layoutOf O image = .ok layout) : layout.Sound := by
  simp only [layoutOf, Except.bind_eq_ok_iff] at h
  obtain ⟨-, -, geometry, -, h⟩ := h
  split at h
  swap
  · cases h
  simp only [Except.bind_eq_ok_iff, Except.pure_eq_ok_iff] at h
  obtain ⟨width, hwidth, height, hheight, channels, hchannels, _, -, format, -, _, -, ⟨position, size⟩,
    -, compression, hcompression, storage, -, byteOrder, -, bounds, -, subblocks, -, expected,
    hexpected, ⟨⟩, hsizes, rfl⟩ := h
  obtain ⟨hlt, heq⟩ := dataLen_eq_ok hexpected
  obtain ⟨hplain, hparts⟩ := checkSizes_eq_ok hsizes
  refine ⟨(toU32_eq_ok hwidth).1, (toU32_eq_ok hwidth).2, (toU32_eq_ok hheight).1,
    (toU32_eq_ok hheight).2, (toU32_eq_ok hchannels).1, (toU32_eq_ok hchannels).2, heq, hlt, hplain,
    ?_, hparts⟩
  intro found itemSize hfound hitem
  obtain ⟨value, hvalue⟩ := optional_eq_some hcompression hfound
  exact compression_item_pos hvalue hitem

end Headers

/-! ## Reading -/

/-- Nothing is canceled, no read breaks off and memory is there. -/
structure Surroundings.Quiet (world : Surroundings) : Prop where
  canceled : ∀ polls, world.canceled polls = false
  broken : ∀ left, world.broken left = none
  reserve : ∀ len, world.reserve len = true

section Reading

variable {world : Surroundings} {reader : Reader}

theorem check_ends {Q : Unit → Reader → Prop} {E : Stopped → Reader → Prop}
    (hok : ∀ polls, Q () ⟨reader.rest, polls⟩)
    (hcanceled : ¬world.Quiet → ∀ polls, E (.error .canceled) ⟨reader.rest, polls⟩) :
    (check world).Ends Q E reader := by
  unfold check
  change Ends (if world.canceled reader.polls then _ else _) Q E _
  split
  · rename_i hcancel
    refine hcanceled (fun hquiet => ?_) _
    rw [hquiet.canceled] at hcancel
    cases hcancel
  · exact hok _

theorem readAll_ends {count : Nat} {truncated : Nat → Stopped} {Q : Bytes → Reader → Prop}
    {E : Stopped → Reader → Prop}
    (hok : count ≤ reader.rest.length →
      Q (reader.rest.take count) ⟨reader.rest.drop count, reader.polls⟩)
    (hbroken : ¬world.Quiet → ∀ error, E (.error (.io error)) reader)
    (htruncated : reader.rest.length < count → ∀ filled, E (truncated filled) reader) :
    (readAll world count truncated).Ends Q E reader := by
  rw [readAll, ends_bind]
  change Ends _ Q E reader
  cases hread : world.broken reader.rest.length with
  | some error =>
    refine hbroken (fun hquiet => ?_) error
    rw [hquiet.broken] at hread
    cases hread
  | none =>
    change Ends (if reader.rest.length < count then _ else _) Q E reader
    split
    · rename_i hshort
      exact htruncated hshort _
    · rename_i hlong
      exact hok (not_lt.mp hlong)

/-- How reading `len` bytes stops: never with a fault, and in quiet surroundings only where the file
is too short or the length past what a buffer holds. -/
def Short (world : Surroundings) (len : Nat) (rest : Bytes) (stop : Stopped) : Prop :=
  stop ≠ .fault ∧ (world.Quiet → rest.length < len ∨ isizeMax < len)

theorem readChunks_ends {len : Nat} {what : String} (hlen : len ≤ isizeMax) (start : Nat)
    (buffer : Bytes) (hstart : start ≤ len) (reader : Reader) :
    (readChunks world len what start buffer).Ends
      (fun bytes after => len - start ≤ reader.rest.length ∧
        bytes = buffer ++ reader.rest.take (len - start) ∧
          after.rest = reader.rest.drop (len - start))
      (fun stop _ => Short world (len - start) reader.rest stop) reader := by
  induction hleft : len - start using Nat.strong_induction_on generalizing start buffer reader with
  | _ left ih =>
  rw [readChunks]
  split
  swap
  · obtain rfl : left = 0 := by omega
    exact ⟨Nat.zero_le _, by simp, by simp⟩
  rename_i hmore
  generalize hpast : start + chunk = past
  have hlimit : start + chunk < wordLimit := by
    simp only [isizeMax, chunk, wordLimit] at *
    omega
  have hstep : start < past := by
    simp only [chunk] at hpast
    omega
  have hquiet : ∀ stop : Stopped, stop ≠ .fault → ¬world.Quiet →
      Short world left reader.rest stop :=
    fun stop hstop hnot => ⟨hstop, fun hquiet => absurd hquiet hnot⟩
  rw [ends_bind]
  refine check_ends (fun polls => ?_) fun hnot _ => hquiet _ nofun hnot
  rw [ends_bind, add_eq_ok hlimit, Halting.ends_lift_ok, hpast, ends_bind]
  refine readAll_ends (fun hfits => ?_) (fun hnot error => hquiet _ nofun hnot) fun hshort _ => ?_
  swap
  · exact ⟨nofun, fun _ => .inl (Nat.lt_of_lt_of_le hshort (by omega))⟩
  replace hfits : min past len - start ≤ reader.rest.length := hfits
  have hrest := ih (len - min past len) (by omega) (min past len)
    (buffer ++ reader.rest.take (min past len - start)) (by omega)
    ⟨reader.rest.drop (min past len - start), polls⟩ rfl
  simp only [List.length_drop] at hrest
  refine hrest.mono (fun bytes after h => ?_) fun stop _ h => ?_
  · obtain ⟨hfits', rfl, hafter⟩ := h
    have hsum : left = (min past len - start) + (len - min past len) := by omega
    refine ⟨by omega, ?_, ?_⟩
    · rw [List.append_assoc, hsum, List.take_add]
    · rw [hafter, List.drop_drop, ← hsum]
  · refine ⟨h.1, fun hquiet => (h.2 hquiet).imp (fun hlt => ?_) fun hlt => ?_⟩
    · rw [List.length_drop] at hlt
      omega
    · omega

theorem readExact_ends (len : Nat) (what : String) :
    (readExact world len what).Ends
      (fun bytes after => len ≤ isizeMax ∧ len ≤ reader.rest.length ∧
        bytes = reader.rest.take len ∧ after.rest = reader.rest.drop len)
      (fun stop _ => Short world len reader.rest stop) reader := by
  unfold readExact
  split
  · rename_i hrefused
    refine ⟨nofun, fun hquiet => .inr ?_⟩
    simpa [hquiet.reserve] using hrefused
  · rename_i hadmitted
    have hlen : len ≤ isizeMax := by
      simp only [Bool.or_eq_true, decide_eq_true_eq, not_or, not_lt] at hadmitted
      exact hadmitted.1
    refine (readChunks_ends hlen 0 [] (Nat.zero_le _) reader).mono (fun bytes after h => ?_)
      fun stop _ h => h
    obtain ⟨hfits, rfl, hafter⟩ := h
    exact ⟨hlen, hfits, rfl, hafter⟩

theorem skip_ends (what : String) (remaining : Nat) (reader : Reader) :
    (skip world what remaining).Ends
      (fun _ after => remaining ≤ reader.rest.length ∧ after.rest = reader.rest.drop remaining)
      (fun stop _ => stop ≠ .fault) reader := by
  induction remaining using Nat.strong_induction_on generalizing reader with
  | _ remaining ih =>
  rw [skip]
  split
  swap
  · obtain rfl : remaining = 0 := by omega
    exact ⟨Nat.zero_le _, rfl⟩
  have hstep : 0 < min remaining chunk := by
    simp only [chunk]
    omega
  generalize hcount : min remaining chunk = count at hstep
  have hcount' : count ≤ remaining := hcount ▸ min_le_left _ _
  rw [ends_bind]
  refine check_ends (fun polls => ?_) fun _ _ => nofun
  dsimp only
  rw [ends_bind]
  refine readAll_ends (fun hfits => ?_) (fun _ _ => nofun) fun _ _ => nofun
  replace hfits : count ≤ reader.rest.length := hfits
  have hrest := ih (remaining - count) (by omega) ⟨reader.rest.drop count, polls⟩
  simp only [List.length_drop] at hrest
  refine hrest.mono (fun _ after h => ?_) fun stop _ h => h
  obtain ⟨hfits', hafter⟩ := h
  refine ⟨by omega, ?_⟩
  rw [hafter, List.drop_drop]
  congr 1
  omega

end Reading

/-! ## The header of a file -/

def headerAt (O : Outside) (file : Bytes) : Option (Header O) :=
  let xmlLen := ofLittleEndian ((file.drop 8).take 4)
  if 16 ≤ file.length ∧ file.take 8 = signature ∧ xmlLen ≤ maxHeader ∧ xmlLen ≤ (file.drop 16).length
  then (headerOf O (file.take 16) ((file.drop 16).take xmlLen) xmlLen).toOption
  else none

theorem headerOf_eq_ok {O : Outside} {preamble xmlBytes : Bytes} {xmlLen : Nat} {header : Header O}
    (h : headerOf O preamble xmlBytes xmlLen = .ok header) :
    header.xmlLen = xmlLen ∧ header.layout.Sound := by
  unfold headerOf at h
  split at h
  · cases h
  split at h
  · cases h
  simp only [Except.bind_eq_ok_iff, Except.pure_eq_ok_iff] at h
  obtain ⟨image, -, layout, hlayout, rfl⟩ := h
  exact ⟨rfl, layoutOf_sound hlayout⟩

theorem headerAt_eq_some {O : Outside} {file : Bytes} {header : Header O}
    (h : headerAt O file = some header) :
    header.xmlLen ≤ maxHeader ∧ 16 + header.xmlLen ≤ file.length ∧ header.layout.Sound := by
  unfold headerAt at h
  simp only at h
  split at h
  · rename_i hfile
    obtain ⟨hlength, -, hcap, hfits⟩ := hfile
    rw [List.length_drop] at hfits
    obtain ⟨hxml, hsound⟩ := headerOf_eq_ok (Except.toOption_eq_some_iff.mp h)
    rw [hxml]
    exact ⟨hcap, by omega, hsound⟩
  · cases h

theorem returned_ends {α σ : Type} {x : Except PixelError α} {Q : α → σ → Prop}
    {E : Stopped → σ → Prop} {s : σ} (hok : ∀ a, x = .ok a → Q a s)
    (herror : ∀ e, x = .error e → E (.error e) s) :
    (lift (returned x) : Halting σ Stopped α).Ends Q E s := by
  cases x with
  | ok a => exact hok a rfl
  | error e => exact herror e rfl

theorem readHeader_ends (O : Outside) (world : Surroundings) (file : Bytes) (polls : Nat) :
    (readHeader O world).Ends
      (fun header after => headerAt O file = some header ∧
        after.rest = file.drop (16 + header.xmlLen))
      (fun stop _ => stop ≠ .fault ∧ (world.Quiet → headerAt O file = none)) ⟨file, polls⟩ := by
  unfold readHeader
  rw [ends_bind]
  refine (readExact_ends 16 _).mono (fun preamble after h => ?_) fun stop _ h => ?_
  swap
  · refine ⟨h.1, fun hquiet => ?_⟩
    unfold headerAt
    refine if_neg fun hfile => ?_
    rcases h.2 hquiet with hshort | hlong
    · exact absurd hfile.1 (not_le.mpr hshort)
    · exact absurd hlong (by decide)
  obtain ⟨-, hlength, rfl, hafter⟩ := h
  simp only at hlength hafter ⊢
  have hpreamble : (file.take 16).length = 16 := by
    rw [List.length_take]
    omega
  have hstart : ((file.take 16).drop 0).take (8 - 0) = file.take 8 := by
    rw [List.drop_zero, List.take_take]
    rfl
  have hcount : ((file.take 16).drop 8).take (12 - 8) = (file.drop 8).take 4 := by
    rw [List.drop_take, List.take_take]
    rfl
  rw [ends_bind, slice_eq_ok (by omega) (by omega), Halting.ends_lift_ok, hstart]
  have hnone : (file.take 8 ≠ signature ∨ maxHeader < ofLittleEndian ((file.drop 8).take 4) ∨
      (file.drop 16).length < ofLittleEndian ((file.drop 8).take 4)) → headerAt O file = none := by
    intro hbad
    unfold headerAt
    refine if_neg fun hfile => ?_
    rcases hbad with hbad | hbad | hbad
    · exact hbad hfile.2.1
    · exact absurd hfile.2.2.1 (not_le.mpr hbad)
    · exact absurd hfile.2.2.2 (not_le.mpr hbad)
  split
  · rename_i hsignature
    exact ⟨nofun, fun _ => hnone (.inl hsignature)⟩
  rename_i hsignature
  rw [not_not] at hsignature
  rw [ends_bind, slice_eq_ok (by omega) (by omega), Halting.ends_lift_ok, hcount]
  split
  · rename_i hcap
    exact ⟨nofun, fun _ => hnone (.inr (.inl hcap))⟩
  rename_i hcap
  rw [not_lt] at hcap
  rw [ends_bind]
  refine (readExact_ends _ _).mono (fun xmlBytes after' h => ?_) fun stop _ h => ?_
  swap
  · refine ⟨h.1, fun hquiet => hnone (.inr (.inr ?_))⟩
    rcases h.2 hquiet with hshort | hlong
    · rwa [hafter] at hshort
    · exact absurd hlong (not_lt.mpr (hcap.trans (by decide)))
  obtain ⟨-, hfits, rfl, hafter'⟩ := h
  rw [hafter] at hfits hafter' ⊢
  have hheader : headerAt O file =
      (headerOf O (file.take 16) ((file.drop 16).take (ofLittleEndian ((file.drop 8).take 4)))
        (ofLittleEndian ((file.drop 8).take 4))).toOption :=
    if_pos ⟨hlength, hsignature, hcap, hfits⟩
  refine returned_ends (fun header hok => ?_) fun error herror => ?_
  · rw [hheader, hok, hafter', List.drop_drop, (headerOf_eq_ok hok).1]
    exact ⟨rfl, rfl⟩
  · rw [hheader, herror]
    exact ⟨nofun, fun _ => rfl⟩

/-! ## The attachment -/

section Attachment

variable {O : Outside} {world : Surroundings}

theorem inflateInto_cases (codec : Codec) (data : Bytes) (len : Nat) :
    (∃ plain, inflateInto O codec data len = .ok plain ∧ O.inflates codec data = .ok plain ∧
      plain.length = len) ∨ ∃ error, inflateInto O codec data len = .error (.error error) := by
  have hlz4 : ∀ codec' : Codec, codec' = .lz4 ∨ codec' = .lz4Hc →
      (∃ plain, inflateInto O codec' data len = .ok plain ∧ O.inflates codec' data = .ok plain ∧
        plain.length = len) ∨ ∃ error, inflateInto O codec' data len = .error (.error error) := by
    intro codec' hcodec
    rcases hcodec with rfl | rfl
    all_goals
      simp only [inflateInto, Outside.inflates]
      split
      · exact .inr ⟨_, rfl⟩
      · rename_i plain hplain
        split
        · exact .inr ⟨_, rfl⟩
        split
        · exact .inr ⟨_, rfl⟩
        · rename_i hlength
          exact .inl ⟨plain, rfl, hplain, not_not.mp hlength⟩
  cases codec with
  | zlib =>
    simp only [inflateInto, Outside.inflates]
    split
    · exact .inr ⟨_, rfl⟩
    · rename_i plain hplain
      split
      · exact .inr ⟨_, rfl⟩
      split
      · exact .inr ⟨_, rfl⟩
      · rename_i hlength
        exact .inl ⟨plain, rfl, hplain, not_not.mp hlength⟩
  | lz4 => exact hlz4 .lz4 (.inl rfl)
  | lz4Hc => exact hlz4 .lz4Hc (.inr rfl)

theorem inflateParts_ends {codec : Codec} {block : Bytes} (hblock : block.length < wordLimit)
    (parts : List (Nat × Nat)) (read written : Nat) (inflated : Bytes) (reader : Reader)
    (hlimit : inflated.length < wordLimit)
    (hread : read + (parts.map Prod.fst).sum ≤ block.length)
    (hwritten : written + (parts.map Prod.snd).sum = inflated.length) :
    (inflateParts O world codec block parts read written inflated).Ends
      (fun out _ => ∃ tail, Inflates O codec (block.drop read) parts tail ∧
        out = inflated.take written ++ tail ∧ out.length = inflated.length)
      (fun stop _ => stop ≠ .fault) reader := by
  induction parts generalizing read written inflated reader with
  | nil =>
    refine ⟨[], .nil _, ?_, rfl⟩
    rw [List.append_nil, List.take_of_length_le (by simpa using hwritten.ge)]
  | cons part rest ih =>
    obtain ⟨compressed, plain⟩ := part
    simp only [List.map_cons, List.sum_cons] at hread hwritten
    rw [inflateParts, ends_bind]
    refine check_ends (fun polls => ?_) fun _ _ => nofun
    have hpart : ((inflated.drop written).take (written + plain - written)).length = plain := by
      rw [List.length_take, List.length_drop]
      omega
    rw [ends_bind, add_eq_ok (by omega), Halting.ends_lift_ok, ends_bind,
      slice_eq_ok (by omega) (by omega), Halting.ends_lift_ok, ends_bind, add_eq_ok (by omega),
      Halting.ends_lift_ok, ends_bind, slice_eq_ok (by omega) (by omega), Halting.ends_lift_ok,
      hpart, ends_bind]
    rcases @inflateInto_cases O codec ((block.drop read).take (read + compressed - read)) plain
      with ⟨out, hout, hinflates, hlength⟩ | ⟨error, herror⟩
    swap
    · rw [herror]
      exact nofun
    rw [hout, Halting.ends_lift_ok, ends_bind, copyInto_eq_ok (by omega) (by omega) (by omega),
      Halting.ends_lift_ok]
    have htake : (inflated.take written).length = written := by
      rw [List.length_take]
      omega
    have hsame : (inflated.take written ++ out ++ inflated.drop (written + plain)).length =
        inflated.length := by
      simp only [List.length_append, htake, hlength, List.length_drop]
      omega
    refine (ih (read + compressed) (written + plain) _ _ (hsame ▸ hlimit) (by omega)
      (by omega)).mono (fun final _ h => ?_) fun stop _ h => h
    obtain ⟨tail, htail, rfl, hfinal⟩ := h
    rw [Nat.add_sub_cancel_left] at hinflates
    refine ⟨out ++ tail, ?_, ?_, hfinal.trans hsame⟩
    · refine .cons ?_ hinflates hlength ?_
      · rw [List.length_drop]
        omega
      · rwa [List.drop_drop]
    · rw [List.take_left' (by simp [htake, hlength]), List.append_assoc]

theorem rawOf_ends {layout : Layout O.F64} (hsound : layout.Sound) {block : Bytes}
    (hblock : block.length = layout.size) (hlimit : layout.size < wordLimit) (reader : Reader) :
    (rawOf O world layout block).Ends
      (fun raw _ => raw.length = layout.expected ∧ ∃ inflated, Stored O layout block inflated ∧
        inflated.length = layout.expected ∧
          ∀ j : Nat, raw[j]? = inflated[unshuffledAt layout j]?)
      (fun stop _ => stop ≠ .fault) reader := by
  unfold rawOf
  split
  · rename_i hnone
    refine ⟨hblock.trans (hsound.plain hnone), block, ?_, hblock.trans (hsound.plain hnone), ?_⟩
    · simp only [Stored, hnone]
    · intro j
      simp only [unshuffledAt, hnone, Option.bind_none]
  rename_i compression hcompression
  have hunshuffle : ∀ inflated : Bytes, Stored O layout block inflated →
      inflated.length = layout.expected → ∀ reader : Reader,
      Ends (match compression.shuffleItemSize with
        | some itemSize => lift (unshuffle inflated itemSize)
        | none => pure inflated : Decoding Bytes)
        (fun raw _ => raw.length = layout.expected ∧ ∃ inflated, Stored O layout block inflated ∧
          inflated.length = layout.expected ∧
            ∀ j : Nat, raw[j]? = inflated[unshuffledAt layout j]?)
        (fun stop _ => stop ≠ .fault) reader := by
    intro inflated hstored hlength reader
    cases hitem : compression.shuffleItemSize with
    | none =>
      refine ⟨hlength, inflated, hstored, hlength, fun j => ?_⟩
      simp only [unshuffledAt, hcompression, Option.bind_some, hitem]
    | some itemSize =>
      obtain ⟨out, hout, houtLength, hreads⟩ := unshuffle_eq
        (hsound.item_pos _ _ hcompression hitem) (hlength ▸ hsound.expected_lt)
      simp only [hout]
      refine ⟨houtLength.trans hlength, inflated, hstored, hlength, fun j => ?_⟩
      rw [hreads j, hlength]
      simp only [unshuffledAt, hcompression, Option.bind_some, hitem]
  rw [ends_bind]
  unfold zeroed
  split
  · exact nofun
  rw [Halting.ends_pure]
  cases hsubblocks : layout.subblocks with
  | none =>
    dsimp only
    rw [ends_bind, List.length_replicate]
    rcases @inflateInto_cases O compression.codec block layout.expected
      with ⟨plain, hplain, hinflates, hlength⟩ | ⟨error, herror⟩
    · rw [hplain, Halting.ends_lift_ok]
      refine hunshuffle plain ?_ hlength reader
      simp only [Stored, hcompression, hsubblocks]
      exact hinflates
    · rw [herror]
      exact nofun
  | some parts =>
    dsimp only
    rw [ends_bind]
    obtain ⟨hread, hwritten⟩ := hsound.parts _ _ hcompression hsubblocks
    refine (inflateParts_ends (hblock ▸ hlimit) parts 0 0 (List.replicate layout.expected 0) reader
      (by simpa using hsound.expected_lt) (by omega) (by simp [hwritten])).mono
      (fun inflated after h => ?_) fun stop _ h => h
    obtain ⟨tail, htail, rfl, hlength⟩ := h
    refine hunshuffle _ ?_ (by simpa using hlength) after
    simp only [Stored, hcompression, hsubblocks]
    exact htail

theorem planarOf_eq_ok {layout : Layout O.F64} (hsound : layout.Sound) {raw : Bytes}
    (hlength : raw.length = layout.expected) :
    ∃ planar, planarOf O layout raw = .ok planar ∧ planar.length = layout.expected ∧
      ∀ j < layout.expected, planar[j]? = raw[planarAt layout j]? := by
  unfold planarOf planarAt
  cases hstorage : layout.storage with
  | planar => exact ⟨raw, rfl, hlength, fun j _ => by simp⟩
  | normal =>
    by_cases hmany : 1 < layout.channels
    · simp only [if_pos hmany, true_and]
      have hpixel : layout.channels * layout.format.bytes < wordLimit := by
        have hbytes := layout.format.bytes_le
        have hchannels := hsound.channels_lt
        have := Nat.mul_le_mul hchannels.le hbytes
        simp only [wordLimit]
        omega
      obtain ⟨out, hout, houtLength, hreads⟩ := deinterleave_eq hsound.channels_pos
        layout.format.bytes_pos (hlength.trans hsound.expected_eq)
        (hlength ▸ hsound.expected_lt) hpixel
      exact ⟨out, hout, houtLength.trans hlength, hlength ▸ hreads⟩
    · refine ⟨raw, if_neg hmany, hlength, fun j _ => ?_⟩
      rw [if_neg fun h => hmany h.2]

end Attachment

/-! ## The planes -/

section Planes

variable {O : Outside} {layout : Layout O.F64} {planar inflated : Bytes}

def planePart {F64 : Type} (layout : Layout F64) (planar : Bytes) (index : Nat) : Bytes :=
  (planar.drop (index * (layout.width * layout.height * layout.format.bytes))).take
    (layout.width * layout.height * layout.format.bytes)

theorem planesOf_eq_ok (hsound : layout.Sound) (hlength : planar.length = layout.expected)
    (image : ImageElement) (saturation : Saturation O.F64) :
    planesOf O image layout saturation planar = .ok ((List.range layout.channels).map fun index => {
      width := layout.width
      height := layout.height
      kind := kindOf image.cfa layout.channels index layout.colorSpace
      samples := samplesFromBytes (planePart layout planar index) layout.format layout.byteOrder
      scaling := identity O
      blank := none
      saturation }) := by
  have hplane : layout.expected / layout.channels =
      layout.width * layout.height * layout.format.bytes := by
    rw [hsound.expected_eq, Nat.mul_assoc, Nat.mul_div_cancel_left _ hsound.channels_pos]
  unfold planesOf
  rw [quot_eq_ok hsound.channels_pos, hplane]
  refine Except.mapM_eq_map fun index hindex => ?_
  rw [List.mem_range] at hindex
  have hfits : index * (layout.width * layout.height * layout.format.bytes) +
      layout.width * layout.height * layout.format.bytes ≤ planar.length := by
    rw [hlength, hsound.expected_eq, Nat.mul_assoc layout.channels, ← Nat.succ_mul]
    exact Nat.mul_le_mul_right _ hindex
  have hlimit := hsound.expected_lt
  rw [mul_eq_ok (by omega)]
  simp only [bind, Except.bind]
  rw [add_eq_ok (by omega)]
  simp only
  rw [slice_eq_ok (by omega) hfits, Nat.add_sub_cancel_left]
  rfl

theorem asChunks_planePart (hsound : layout.Sound) (hlength : planar.length = layout.expected)
    (hplanar : ∀ j < layout.expected,
      planar[j]? = inflated[unshuffledAt layout (planarAt layout j)]?) {channel : Nat}
    (hchannel : channel < layout.channels) :
    asChunks layout.format.bytes (planePart layout planar channel) =
      (List.range (layout.width * layout.height)).map fun i =>
        sampleBytes layout inflated channel (i % layout.width) (i / layout.width) := by
  have hbytes := layout.format.bytes_pos
  have hfits : (channel + 1) * (layout.width * layout.height * layout.format.bytes) ≤
      layout.expected := by
    rw [hsound.expected_eq, Nat.mul_assoc layout.channels]
    exact Nat.mul_le_mul_right _ hchannel
  rw [Nat.succ_mul] at hfits
  have hpart : (planePart layout planar channel).length =
      layout.width * layout.height * layout.format.bytes := by
    unfold planePart
    rw [List.length_take, List.length_drop, hlength]
    omega
  unfold asChunks
  rw [hpart, Nat.mul_div_cancel _ hbytes]
  refine List.map_congr_left fun i hi => ?_
  rw [List.mem_range] at hi
  have hsample : i * layout.format.bytes + layout.format.bytes ≤
      layout.width * layout.height * layout.format.bytes := by
    rw [← Nat.succ_mul]
    exact Nat.mul_le_mul_right _ hi
  apply List.ext_getElem?
  intro k
  by_cases hk : k < layout.format.bytes
  · -- the sample's place among the planar bytes
    have hat : ((channel * layout.height + i / layout.width) * layout.width + i % layout.width) *
        layout.format.bytes + k =
        channel * (layout.width * layout.height * layout.format.bytes) +
          (i * layout.format.bytes + k) := by
      have hi' : i / layout.width * layout.width + i % layout.width = i := by
        rw [Nat.mul_comm]
        exact Nat.div_add_mod i layout.width
      have hindex : (channel * layout.height + i / layout.width) * layout.width + i % layout.width =
          channel * (layout.width * layout.height) + i := by
        rw [Nat.add_mul, Nat.add_assoc, hi', Nat.mul_assoc, Nat.mul_comm layout.height]
      rw [hindex, Nat.add_mul, Nat.mul_assoc channel, Nat.add_assoc]
    have hbound : channel * (layout.width * layout.height * layout.format.bytes) +
        (i * layout.format.bytes + k) < layout.expected := by omega
    have hvalue := hplanar _ hbound
    rw [← hat, List.getElem?_eq_getElem (by rw [hlength, hat]; exact hbound)] at hvalue
    unfold planePart sampleBytes
    rw [List.getElem?_take_of_lt hk, List.getElem?_drop, List.getElem?_take_of_lt (by omega),
      List.getElem?_drop, ← hat, List.getElem?_map, List.getElem?_range hk]
    simp only [Option.map_some, positionOf, List.getD_eq_getElem?_getD]
    rw [← hvalue, List.getElem?_eq_getElem]
    rfl
  · rw [List.getElem?_eq_none (by rw [List.length_take]; omega), List.getElem?_eq_none (by
      rw [sampleBytes, List.length_map, List.length_range]
      omega)]

end Planes

/-! ## The image -/

/-- An image whose planes hold the samples the file stores: every plane has the width and height of
the geometry, and the sample at `(x, y)` of a channel is the one whose bytes stand where the storage
and the shuffling put it in what the attachment inflates to. -/
structure ImageOf (O : Outside) (file : Bytes) (header : Header O) (image : DecodedImage O.F64) :
    Prop where
  attached : 16 + header.xmlLen ≤ header.layout.position ∧
    header.layout.position + header.layout.size ≤ file.length
  length_planes : image.planes.length = header.layout.channels
  stored : ∃ inflated, inflated.length = header.layout.expected ∧
    Stored O header.layout ((file.drop header.layout.position).take header.layout.size) inflated ∧
    (∀ channel < header.layout.channels, ∀ x < header.layout.width, ∀ y < header.layout.height,
      ∀ k < header.layout.format.bytes,
        positionOf header.layout channel x y k < inflated.length) ∧
    ∀ channel < header.layout.channels, ∃ plane, image.planes[channel]? = some plane ∧
      plane.width = header.layout.width ∧ plane.height = header.layout.height ∧
      plane.samples.len = header.layout.width * header.layout.height ∧
      plane.samples = samplesOf header.layout.format header.layout.byteOrder
        ((List.range (header.layout.width * header.layout.height)).map fun i =>
          sampleBytes header.layout inflated channel (i % header.layout.width)
            (i / header.layout.width))

theorem readImage_ends (O : Outside) (world : Surroundings) {file : Bytes} {header : Header O}
    (hheader : headerAt O file = some header) {reader : Reader}
    (hrest : reader.rest = file.drop (16 + header.xmlLen)) :
    (readImage O world header).Ends (fun image _ => ImageOf O file header image)
      (fun stop _ => stop ≠ .fault) reader := by
  obtain ⟨hcap, hfile, hsound⟩ := headerAt_eq_some hheader
  have hconsumed : 16 + header.xmlLen < wordLimit := by
    simp only [maxHeader, wordLimit] at *
    omega
  unfold readImage
  rw [ends_bind, add_eq_ok hconsumed, Halting.ends_lift_ok]
  dsimp only
  split
  · exact nofun
  rename_i hposition
  rw [not_lt] at hposition
  rw [ends_bind, sub_eq_ok hposition, Halting.ends_lift_ok, ends_bind]
  refine (skip_ends _ _ reader).mono (fun _ after h => ?_) fun stop _ h => h
  obtain ⟨hgap, hafter⟩ := h
  rw [hrest, List.length_drop] at hgap
  rw [hrest, List.drop_drop, Nat.add_sub_cancel' hposition] at hafter
  rw [ends_bind]
  refine (readExact_ends _ _).mono (fun block after h => ?_) fun stop _ h => h.1
  obtain ⟨hsize, hfits, rfl, -⟩ := h
  rw [hafter] at hfits ⊢
  have hblock : ((file.drop header.layout.position).take header.layout.size).length =
      header.layout.size := by
    rw [List.length_take]
    omega
  have hlimit : header.layout.size < wordLimit := by
    simp only [isizeMax, wordLimit] at *
    omega
  rw [List.length_drop] at hfits
  rw [ends_bind]
  refine check_ends (fun polls => ?_) fun _ _ => nofun
  rw [ends_bind]
  refine (rawOf_ends hsound hblock hlimit _).mono (fun raw after h => ?_) fun stop _ h => h
  obtain ⟨hraw, inflated, hstored, hinflated, hreads⟩ := h
  rw [ends_bind]
  refine check_ends (fun polls => ?_) fun _ _ => nofun
  obtain ⟨planar, hplanar, hlength, hreads'⟩ := planarOf_eq_ok hsound hraw
  have hbytes : ∀ j < header.layout.expected, planar[j]? =
      inflated[unshuffledAt header.layout (planarAt header.layout j)]? :=
    fun j hj => (hreads' j hj).trans (hreads _)
  rw [ends_bind, hplanar, Halting.ends_lift_ok, ends_bind, planesOf_eq_ok hsound hlength,
    Halting.ends_lift_ok]
  refine ⟨⟨hposition, by omega⟩, by simp, inflated, hinflated, hstored, ?_, ?_⟩
  · intro channel hchannel x hx y hy k hk
    have hcell : ((channel * header.layout.height + y) * header.layout.width + x) *
        header.layout.format.bytes + k < header.layout.expected := by
      rw [hsound.expected_eq, Nat.mul_comm header.layout.width, ← Nat.mul_assoc]
      exact cell_lt (cell_lt (cell_lt hchannel hy) hx) hk
    by_contra hout
    unfold positionOf at hout
    have hnone := hbytes _ hcell
    rw [List.getElem?_eq_none (not_lt.mp hout), List.getElem?_eq_none_iff] at hnone
    omega
  · intro channel hchannel
    refine ⟨_, by rw [List.getElem?_map, List.getElem?_range hchannel]; rfl, rfl, rfl, ?_, ?_⟩
    · simp only [samplesFromBytes_eq, len_samplesOf,
        asChunks_planePart hsound hlength hbytes hchannel, List.length_map, List.length_range]
    · simp only [samplesFromBytes_eq, asChunks_planePart hsound hlength hbytes hchannel]

/-! ## The decoder -/

/-- One plane whose copy in `f64` takes `2 ^ 64` bytes or more. -/
def Layout.TooWide {F64 : Type} (layout : Layout F64) : Prop :=
  layout.channels = 1 ∧ wordLimit ≤ layout.width * layout.height * 8

section Decoder

variable {O : Outside} {G : Type} {admission : Footprint → Except PixelError G} {file : Bytes}
  {header : Header O}

theorem admitted_eq (hheader : headerAt O file = some header) :
    (header.layout.TooWide ∧ admitted O admission header = .error .fault) ∨
      ¬header.layout.TooWide ∧ ∃ footprint,
        admitted O admission header = returned (admission footprint) := by
  obtain ⟨hcap, -, hsound⟩ := headerAt_eq_some hheader
  have hplane : header.layout.width * header.layout.height < 2 ^ 32 * 2 ^ 32 :=
    Nat.mul_lt_mul'' hsound.width_lt hsound.height_lt
  have htwice : 16 + 2 * header.xmlLen < wordLimit := by
    simp only [maxHeader, wordLimit] at *
    omega
  unfold admitted
  dsimp only
  rw [mul_eq_ok (by omega)]
  simp only [bind, Except.bind]
  rw [add_eq_ok htwice]
  simp only [Footprint.new, scratchBytes, bind, Except.bind]
  by_cases hone : header.layout.channels = 1
  · rw [if_pos hone, mul_eq_ok (Nat.lt_of_lt_of_eq hplane rfl)]
    simp only
    by_cases hwide : wordLimit ≤ header.layout.width * header.layout.height * 8
    · rw [mul, if_neg (not_lt.mpr hwide)]
      exact .inl ⟨⟨hone, hwide⟩, rfl⟩
    · rw [mul_eq_ok (not_le.mp hwide)]
      exact .inr ⟨fun h => hwide h.2, _, rfl⟩
  · rw [if_neg hone]
    exact .inr ⟨fun h => hone h.1, _, rfl⟩

/-- Where decoding stops it returns an error, and where it succeeds it gives the image of the file,
unless the header describes a plane too wide to count. -/
theorem decode_ends (hnarrow : ∀ header, headerAt O file = some header → ¬header.layout.TooWide)
    (world : Surroundings) (admission : Footprint → Except PixelError G) (polls : Nat) :
    (decode O world admission).Ends
      (fun answer _ => ∃ header, headerAt O file = some header ∧ ImageOf O file header answer.1)
      (fun stop _ => stop ≠ .fault) ⟨file, polls⟩ := by
  unfold decode
  rw [ends_bind]
  refine (readHeader_ends O world file polls).mono (fun header after h => ?_) fun stop _ h => h.1
  obtain ⟨hheader, hrest⟩ := h
  rcases @admitted_eq O G admission file header hheader with ⟨hwide, -⟩ | ⟨-, footprint, hadmitted⟩
  · exact absurd hwide (hnarrow header hheader)
  · rw [ends_bind, hadmitted]
    refine returned_ends (fun grant _ => ?_) fun error _ => nofun
    rw [ends_bind]
    exact (readImage_ends O world hheader hrest).mono (fun image _ h => ⟨header, hheader, h⟩)
      fun stop _ h => h

def quiet : Surroundings := ⟨fun _ => false, fun _ => none, fun _ => true⟩

theorem quiet_quiet : quiet.Quiet := ⟨fun _ => rfl, fun _ => rfl, fun _ => rfl⟩

theorem decode_fault (hheader : headerAt O file = some header) (hwide : header.layout.TooWide)
    (admission : Footprint → Except PixelError G) :
    (decode O quiet admission).Ends (fun _ _ => False) (fun stop _ => stop = .fault) ⟨file, 0⟩ := by
  unfold decode
  rw [ends_bind]
  refine (readHeader_ends O quiet file 0).mono (fun found after h => ?_) fun stop _ h => ?_
  · obtain rfl := Option.some.inj (hheader.symm.trans h.1)
    rcases @admitted_eq O G admission file header hheader with ⟨-, hfault⟩ | ⟨hnarrow, -⟩
    · rw [ends_bind, hfault]
      rfl
    · exact absurd hwide hnarrow
  · have hnone := h.2 quiet_quiet
    rw [hheader] at hnone
    cases hnone

theorem not_faultless (hheader : headerAt O file = some header) (hwide : header.layout.TooWide) :
    ¬∀ (world : Surroundings) (G : Type) (admission : Footprint → Except PixelError G),
      (decode O world admission).Ends
        (fun answer _ => ∃ header, headerAt O file = some header ∧ ImageOf O file header answer.1)
        (fun stop _ => stop ≠ .fault) ⟨file, 0⟩ := by
  intro h
  have hends := h quiet Unit fun _ => .ok ()
  have hfault := decode_fault hheader hwide fun _ => .ok ()
  unfold Ends at hends hfault
  split at hfault
  · exact hfault
  · rename_i stop after hrun
    rw [hrun] at hends
    exact hends hfault

end Decoder

/-- Unshuffling undoes shuffling and deinterleaving undoes interleaving, whatever the lengths. A file
is decoded without a fault, to the image whose samples stand where its header says, in all
surroundings and under every limit of memory, exactly where its header does not describe one plane
whose copy in `f64` takes `2 ^ 64` bytes or more. -/
theorem decode_faultless_iff (O : Outside) :
    (∀ (itemSize : Nat) (bytes : Bytes), 0 < itemSize → bytes.length < wordLimit →
      unshuffle (shuffle itemSize bytes) itemSize = .ok bytes) ∧
    (∀ (channels pixels itemSize : Nat) (planar : Bytes), 0 < channels → 0 < itemSize →
      planar.length = channels * pixels * itemSize → planar.length < wordLimit →
      channels * itemSize < wordLimit →
      deinterleave (interleave channels itemSize planar) channels itemSize = .ok planar) ∧
    ∀ file : Bytes,
      (∀ (world : Surroundings) (G : Type) (admission : Footprint → Except PixelError G),
        (decode O world admission).Ends
          (fun answer _ => ∃ header, headerAt O file = some header ∧ ImageOf O file header answer.1)
          (fun stop _ => stop ≠ .fault) ⟨file, 0⟩) ↔
      ∀ header, headerAt O file = some header → ¬header.layout.TooWide := by
  refine ⟨fun itemSize bytes => unshuffle_shuffle, fun channels pixels itemSize planar hchannels
    hitem hlength => deinterleave_interleave hchannels hitem hlength, fun file => ⟨?_, ?_⟩⟩
  · exact fun h header hheader hwide => not_faultless hheader hwide h
  · intro h world G admission
    exact decode_ends h world admission 0

/-! ## A plane of `(2 ^ 32 - 1) ^ 2` samples -/

/-- The `<Image>` of a header that records `2 ^ 32 - 1` columns and rows. -/
def wideImage : ImageElement where
  attributes name :=
    if name = "geometry".toList then some "4294967295:4294967295:1".toList
    else if name = "sampleFormat".toList then some "UInt8".toList
    else if name = "location".toList then some "attachment:4096:16".toList
    else if name = "compression".toList then some "zlib:18446744065119617025".toList
    else none
  cfa := none

def wideXml : Text :=
  ("<xisf version=\"1.0\"><Image geometry=\"4294967295:4294967295:1\" sampleFormat=\"UInt8\" " ++
    "location=\"attachment:4096:16\" compression=\"zlib:18446744065119617025\"/></xisf>").toList

def wideFile : Bytes :=
  signature ++ [UInt8.ofNat wideXml.length, 0, 0, 0, 0, 0, 0, 0] ++
    wideXml.map fun c => UInt8.ofNat c.toNat

/-- Packages that read this header as it is and inflate nothing. -/
abbrev plainPackages : Outside where
  toFloats := Floats.thousandths
  saturate _ := .ok none
  utf8 bytes := .ok (bytes.map fun byte => Char.ofNat byte.toNat)
  imageElement xml :=
    if xml = wideXml then .ok wideImage
    else .error (unsupportedError "XISF file without an Image element")
  parseF64 _ := none
  zlib _ := .error "corrupt deflate stream".toList
  lz4 _ := .error "expected another byte".toList
  tooSmall _ _ := "provided output is too small".toList
  debug text := String.ofList text


set_option maxRecDepth 8000 in
theorem wideFile_wide : (headerAt plainPackages wideFile).any (fun header =>
    header.layout.channels = 1 && wordLimit ≤ header.layout.width * header.layout.height * 8) =
      true := by
  decide

/-- The scratch memory of this header's plane overflows. -/
theorem wide_file_faults :
    ¬∀ (world : Surroundings) (G : Type) (admission : Footprint → Except PixelError G),
      (decode plainPackages world admission).Ends
        (fun answer _ => ∃ header, headerAt plainPackages wideFile = some header ∧
          ImageOf plainPackages wideFile header answer.1)
        (fun stop _ => stop ≠ .fault) ⟨wideFile, 0⟩ := by
  obtain ⟨header, hheader, hwide⟩ := (Option.any_eq_true _ _).mp wideFile_wide
  rw [Bool.and_eq_true, decide_eq_true_eq, decide_eq_true_eq] at hwide
  exact not_faultless hheader hwide

theorem unshuffles_three_bytes : unshuffle (shuffle 2 [1, 2, 3]) 2 = .ok [1, 2, 3] :=
  (decode_faultless_iff plainPackages).1 2 [1, 2, 3] (by decide) (by decide)

end PlateVault.Pixels
