import PlateVault.Pixels.Xisf

/-!
# Byte orders of image data

Shuffling lists the first byte of every item, then the second of every item, and keeps the last
partial item as it is; interleaving lists the samples pixel by pixel. The loops that undo them stay
within their buffers, and put every byte where it stood.
-/

namespace PlateVault.Pixels

open Buffers

variable {bytes : Bytes}

/-! ## Unshuffling -/

/-- Where byte `j` of the plain bytes stands in the shuffled ones. -/
def shuffledAt (itemSize length j : Nat) : Nat :=
  let items := length / itemSize
  if j < items * itemSize then j % itemSize * items + j / itemSize else j

def shuffle (itemSize : Nat) (bytes : Bytes) : Bytes :=
  let items := bytes.length / itemSize
  ((List.range itemSize).flatMap fun byte =>
    (List.range items).map fun i => bytes.getD (i * itemSize + byte) 0) ++
    bytes.drop (items * itemSize)

theorem shuffledAt_cell {itemSize length byte i : Nat} (hbyte : byte < itemSize)
    (hi : i < length / itemSize) :
    shuffledAt itemSize length (i * itemSize + byte) = byte * (length / itemSize) + i := by
  unfold shuffledAt
  simp only
  rw [if_pos (cell_lt hi hbyte), cell_mod hbyte, cell_div hbyte]

theorem shuffledAt_tail {itemSize length j : Nat} (hj : length / itemSize * itemSize ≤ j) :
    shuffledAt itemSize length j = j := if_neg (not_lt.mpr hj)

theorem fills_unshuffle {itemSize : Nat} (hlength : bytes.length < wordLimit) :
    Fills bytes.length (fun j => j < bytes.length / itemSize * itemSize)
      (fun j => bytes[shuffledAt itemSize bytes.length j]?)
      fun out : Bytes => (List.range itemSize).foldlM (fun out byte =>
        (List.range (bytes.length / itemSize)).foldlM (fun out i => do
          let source ← add (← mul byte (bytes.length / itemSize)) i
          let value ← item bytes source
          let target ← add (← mul i itemSize) byte
          (put out target value : Except Stopped Bytes)) out) out := by
  have hwhole : bytes.length / itemSize * itemSize ≤ bytes.length := Nat.div_mul_le_self _ _
  have hstep : ∀ byte ∈ List.range itemSize, ∀ i ∈ List.range (bytes.length / itemSize),
      Fills bytes.length (· = i * itemSize + byte)
        (fun j => bytes[shuffledAt itemSize bytes.length j]?) (fun out : Bytes => do
          let source ← add (← mul byte (bytes.length / itemSize)) i
          let value ← item bytes source
          let target ← add (← mul i itemSize) byte
          (put out target value : Except Stopped Bytes)) := by
    intro byte hbyte i hi
    rw [List.mem_range] at hbyte hi
    have htarget := (cell_lt hi hbyte).trans_le hwhole
    have hsource : byte * (bytes.length / itemSize) + i < bytes.length := by
      have := cell_lt hbyte hi
      rw [Nat.mul_comm itemSize] at this
      omega
    obtain ⟨value, hvalue⟩ : ∃ value, bytes[byte * (bytes.length / itemSize) + i]? = some value :=
      ⟨_, List.getElem?_eq_getElem hsource⟩
    refine Fills.bind (mul_eq_ok (by omega)) (Fills.bind (add_eq_ok (by omega))
      (Fills.bind (item_eq_ok hvalue) (Fills.bind (mul_eq_ok (by omega))
        (Fills.bind (add_eq_ok (by omega)) (fills_put htarget ?_)))))
    simp only [shuffledAt_cell hbyte hi, hvalue]
  refine (fills_loop fun byte hbyte => fills_loop (hstep byte hbyte)).of_iff fun j => ?_
  constructor
  · rintro ⟨byte, hbyte, i, hi, rfl⟩
    exact cell_lt (List.mem_range.mp hi) (List.mem_range.mp hbyte)
  · intro hj
    have hpos : 0 < itemSize := by
      rcases Nat.eq_zero_or_pos itemSize with rfl | hpos
      · simp at hj
      · exact hpos
    refine ⟨j % itemSize, List.mem_range.mpr (Nat.mod_lt _ hpos), j / itemSize,
      List.mem_range.mpr ((Nat.div_lt_iff_lt_mul hpos).mpr hj), ?_⟩
    rw [Nat.mul_comm]
    exact (Nat.div_add_mod j itemSize).symm

theorem unshuffle_eq {itemSize : Nat} (hsize : 0 < itemSize) (hlength : bytes.length < wordLimit) :
    ∃ out, unshuffle bytes itemSize = .ok out ∧ out.length = bytes.length ∧
      ∀ j, out[j]? = bytes[shuffledAt itemSize bytes.length j]? := by
  have hwhole : bytes.length / itemSize * itemSize ≤ bytes.length := Nat.div_mul_le_self _ _
  have htail : Fills bytes.length
      (fun j => bytes.length / itemSize * itemSize ≤ j ∧ j < bytes.length)
      (fun j => bytes[shuffledAt itemSize bytes.length j]?) (fun out : Bytes => do
        let whole ← mul (bytes.length / itemSize) itemSize
        let tail ← slice bytes whole bytes.length
        (copyInto out whole bytes.length tail : Except Stopped Bytes)) := by
    refine Fills.bind (mul_eq_ok (by omega)) (Fills.bind (slice_eq_ok hwhole le_rfl)
      (fills_copyInto hwhole le_rfl ?_ fun i hi => ?_))
    · rw [List.length_take, List.length_drop, min_self]
    · rw [shuffledAt_tail (Nat.le_add_right _ _), List.getElem?_take_of_lt hi, List.getElem?_drop]
  obtain ⟨out, hout, houtLength, hwrites⟩ :=
    (fills_unshuffle hlength).andThen htail (List.replicate bytes.length 0) (by simp)
  refine ⟨out, ?_, houtLength, fun j => ?_⟩
  · rw [unshuffle, quot_eq_ok hsize]
    exact hout
  · by_cases hj : j < bytes.length
    · exact (hwrites j).1 (by omega)
    · rw [shuffledAt_tail (hwhole.trans (not_lt.mp hj)), List.getElem?_eq_none (by omega),
        List.getElem?_eq_none (by omega)]

theorem length_shuffle (itemSize : Nat) (bytes : Bytes) :
    (shuffle itemSize bytes).length = bytes.length := by
  have hwhole : bytes.length / itemSize * itemSize ≤ bytes.length := Nat.div_mul_le_self _ _
  unfold shuffle
  simp only
  rw [List.length_append, @length_blocks _ _ (bytes.length / itemSize) _ (by simp), List.length_drop,
    Nat.mul_comm]
  omega

theorem shuffle_shuffledAt {itemSize : Nat} (hsize : 0 < itemSize) (j : Nat) :
    (shuffle itemSize bytes)[shuffledAt itemSize bytes.length j]? = bytes[j]? := by
  have hwhole : bytes.length / itemSize * itemSize ≤ bytes.length := Nat.div_mul_le_self _ _
  have hrow : ∀ byte < itemSize, ((List.range (bytes.length / itemSize)).map fun i =>
      bytes.getD (i * itemSize + byte) 0).length = bytes.length / itemSize := by simp
  have hrows := length_blocks hrow
  unfold shuffle
  simp only
  by_cases hj : j < bytes.length / itemSize * itemSize
  · have hbyte : j % itemSize < itemSize := Nat.mod_lt _ hsize
    have hi : j / itemSize < bytes.length / itemSize := (Nat.div_lt_iff_lt_mul hsize).mpr hj
    have hcell : j = j / itemSize * itemSize + j % itemSize := by
      rw [Nat.mul_comm]
      exact (Nat.div_add_mod j itemSize).symm
    have hat : shuffledAt itemSize bytes.length j =
        j % itemSize * (bytes.length / itemSize) + j / itemSize := if_pos hj
    rw [hat, List.getElem?_append_left (by rw [hrows]; exact cell_lt hbyte hi),
      getElem?_blocks hrow hbyte hi, List.getElem?_map, List.getElem?_range hi]
    simp only [Option.map_some]
    rw [← hcell, List.getD_eq_getElem?_getD, List.getElem?_eq_getElem (by omega)]
    rfl
  · rw [shuffledAt_tail (not_lt.mp hj), List.getElem?_append_right (by rw [hrows, Nat.mul_comm]; omega),
      hrows, List.getElem?_drop]
    rw [Nat.mul_comm itemSize]
    congr 1
    omega

theorem unshuffle_shuffle {itemSize : Nat} (hsize : 0 < itemSize)
    (hlength : bytes.length < wordLimit) : unshuffle (shuffle itemSize bytes) itemSize = .ok bytes := by
  have hsame := length_shuffle itemSize bytes
  obtain ⟨out, hout, -, hwrites⟩ := unshuffle_eq hsize (hsame ▸ hlength)
  rw [hout]
  congr 1
  apply List.ext_getElem?
  intro j
  rw [hwrites j, hsame, shuffle_shuffledAt hsize]

/-! ## Deinterleaving -/

/-- Where byte `j` of planar data stands in interleaved data of so many pixels. -/
def interleavedAt (channels pixels itemSize j : Nat) : Nat :=
  let sample := j / itemSize
  (sample % pixels * channels + sample / pixels) * itemSize + j % itemSize

def interleave (channels itemSize : Nat) (planar : Bytes) : Bytes :=
  let pixels := planar.length / (channels * itemSize)
  (List.range pixels).flatMap fun pixel => (List.range channels).flatMap fun channel =>
    (planar.drop ((channel * pixels + pixel) * itemSize)).take itemSize

theorem interleavedAt_cell {channels pixels itemSize channel pixel k : Nat} (hpixel : pixel < pixels)
    (hk : k < itemSize) :
    interleavedAt channels pixels itemSize ((channel * pixels + pixel) * itemSize + k) =
      (pixel * channels + channel) * itemSize + k := by
  unfold interleavedAt
  simp only
  rw [cell_div hk, cell_mod hk, cell_div hpixel, cell_mod hpixel]

theorem exists_cell {channels pixels itemSize j : Nat} (hj : j < channels * pixels * itemSize) :
    ∃ channel < channels, ∃ pixel < pixels, ∃ k < itemSize,
      j = (channel * pixels + pixel) * itemSize + k := by
  have hitem : 0 < itemSize := by
    rcases Nat.eq_zero_or_pos itemSize with rfl | hpos
    · simp at hj
    · exact hpos
  have hsample : j / itemSize < channels * pixels := (Nat.div_lt_iff_lt_mul hitem).mpr hj
  have hpixels : 0 < pixels := by
    rcases Nat.eq_zero_or_pos pixels with rfl | hpos
    · simp at hsample
    · exact hpos
  refine ⟨j / itemSize / pixels, (Nat.div_lt_iff_lt_mul hpixels).mpr hsample, j / itemSize % pixels,
    Nat.mod_lt _ hpixels, j % itemSize, Nat.mod_lt _ hitem, ?_⟩
  rw [Nat.mul_comm (j / itemSize / pixels), Nat.div_add_mod, Nat.mul_comm, Nat.div_add_mod]

theorem deinterleave_eq {channels pixels itemSize : Nat} (hchannels : 0 < channels)
    (hitem : 0 < itemSize) (hlength : bytes.length = channels * pixels * itemSize)
    (hlimit : bytes.length < wordLimit) (hpixel : channels * itemSize < wordLimit) :
    ∃ out, deinterleave bytes channels itemSize = .ok out ∧ out.length = bytes.length ∧
      ∀ j < bytes.length, out[j]? = bytes[interleavedAt channels pixels itemSize j]? := by
  have hpos : 0 < channels * itemSize := Nat.mul_pos hchannels hitem
  have hpixels : bytes.length / (channels * itemSize) = pixels := by
    rw [hlength, Nat.mul_right_comm, Nat.mul_div_cancel_left pixels hpos]
  have hstep : ∀ pixel ∈ List.range pixels, ∀ channel ∈ List.range channels,
      Fills bytes.length (fun j => (channel * pixels + pixel) * itemSize ≤ j ∧
          j < (channel * pixels + pixel) * itemSize + itemSize)
        (fun j => bytes[interleavedAt channels pixels itemSize j]?) (fun out : Bytes => do
          let source ← mul (← add (← mul pixel channels) channel) itemSize
          let target ← mul (← add (← mul channel pixels) pixel) itemSize
          let part ← slice bytes source (← add source itemSize)
          let finish ← add target itemSize
          (copyInto out target finish part : Except Stopped Bytes)) := by
    intro pixel hpixel channel hchannel
    rw [List.mem_range] at hpixel hchannel
    have htarget : (channel * pixels + pixel) * itemSize + itemSize ≤ bytes.length := by
      rw [hlength, ← Nat.succ_mul]
      exact Nat.mul_le_mul_right itemSize (cell_lt hchannel hpixel)
    have hsource : (pixel * channels + channel) * itemSize + itemSize ≤ bytes.length := by
      rw [hlength, ← Nat.succ_mul, Nat.mul_comm channels]
      exact Nat.mul_le_mul_right itemSize (cell_lt hpixel hchannel)
    have hsample : ∀ n, n * itemSize + itemSize ≤ bytes.length → n < wordLimit := by
      intro n hn
      have := Nat.le_mul_of_pos_right n hitem
      omega
    have hsourceSample := hsample _ hsource
    have htargetSample := hsample _ htarget
    refine Fills.bind (mul_eq_ok (by omega)) (Fills.bind (add_eq_ok hsourceSample)
      (Fills.bind (mul_eq_ok (by omega)) (Fills.bind (mul_eq_ok (by omega))
        (Fills.bind (add_eq_ok htargetSample) (Fills.bind (mul_eq_ok (by omega))
          (Fills.bind (add_eq_ok (by omega)) (Fills.bind (slice_eq_ok (by omega) (by omega))
            (Fills.bind (add_eq_ok (by omega)) (fills_copyInto (by omega) htarget ?_ ?_)))))))))
    · rw [List.length_take, List.length_drop]
      omega
    · intro k hk
      rw [interleavedAt_cell hpixel (by omega), List.getElem?_take_of_lt (by omega),
        List.getElem?_drop]
  obtain ⟨out, hout, houtLength, hwrites⟩ :=
    fills_loop (fun pixel hpixel => fills_loop (hstep pixel hpixel)) (List.replicate bytes.length 0)
      (by simp)
  refine ⟨out, ?_, houtLength, fun j hj => ?_⟩
  · rw [deinterleave, mul_eq_ok hpixel]
    simp only [bind, Except.bind]
    rw [quot_eq_ok hpos, hpixels]
    exact hout
  · apply (hwrites j).1
    obtain ⟨channel, hchannel, pixel, hpixel, k, hk, rfl⟩ := exists_cell (hlength ▸ hj)
    exact ⟨pixel, List.mem_range.mpr hpixel, channel, List.mem_range.mpr hchannel,
      Nat.le_add_right _ _, by omega⟩

section Interleave

variable {channels pixels itemSize : Nat} {planar : Bytes} (hchannels : 0 < channels)
  (hitem : 0 < itemSize) (hlength : planar.length = channels * pixels * itemSize)

include hlength in
theorem length_samples {channel pixel : Nat} (hchannel : channel < channels)
    (hpixel : pixel < pixels) :
    ((planar.drop ((channel * pixels + pixel) * itemSize)).take itemSize).length = itemSize := by
  have hfits : (channel * pixels + pixel) * itemSize + itemSize ≤ planar.length := by
    rw [hlength, ← Nat.succ_mul]
    exact Nat.mul_le_mul_right itemSize (cell_lt hchannel hpixel)
  rw [List.length_take, List.length_drop]
  omega

include hchannels hitem hlength

theorem pixels_of_length : planar.length / (channels * itemSize) = pixels := by
  rw [hlength, Nat.mul_right_comm, Nat.mul_div_cancel_left pixels (Nat.mul_pos hchannels hitem)]

theorem length_interleave : (interleave channels itemSize planar).length = planar.length := by
  unfold interleave
  simp only
  rw [pixels_of_length hchannels hitem hlength, @length_blocks _ _ (channels * itemSize), hlength,
    Nat.mul_left_comm, Nat.mul_assoc]
  intro pixel hpixel
  exact length_blocks fun channel hchannel =>
    length_samples hlength hchannel hpixel

theorem interleave_interleavedAt {j : Nat} (hj : j < planar.length) :
    (interleave channels itemSize planar)[interleavedAt channels pixels itemSize j]? = planar[j]? := by
  obtain ⟨channel, hchannel, pixel, hpixel, k, hk, rfl⟩ := exists_cell (hlength ▸ hj)
  have hsamples : ∀ pixel < pixels, ∀ channel < channels,
      ((planar.drop ((channel * pixels + pixel) * itemSize)).take itemSize).length = itemSize :=
    fun pixel hpixel channel hchannel => length_samples hlength hchannel hpixel
  rw [interleavedAt_cell hpixel hk]
  unfold interleave
  simp only
  have hat : (pixel * channels + channel) * itemSize + k =
      pixel * (channels * itemSize) + (channel * itemSize + k) := by
    rw [Nat.add_mul, Nat.mul_assoc, Nat.add_assoc]
  rw [pixels_of_length hchannels hitem hlength, hat, getElem?_blocks
    (fun pixel hpixel => length_blocks (hsamples pixel hpixel)) hpixel (cell_lt hchannel hk),
    getElem?_blocks (hsamples pixel hpixel) hchannel hk, List.getElem?_take_of_lt hk,
    List.getElem?_drop]

theorem deinterleave_interleave (hlimit : planar.length < wordLimit)
    (hpixel : channels * itemSize < wordLimit) :
    deinterleave (interleave channels itemSize planar) channels itemSize = .ok planar := by
  have hsame := length_interleave hchannels hitem hlength
  obtain ⟨out, hout, houtLength, hreads⟩ := deinterleave_eq hchannels hitem
    (hsame.trans hlength) (hsame ▸ hlimit) hpixel
  rw [hout]
  congr 1
  apply List.ext_getElem?
  intro j
  by_cases hj : j < planar.length
  · rw [hreads j (hsame ▸ hj), interleave_interleavedAt hchannels hitem hlength hj]
  · rw [List.getElem?_eq_none (by omega), List.getElem?_eq_none (by omega)]

end Interleave

end PlateVault.Pixels
