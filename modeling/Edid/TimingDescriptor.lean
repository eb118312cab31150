import Edid.Descriptor
import Edid.Framing

/-!
# What a descriptor slot emits

* `dtdFields e p s` — the fields `detailedTimingDescriptor` emits for the 18 slot bytes `s` at
  bit `p` in byte order `e`, each value written over the slot bytes: the pixel clock in byte
  order `e`, the ten split values as low byte plus `high bits <<< 8`, the two back porches as
  `uint64` differences, and the sync byte's four bits `3..6` of byte 17 (`dtdSyncFields`).
* `detailedTimingDescriptor_run` — **the closed form**: on every slot inside the frame, the
  decoder completes, emits `dtdFields`, and ends 144 bits on.
* `detailedDescriptor_advances`, `detailedDescriptor_local` — a slot, of either kind, moves the
  cursor 144 bits and reads only its own 18 bytes.
* `detailedDescriptor_timing` — a slot whose first two bytes are not both zero is one struct of
  `dtdFields`, named by `DetailedDescriptor`'s rule;
* `rangeLimits_padding`, `detailedDescriptor_rangeLimits_padding` — the Display Range Limits
  branch asserts the padding in slot bytes 11–17 for every flag byte: its test
  `vtFlags & 1 = 1 ∨ vtFlags & 1 = 0` always holds.
-/

set_option autoImplicit false

namespace Edid

open D Decode

/-- The sync-detail fields of `DetailedTimingDescriptor` for the four sync bits `sync` at `p`. -/
def dtdSyncFields (p sync : Nat) : List Field :=
  [uintField "sync_signal" p 4 (sync &&& 0xc) [uintMapSymStr
    [(0b0000, "analog_composite"), (0b0100, "bipolar_analog_composite"),
     (0b1000, "digital_composite"), (0b1100, "digital_separate")]],
   if sync &&& 0xc = 0b1100 then
     uintField "vsync_polarity" p 4 (sync &&& 0x2) [uintMapSymStr [(0, "negative"), (1, "positive")]]
   else uintField "with_serrations" p 4 (sync &&& 0x2) [uintMapSymBool [(0, false), (1, true)]],
   if sync &&& 0xc = 0b1100 ∨ sync &&& 0xc = 0b1000 then
     uintField "hsync_polarity" p 4 (sync &&& 0x1) [uintMapSymStr [(0, "negative"), (1, "positive")]]
   else uintField "sync_on" p 4 (sync &&& 0x1) [uintMapSymStr [(0, "green_only"), (1, "rgb")]]]

/-- The fields of `DetailedTimingDescriptor` for the slot bytes `s` at bit `p`, byte order `e`. -/
def dtdFields (e : Endian) (p : Nat) (s : List UInt8) : List Field :=
  let b := byteAt s
  let hblank := b 3 + bitsOf (b 4) 4 4 <<< 8
  let vblank := b 6 + bitsOf (b 7) 4 4 <<< 8
  let hfp := b 8 + bitsOf (b 11) 0 2 <<< 8
  let hspw := b 9 + bitsOf (b 11) 2 2 <<< 8
  let vfp := bitsOf (b 10) 0 4 + bitsOf (b 11) 4 2 <<< 8
  let vspw := bitsOf (b 10) 4 4 + bitsOf (b 11) 6 2 <<< 8
  [uintField "pixel_clock" p 16 (endianValue e 16 (b 0 * 256 + b 1))
     [pixelClockMapper, descUintMapper "MHz"],
   uintField "horizontal_addressable_video" (p + 16) 24 (b 2 + bitsOf (b 4) 0 4 <<< 8)
     [descUintMapper "pixels"],
   uintField "horizontal_blanking" (p + 16) 24 hblank [descUintMapper "pixels"],
   uintField "vertical_addressable_video" (p + 40) 24 (b 5 + bitsOf (b 7) 0 4 <<< 8)
     [descUintMapper "lines"],
   uintField "vertical_blanking" (p + 40) 24 vblank [descUintMapper "lines"],
   uintField "horizontal_front_porch" (p + 64) 32 hfp [descUintMapper "pixels"],
   uintField "horizontal_sync_pulse_width" (p + 64) 32 hspw [descUintMapper "pixels"],
   uintField "horizontal_back_porch" (p + 64) 32 (sub64 (sub64 hblank hfp) hspw)
     [descUintMapper "pixels"],
   uintField "vertical_front_porch" (p + 64) 32 vfp [descUintMapper "lines"],
   uintField "vertical_sync_pulse_width" (p + 64) 32 vspw [descUintMapper "lines"],
   uintField "vertical_back_porch" (p + 64) 32 (sub64 (sub64 vblank vfp) vspw)
     [descUintMapper "lines"],
   uintField "horizontal_addressable_video_image_size" (p + 96) 24 (b 12 + bitsOf (b 14) 0 4 <<< 8)
     [descUintMapper "mm"],
   uintField "vertical_addressable_video_image_size" (p + 96) 24 (b 13 + bitsOf (b 14) 4 4 <<< 8)
     [descUintMapper "mm"],
   uintField "horizontal_border_left_right" (p + 120) 8 (b 15) [descUintMapper "mm"],
   uintField "vertical_border_left_right" (p + 128) 8 (b 16) [descUintMapper "mm"],
   uintField "signal_interface_type" (p + 136) 1 (bitsOf (b 17) 0 1)
     [uintMapSymStr [(0, "non-interlaced"), (1, "interlaced")]],
   uintField "stereo_viewing_support" (p + 137) 7 (bitsOf (b 17) 1 7) [stereoMapper]] ++
  dtdSyncFields (p + 139) (bitsOf (b 17) 3 4)

/-- **The closed form of `DetailedTimingDescriptor`** on a slot at byte `i` inside the frame. -/
theorem detailedTimingDescriptor_run (fr : Frame) (i : Nat) (e : Endian)
    (h : 8 * i + 144 ≤ fr.limit) :
    detailedTimingDescriptor fr ⟨8 * i, e⟩ =
      .ok ((), ⟨8 * i + 144, e⟩, dtdFields e (8 * i) (bytesAt fr.buf (8 * i) 18)) := by
  simp only [detailedTimingDescriptor, run_bind]
  -- the reads up to the sync byte
  simp (disch := first | omega | with_unfolding_all rfl) only [fieldU_run, u_run, pos_then,
    uE_then, fieldUE_then, fieldValueUintAddr_then, prepend_prepend, Nat.add_assoc, Nat.reduceAdd]
  -- `SeekRel(-5)`, the four sync bits, `SeekRel(1)`
  simp (disch := omega) only [seekRel_then]
  simp only [Int.reduceToNat, Int.reduceNeg, Int.neg_neg, Nat.add_zero, Nat.reduceSubDiff]
  simp (disch := first | omega | with_unfolding_all rfl) only [pos_then, uE_then, u_run,
    seekRel_then, Int.reduceToNat, Nat.sub_zero, Nat.add_assoc, Nat.reduceAdd,
    Nat.add_sub_add_left, Nat.reduceSub]
  simp only [ite_run, run_bind, fieldValueUintAddr_then, fieldValueUintAddr_run, andThen_ok,
    prepend_ok, prepend_prepend]
  -- the values as slot bytes
  simp (disch := omega) only [readBits_word, readBits_slot_byte]
  simp (disch := omega) only [readBits_slot, Nat.reduceDiv, Nat.reduceMod, endianValue_of_le,
    Nat.add_sub_cancel_left, dtdFields, dtdSyncFields, byteAt_bytesAt, Nat.add_zero]
  simp only [List.cons_append, List.singleton_append, List.nil_append]
  split_ifs <;> rfl

/-- The fields of a timing slot repeat no name, whichever sync fields its sync bits select. -/
theorem dtdFields_nodup (e : Endian) (p : Nat) (s : List UInt8) :
    ((dtdFields e p s).map Field.name).Nodup := by
  simp only [dtdFields, dtdSyncFields, List.map_append, List.map_cons, List.map_nil,
    uintField_name, apply_ite Field.name]
  split_ifs <;> decide

/-! ## The slot decoder -/

theorem detailedDescriptor_advances (name : String) (blockNo : Nat) :
    Advances (detailedDescriptor name blockNo) 144 :=
  (peekUintBits_advances 16).bind fun _ => fieldStruct_advances _ (framedFn_advances _ _)

theorem detailedDescriptor_local (name : String) (blockNo : Nat) {k p : Nat}
    (hp : p + 144 ≤ 8 * k) : LocalAt k (detailedDescriptor name blockNo) p :=
  (peekUintBits_local (by omega)).bind (peekUintBits_advances 16) fun _ =>
    fieldStruct_local _ (framedFn_local _ (by omega))

/-- **A timing slot**: first two bytes not both zero. -/
theorem detailedDescriptor_timing (name : String) (blockNo : Nat) {fr : Frame} {i : Nat}
    (e : Endian) (h : 8 * i + 144 ≤ fr.limit)
    (hs : byteAt fr.buf i ≠ 0 ∨ byteAt fr.buf (i + 1) ≠ 0) :
    detailedDescriptor name blockNo fr ⟨8 * i, e⟩ =
      .ok ((), ⟨8 * i + 144, e⟩, [.struct (if blockNo > 1 then name ++ "_" ++ toString blockNo
        else name) (dtdFields e (8 * i) (bytesAt fr.buf (8 * i) 18))]) := by
  have hb : readBits fr.buf (8 * i) 16 ≠ 0 := by rw [readBits_word]; omega
  have hl : 8 * i + 144 ≤ (⟨fr.buf.take (i + 18), 8 * i + 144⟩ : Frame).limit := Nat.le_refl _
  have hn := firstRepeat_nil_eq_none.mpr (dtdFields_nodup e (8 * i) (bytesAt fr.buf (8 * i) 18))
  simp only [detailedDescriptor, run_bind, peekUintBits_then (show 8 * i + 16 ≤ fr.limit by omega),
    fieldStruct, framedFn_ok h, show (8 * i + 18 * 8 + 7) / 8 = i + 18 by omega, if_neg hb,
    Nat.reduceMul, ite_run, detailedTimingDescriptor_run _ i e hl, andThen_ok, prepend_ok,
    List.append_nil, bytesAt_take fr.buf (show 8 * i + 8 * 18 ≤ 8 * (i + 18) by omega), hn]

/-! ## Display Range Limits -/

/-- `rangeLimits` asserts the padding for every flag byte: its `vtFlags & 1` test always holds. -/
theorem rangeLimits_padding (flags : Nat) {fr : Frame} {p : Nat} (e : Endian)
    (h : p + 104 ≤ fr.limit)
    (hpad : readBits fr.buf (p + 48) 56 ≠ beBytes [0x0a, 0x20, 0x20, 0x20, 0x20, 0x20, 0x20] 7) :
    rangeLimits flags fr ⟨p, e⟩ = .error (.mapper "padding" "failed to validate raw") := by
  have hv (v : Nat) : (v &&& 0x1 = 0x1 ∨ v &&& 0x1 = 0x0) := by
    rw [Nat.and_one_is_mod]; omega
  simp (disch := first | omega | with_unfolding_all rfl) only [rangeLimits, run_bind, fieldU_run,
    fieldUE_then, Nat.add_assoc, Nat.reduceAdd, hv, if_true, ite_run]
  have ha : assertBitBuf [0x0a, 0x20, 0x20, 0x20, 0x20, 0x20, 0x20]
      (readBits fr.buf (p + 48) 56) 56 = some "failed to validate raw" := by
    simp only [assertBitBuf, List.length_cons, List.length_nil]
    exact if_neg fun h => hpad h.2
  simp (disch := omega) only [fieldRawLen, Int.reduceMul, List.findSome?_cons, ha, if_pos,
    prepend_error]

/-- **A Display Range Limits slot is decoded only with its padding**: whatever its flag byte
(slot byte 10) holds, slot bytes 11–17 other than `0A 20 20 20 20 20 20` abort the decode. -/
theorem detailedDescriptor_rangeLimits_padding (name : String) (blockNo : Nat) {fr : Frame}
    {i : Nat} (e : Endian) (h : 8 * i + 144 ≤ fr.limit) (h0 : byteAt fr.buf i = 0)
    (h1 : byteAt fr.buf (i + 1) = 0)
    (h2 : byteAt fr.buf (i + 2) = 0) (ht : byteAt fr.buf (i + 3) = 0xfd)
    (hpad : bytesAt fr.buf (8 * (i + 11)) 7 ≠ [0x0a, 0x20, 0x20, 0x20, 0x20, 0x20, 0x20]) :
    detailedDescriptor name blockNo fr ⟨8 * i, e⟩ =
      .error (.mapper "padding" "failed to validate raw") := by
  have hb : readBits fr.buf (8 * i) 16 = 0 := by rw [readBits_word, h0, h1]
  have hl : 8 * i + 144 ≤ (⟨fr.buf.take (i + 18), 8 * i + 144⟩ : Frame).limit := Nat.le_refl _
  simp only [detailedDescriptor, run_bind, peekUintBits_then (show 8 * i + 16 ≤ fr.limit by omega),
    fieldStruct, framedFn_ok h, show (8 * i + 18 * 8 + 7) / 8 = i + 18 by omega, hb, if_true,
    Nat.reduceMul, ite_run, displayDescriptor]
  have hid : readBits (fr.buf.take (i + 18)) (8 * i) 24 = 0 := by
    rw [readBits_take _ (by omega), @readBits_bytes _ (8 * i) 3 (by omega)]
    simp [beBytes, h0, h1, h2]
  have htag : readBits (fr.buf.take (i + 18)) (8 * i + 24) 8 = 253 := by
    rw [readBits_take _ (by omega), readBits_slot_byte _ _ (by omega), ← ht]
  have hidA : assertBitBuf [0, 0, 0] (readBits (fr.buf.take (i + 18)) (8 * i) 24) 24 = none := by
    rw [hid]; rfl
  simp (disch := first | omega | with_unfolding_all rfl) only [fieldRawLen, Int.reduceMul,
    List.findSome?_cons, List.findSome?_nil, hidA, Nat.add_le_add_iff_left, Nat.reduceLeDiff,
    if_true, andThen_ok, fieldU_run, fieldUE_then, endianValue_of_le, htag]
  rw [(mapUint_keepsActual ?hk _).1]
  case hk =>
    intro m hm
    simp only [List.mem_cons, List.mem_singleton, List.not_mem_nil, or_false] at hm
    rcases hm with rfl | rfl
    exacts [uintMapDescription_keepsActual _, uintHex_keepsActual]
  have hpad' : readBits (fr.buf.take (i + 18)) (8 * i + 24 + 8 + 8 + 48) 56 ≠
      beBytes [0x0a, 0x20, 0x20, 0x20, 0x20, 0x20, 0x20] 7 := by
    rw [readBits_take _ (by omega), show 8 * i + 24 + 8 + 8 + 48 = 8 * (i + 11) by omega,
      show 56 = 8 * 7 from rfl, ← readBits_bytesAt, @readBits_bytes _ 0 7 rfl]
    exact fun he => hpad (beBytes_inj (by simp) rfl he)
  simp only [mapUint_nil, fieldStruct, prepend_error, andThen_error,
    @rangeLimits_padding _ ⟨fr.buf.take (i + 18), 8 * i + 144⟩ (8 * i + 24 + 8 + 8) e
      (show _ ≤ 8 * i + 144 by omega) hpad']

end Edid
