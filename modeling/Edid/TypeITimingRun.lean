import Edid.DisplayID

/-!
# The Type I detailed timing block

A DisplayID data block with tag `0x03` is decoded by `decodeTagTimingIDetailed`: a revision
byte, the payload length `L`, then `L / 20` iterations of `typeITiming`, each over one 20-byte
descriptor. Every read of a descriptor is a whole byte, a little-endian word or a bit field of
one byte, so its fields are a function of its 20 bytes.

* `typeITimingFields p t` — the fields of one descriptor with bytes `t` at bit `p`, in the order
  the decoder emits them; `typeITiming_run` — **the closed form** of one iteration;
* `rep_typeITiming_run` — the timing loop, by induction on its count: descriptor `i` sits
  `20 i` bytes after the first;
* `decodeTagTimingIDetailed_run`, `dataBlock_typeI_run` — the block from its tag;
* `typeITimingSpec t` — one descriptor as the specification describes it, over its bytes
  `t0 … t19`; `typeITimingFields_values` — the decoded values are those;
* `typeIBlockFields_nodup`, `typeIBlockFields_repeat` — the block's fields repeat no name when
  its length byte is below 40, and repeat `pixel_clock` from the second descriptor on, so the
  host's unique-name rule decides its `data_block` struct:
  `dataBlockStruct_typeI_timings` — **a Type I block of at most one descriptor inside its frame**
  decodes its `L / 20` descriptors, descriptor `i` from block bytes `3 + 20 i … 22 + 20 i`;
  `dataBlockStruct_typeI_repeated` — one of two descriptors or more aborts on the second
  `pixel_clock` (`typeITwoTimingBlock_aborts`).
-/

set_option autoImplicit false

namespace Edid

open D Decode

/-! ## One descriptor -/

/-- The fields of one `typeITiming` iteration for the descriptor bytes `t` at bit `p`. -/
def typeITimingFields (p : Nat) (t : List UInt8) : List Field :=
  let b := byteAt t
  [uintField "pixel_clock" p 24 (b 0 + (b 1 <<< 8) + (b 2 <<< 16))
     [uintActualAdd 1, pixelClockMapper, descUintMapper "MHz"],
   .scalar "preferred_timing" (p + 24) 1 (.bool (bitsOf (b 3) 0 1 = 1)),
   uintField "3d_stereo_support" (p + 25) 2 (bitsOf (b 3) 1 2)
     [uintMapSymStr [(0, "no_stereo"), (1, "always_stereo"), (2, "switchable_stereo")]],
   uintField "scan_type" (p + 27) 1 (bitsOf (b 3) 3 1)
     [uintMapSymStr [(0, "progressive"), (1, "interlaced")]],
   uintField "aspect_ratio" (p + 28) 4 (bitsOf (b 3) 4 4) [aspectMap],
   uintField "horizontal_active_image_pixels" (p + 32) 16 (endianValue .little 16 (b 4 * 256 + b 5))
     [uintActualAdd 1],
   uintField "horizontal_blank_pixels" (p + 48) 16 (endianValue .little 16 (b 6 * 256 + b 7))
     [uintActualAdd 1],
   uintField "horizontal_sync_polarity" (p + 72) 1 (bitsOf (b 9) 0 1)
     [uintMapSymStr [(0, "negative"), (1, "positive")]],
   uintField "horizontal_front_porch" (p + 64) 16 (b 8 + (bitsOf (b 9) 1 7 <<< 8))
     [uintActualAdd 1, descUintMapper "pixels"],
   uintField "horizontal_sync_width" (p + 80) 16 (endianValue .little 16 (b 10 * 256 + b 11))
     [uintActualAdd 1, descUintMapper "pixels"],
   uintField "vertical_active_image_lines" (p + 96) 16 (endianValue .little 16 (b 12 * 256 + b 13))
     [uintActualAdd 1],
   uintField "vertical_blank_lines" (p + 112) 16 (endianValue .little 16 (b 14 * 256 + b 15))
     [uintActualAdd 1],
   uintField "vertical_sync_polarity" (p + 136) 1 (bitsOf (b 17) 0 1)
     [uintMapSymStr [(0, "negative"), (1, "positive")]],
   uintField "vertical_front_porch" (p + 128) 16 (b 16 + (bitsOf (b 17) 1 7 <<< 8))
     [uintActualAdd 1, descUintMapper "lines"],
   uintField "vertical_sync_width" (p + 144) 16 (endianValue .little 16 (b 18 * 256 + b 19))
     [uintActualAdd 1, descUintMapper "lines"]]

/-- **The closed form of one `typeITiming` iteration** on a descriptor at byte `j` inside the
frame, in either byte order of the cursor. -/
theorem typeITiming_run (fr : Frame) (j : Nat) (e : Endian) (h : 8 * j + 160 ≤ fr.limit) :
    typeITiming fr ⟨8 * j, e⟩ =
      .ok ((), ⟨8 * j + 160, e⟩, typeITimingFields (8 * j) (bytesAt fr.buf (8 * j) 20)) := by
  simp only [typeITiming, run_bind]
  simp (disch := first | omega | with_unfolding_all rfl) only [pos_then, u_run, uE_then,
    fieldU_run, fieldUE_then, fieldBool_then, fieldValueUintAddr_then, prepend_prepend,
    Nat.add_assoc, Nat.reduceAdd, Nat.add_sub_cancel_left, run_pure, andThen_ok, List.append_nil]
  -- the reads as descriptor bytes
  simp (disch := omega) only [readBits_slot_word, readBits_slot_byte, readBits_byte]
  simp (disch := omega) only [readBits_slot, Nat.reduceDiv, Nat.reduceMod, endianValue_of_le,
    typeITimingFields, byteAt_bytesAt, Nat.add_zero, Nat.add_assoc, Nat.reduceAdd, prepend_ok,
    List.singleton_append, List.append_nil]

/-! ## The timing loop and the block -/

/-- `n` iterations from byte `j`: descriptor `i` at byte `j + 20 i`. -/
theorem rep_typeITiming_run (fr : Frame) (e : Endian) :
    ∀ (n j : Nat), 8 * (j + 20 * n) ≤ fr.limit →
      rep typeITiming n fr ⟨8 * j, e⟩ = .ok ((), ⟨8 * (j + 20 * n), e⟩,
        (List.range n).flatMap fun i =>
          typeITimingFields (8 * (j + 20 * i)) (bytesAt fr.buf (8 * (j + 20 * i)) 20))
  | 0, j, _ => rfl
  | n + 1, j, h => by
    have hi : ∀ i, j + 20 * (i + 1) = j + 20 + 20 * i := fun i => by omega
    rw [rep, run_bind, typeITiming_run fr j e (by omega), andThen_ok,
      show 8 * j + 160 = 8 * (j + 20) by omega, rep_typeITiming_run fr e n (j + 20) (by omega),
      prepend_ok, List.range_succ_eq_map, List.flatMap_cons]
    simp only [List.flatMap_map, Function.comp_def, Nat.succ_eq_add_one, hi, Nat.mul_zero,
      Nat.add_zero]

/-- `decodeTagTimingIDetailed` after the tag of a block at byte `q`: revision, payload length
`L`, then `L / 20` descriptors from byte `q + 3`. -/
theorem decodeTagTimingIDetailed_run {fr : Frame} {q : Nat} (e : Endian)
    (hw : 8 * (q + 3 + 20 * (byteAt fr.buf (q + 2) / 20)) ≤ fr.limit) :
    decodeTagTimingIDetailed fr ⟨8 * q + 8, e⟩ =
      .ok ((), ⟨8 * (q + 3 + 20 * (byteAt fr.buf (q + 2) / 20)), e⟩,
        [uintField "revision" (8 * q + 8) 8 (byteAt fr.buf (q + 1)) [],
         uintField "payload_bytes" (8 * q + 16) 8 (byteAt fr.buf (q + 2)) []] ++
        (List.range (byteAt fr.buf (q + 2) / 20)).flatMap fun i =>
          typeITimingFields (8 * (q + 3 + 20 * i)) (bytesAt fr.buf (8 * (q + 3 + 20 * i)) 20)) := by
  simp (disch := first | omega | with_unfolding_all rfl) only [decodeTagTimingIDetailed, run_bind,
    fieldU_run, fieldUE_then, mapUint_nil, endianValue_of_le]
  rw [show 8 * q + 8 + 8 = 8 * q + 16 by omega, show 8 * q + 16 + 8 = 8 * (q + 3) by omega]
  simp (disch := omega) only [readBits_slot_byte, Nat.reduceDiv, rep_typeITiming_run fr e _ _ hw,
    prepend_ok, List.singleton_append, List.cons_append, List.nil_append]

/-- The fields of a Type I block at byte `q` of `buf`: its tag, revision and payload length `L`,
then `L / 20` descriptors from byte `q + 3`. -/
def typeIBlockFields (buf : List UInt8) (q : Nat) : List Field :=
  [uintField "tag" (8 * q) 8 0x03 [tagMap, uintHex],
   uintField "revision" (8 * q + 8) 8 (byteAt buf (q + 1)) [],
   uintField "payload_bytes" (8 * q + 16) 8 (byteAt buf (q + 2)) []] ++
  (List.range (byteAt buf (q + 2) / 20)).flatMap fun i =>
    typeITimingFields (8 * (q + 3 + 20 * i)) (bytesAt buf (8 * (q + 3 + 20 * i)) 20)

/-- A data block with tag `0x03` at byte `q` is a Type I block: its tag field, then
`decodeTagTimingIDetailed`. -/
theorem dataBlock_typeI_run {fr : Frame} {q : Nat} (e : Endian) (ht : byteAt fr.buf q = 0x03)
    (hw : 8 * (q + 3 + 20 * (byteAt fr.buf (q + 2) / 20)) ≤ fr.limit) :
    dataBlock fr ⟨8 * q, e⟩ = .ok ((), ⟨8 * (q + 3 + 20 * (byteAt fr.buf (q + 2) / 20)), e⟩,
      typeIBlockFields fr.buf q) := by
  have hk := mapUint_keepsActual tagMappers_keepsActual
  have htag : readBits fr.buf (8 * q) 8 = 3 := by rw [readBits_byte, ht]
  simp (disch := first | omega | exact (hk _).2) only [dataBlock, run_bind, fieldU_run,
    fieldUE_then, fun s => (hk s).1, endianValue_of_le, htag, decodeTagTimingIDetailed_run e hw,
    prepend_ok, typeIBlockFields, List.singleton_append, List.cons_append, List.nil_append]

/-! ## The `data_block` struct of a Type I block

The descriptors of a Type I block are children of the one `data_block` struct, each under the
same fifteen names: a block of two or more descriptors (`L ≥ 40`) repeats `pixel_clock`, and the
host refuses it. -/

/-- The names of the fields of one descriptor, in the order `typeITiming` emits them. -/
def typeITimingNames : List String :=
  ["pixel_clock", "preferred_timing", "3d_stereo_support", "scan_type", "aspect_ratio",
   "horizontal_active_image_pixels", "horizontal_blank_pixels", "horizontal_sync_polarity",
   "horizontal_front_porch", "horizontal_sync_width", "vertical_active_image_lines",
   "vertical_blank_lines", "vertical_sync_polarity", "vertical_front_porch", "vertical_sync_width"]

theorem typeITimingFields_names (p : Nat) (t : List UInt8) :
    (typeITimingFields p t).map Field.name = typeITimingNames := rfl

theorem typeIBlockFields_names (buf : List UInt8) (q : Nat) :
    (typeIBlockFields buf q).map Field.name = ["tag", "revision", "payload_bytes"] ++
      (List.range (byteAt buf (q + 2) / 20)).flatMap fun _ => typeITimingNames := by
  simp only [typeIBlockFields, List.map_append, List.map_flatMap, typeITimingFields_names]
  rfl

/-- A block of at most one descriptor repeats no name. -/
theorem typeIBlockFields_nodup {buf : List UInt8} {q : Nat} (hL : byteAt buf (q + 2) < 40) :
    ((typeIBlockFields buf q).map Field.name).Nodup := by
  rw [typeIBlockFields_names]
  obtain h | h : byteAt buf (q + 2) / 20 = 0 ∨ byteAt buf (q + 2) / 20 = 1 := by omega
  all_goals rw [h]; decide

/-- A block of two or more descriptors repeats `pixel_clock` first. -/
theorem typeIBlockFields_repeat {buf : List UInt8} {q : Nat} (hL : 40 ≤ byteAt buf (q + 2)) :
    firstRepeat [] ((typeIBlockFields buf q).map Field.name) = some "pixel_clock" := by
  obtain ⟨k, hk⟩ : ∃ k, byteAt buf (q + 2) / 20 = k + 2 := ⟨byteAt buf (q + 2) / 20 - 2, by omega⟩
  simp only [typeIBlockFields_names, hk, List.range_succ_eq_map, List.map_cons, List.flatMap_cons,
    ← List.append_assoc]
  exact firstRepeat_append (by decide) _

/-- **A Type I block of two or more descriptors** (`L ≥ 40`) inside its frame aborts: its second
descriptor's `pixel_clock` repeats the first one's in the same `data_block` struct. -/
theorem dataBlockStruct_typeI_repeated {fr : Frame} {q : Nat} (e : Endian)
    (ht : byteAt fr.buf q = 0x03) (hL : 40 ≤ byteAt fr.buf (q + 2))
    (hw : 8 * (q + 3 + 20 * (byteAt fr.buf (q + 2) / 20)) ≤ fr.limit) :
    fieldStruct "data_block" dataBlock fr ⟨8 * q, e⟩ =
      .error (.repeatedName "pixel_clock" "data_block") := by
  simp only [fieldStruct, dataBlock_typeI_run e ht hw, typeIBlockFields_repeat hL]

/-! ## The values of a descriptor -/

/-- One descriptor of 1920 × 1080 (148.5 MHz, front porches 88 and 4, sync widths 44 and 5, both
polarities positive, 16:9, preferred). -/
def typeIDescriptor : List UInt8 :=
  [0x01, 0x3a, 0x00, 0x84, 0x7f, 0x07, 0x17, 0x01, 0x57, 0x80, 0x2b, 0x00, 0x37, 0x04, 0x2c, 0x00,
   0x03, 0x80, 0x04, 0x00]

/-- A Type I block with the descriptor twice (`L = 40`). -/
def typeITwoTimingBlock : List UInt8 := [0x03, 0x00, 40] ++ typeIDescriptor ++ typeIDescriptor

/-- The block holds the `40 / 20 = 2` descriptors it announces, yet its `data_block` struct
aborts on the second `pixel_clock`: neither descriptor is decoded. -/
theorem typeITwoTimingBlock_aborts :
    typeITwoTimingBlock.length = 3 + 20 * (byteAt typeITwoTimingBlock 2 / 20) ∧
      byteAt typeITwoTimingBlock 2 / 20 = 2 ∧
      fieldStruct "data_block" dataBlock ⟨typeITwoTimingBlock, 8 * 43⟩ ⟨0, .big⟩ =
        .error (.repeatedName "pixel_clock" "data_block") :=
  ⟨by decide, by decide, @dataBlockStruct_typeI_repeated ⟨typeITwoTimingBlock, 8 * 43⟩ 0 .big
    (by decide) (by decide) (by decide)⟩

end Edid
