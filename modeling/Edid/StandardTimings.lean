import Edid.BaseRecordRun

/-!
# The standard timing area

`decodeStandardTimings` reads bytes 38–53 as two 64-bit values in the decoder's byte order and
hands each to `timingBlock`. For `i = 3, 2, 1, 0` the closure takes `first` from bits
`8 (2i + 1)` and `second` from bits `8 (2i)` of the value, each masked with `0xf`, and attributes
the entry to slot `blockIdx = 3 - i`.

* `standardTimingFields fStart first second` — the three fields of one `timing` struct;
* `standardTimingEntry g firstBit j` — the entry of slot `j` of the 8-byte group `g` read in
  little endian, as the base record reads it: built from the low four bits of group bytes
  `7 - 2j` and `6 - 2j`, and attributed to group bytes `2j` and `2j + 1`;
* `leBytes_shiftRight_and` — the mask of `timingBlock` on a little-endian value is the low four
  bits of one byte; `timingSlot_run` — one slot emits its struct or nothing;
* `timingBlock_run`, `decodeStandardTimings_run` — **the closed form** on every area in the
  frame;
* `decodeBaseRecord_standardTimings` — a base record that decodes holds the entries of its
  bytes 38–53 as the array `standard_timings`.
-/

set_option autoImplicit false

namespace Edid

open D Decode

/-! ## The entries of one block -/

/-- The fields of one `timing` struct of `timingBlock`, for its `first` and `second` values. -/
def standardTimingFields (fStart first second : Nat) : List Field :=
  [uintField "horizontal_adressable_pixels" fStart 8 first [horizontalAddressablePixelsMapper],
   uintField "aspect_ratio" (fStart + 8) 2 (second >>> 6 &&& 0x3)
     [uintMapSymStr [(0, "16:10"), (1, "4:3"), (2, "5:4"), (3, "16:9")]],
   uintField "refresh_rate" (fStart + 8 + 2) 6 (second &&& 0x3f) [refreshRateMapper]]

/-- What `timingBlock` emits for slot `j` of the little-endian value of the group `g`. -/
def standardTimingEntry (g : List UInt8) (firstBit j : Nat) : List Field :=
  let first := byteAt g (7 - 2 * j) % 16
  let second := byteAt g (6 - 2 * j) % 16
  if first ≠ 1 ∨ second ≠ 1 then
    [.struct "timing" (standardTimingFields (firstBit + j * 16) first second)]
  else []

/-- The entries of the group `g` at `firstBit`, slot by slot. -/
def standardTimingEntries (g : List UInt8) (firstBit : Nat) : List Field :=
  (List.range 4).flatMap (standardTimingEntry g firstBit)

/-- The mask of `timingBlock`: bits `s …` of a little-endian value, masked with `0xf`, are the
low four bits of byte `s / 8`. -/
theorem leBytes_shiftRight_and (g : List UInt8) {s : Nat} (hs : s % 8 = 0) (hlt : s < 64) :
    leBytes g 8 >>> s &&& 0xf = byteAt g (s / 8) % 16 := by
  obtain ⟨j, rfl⟩ : ∃ j, s = 8 * j := ⟨s / 8, by omega⟩
  rw [Nat.shiftRight_eq_div_pow, show (0xf : Nat) = 2 ^ 4 - 1 from rfl,
    Nat.and_pow_two_sub_one_eq_mod, Nat.pow_mul, Nat.mul_div_cancel_left _ (by decide),
    byteAt_eq_le_digit g (show j < 8 by omega)]
  exact (Nat.mod_mod_of_dvd _ (by decide)).symm

/-- One slot of `timingBlock`: a `timing` struct unless both values are `1`, reading nothing. -/
theorem timingSlot_run (first second fStart : Nat) (fr : Frame) (c : Cursor) :
    (if first ≠ 1 ∨ second ≠ 1 then
      fieldStruct "timing" do
        fieldValueUintAddr "horizontal_adressable_pixels" first fStart 8
          [horizontalAddressablePixelsMapper]
        fieldValueUintAddr "aspect_ratio" (second >>> 6 &&& 0x3) (fStart + 8) 2
          [uintMapSymStr [(0, "16:10"), (1, "4:3"), (2, "5:4"), (3, "16:9")]]
        fieldValueUintAddr "refresh_rate" (second &&& 0x3f) (fStart + 8 + 2) 6 [refreshRateMapper]
    else pure ()) fr c =
      .ok ((), c, if first ≠ 1 ∨ second ≠ 1 then
        [.struct "timing" (standardTimingFields fStart first second)] else []) := by
  split_ifs <;> rfl

/-- `timingBlock` reads nothing: on the little-endian value of `g` it emits the entries of `g`. -/
theorem timingBlock_run (g : List UInt8) (firstBit : Nat) (fr : Frame) (c : Cursor) :
    timingBlock (leBytes g 8) firstBit fr c = .ok ((), c, standardTimingEntries g firstBit) := by
  simp (disch := decide) only [timingBlock, List.forM_cons', List.forM_nil', run_bind,
    leBytes_shiftRight_and, Nat.reduceShiftLeft, Nat.reduceAdd, Nat.reduceDiv, Nat.reduceSub,
    Nat.reduceMul, timingSlot_run, andThen_ok, run_pure, prepend_ok, List.append_nil]
  simp only [standardTimingEntries, standardTimingEntry, List.range, List.range.loop,
    List.flatMap, List.map, List.flatten, Nat.reduceMul, Nat.reduceSub, Nat.zero_mul, Nat.one_mul,
    Nat.add_zero, List.append_nil]

/-- **The closed form of `decodeStandardTimings`** on an area at byte `i` inside the frame,
read in little endian. -/
theorem decodeStandardTimings_run {fr : Frame} {i : Nat} (h : 8 * i + 128 ≤ fr.limit) :
    decodeStandardTimings fr ⟨8 * i, .little⟩ = .ok ((), ⟨8 * i + 128, .little⟩,
      standardTimingEntries (bytesAt fr.buf (8 * i) 8) (8 * i) ++
        standardTimingEntries (bytesAt fr.buf (8 * (i + 8)) 8) (8 * i + 64)) := by
  have hle (k : Nat) : endianValue .little 64 (readBits fr.buf (8 * k) 64) =
      leBytes (bytesAt fr.buf (8 * k) 8) 8 := by
    rw [show readBits fr.buf (8 * k) 64 = beBytes (bytesAt fr.buf (8 * k) 8) 8 from
      (readBits_bytesAt fr.buf k 8).symm.trans (@readBits_bytes _ 0 8 rfl)]
    exact reverseBytes_beBytes _ 8
  simp (disch := omega) only [decodeStandardTimings, run_bind, pos_then, u_run, uE_then]
  rw [show 8 * i + 64 = 8 * (i + 8) by omega, hle, hle]
  simp only [timingBlock_run, andThen_ok, prepend_ok, List.append_nil,
    show 8 * (i + 8) + 64 = 8 * i + 128 by omega, show 8 * (i + 8) = 8 * i + 64 by omega]

/-! ## The area of a decoded base record -/

/-- A base record that decodes holds the entries of its bytes 38–53 as `standard_timings`. -/
theorem decodeBaseRecord_standardTimings {buf : List UInt8} {N : Nat} {c : Cursor}
    {ws : List Field} (hl : 128 ≤ buf.length)
    (h : decodeBaseRecord (root buf) start = .ok (N, c, ws)) :
    .array "standard_timings" (standardTimingEntries (bytesAt buf (8 * 38) 8) (8 * 38) ++
      standardTimingEntries (bytesAt buf (8 * 46) 8) (8 * 38 + 64)) ∈ ws := by
  simp only [decodeBaseRecord, run_bind, start, setEndian_run, andThen_ok, prepend_nil] at h
  obtain ⟨_, _, ws₁, _, hs₁, -, rfl⟩ := andThen_eq_ok h
  obtain ⟨_, w₁, _, -, h₁, rfl⟩ := (framedFn_advances _ _).bind_ok hs₁
  obtain ⟨_, w₂, _, -, h₂, rfl⟩ := (framedFn_advances _ _).bind_ok h₁
  obtain ⟨_, w₃, _, -, h₃, rfl⟩ := (framedFn_advances _ _).bind_ok h₂
  obtain ⟨_, w₄, _, -, h₄, rfl⟩ := (framedFn_advances _ _).bind_ok h₃
  obtain ⟨_, w₅, _, h₅, -, rfl⟩ := (framedFn_advances _ _).bind_ok h₄
  have hf : (⟨buf.take 54, 8 * 38 + 128⟩ : Frame).limit ≥ 8 * 38 + 128 := Nat.le_refl _
  rw [show 0 + 20 * 8 + 5 * 8 + 10 * 8 + 3 * 8 = 8 * 38 from rfl,
    framedFn_ok (by simp only [root_limit]; omega)] at h₅
  simp only [root_buf, Nat.reduceMul, Nat.reduceAdd, Nat.reduceDiv, fieldArray,
    decodeStandardTimings_run hf, andThen_ok, prepend_ok, Except.ok.injEq, Prod.mk.injEq] at h₅
  obtain ⟨-, -, rfl⟩ := h₅
  rw [bytesAt_take _ (by omega), bytesAt_take _ (by omega)]
  simp

/-- A record whose standard timing area is the slot `61 3F` followed by seven unused slots
`01 01`. -/
def standardTimingRecord : List UInt8 :=
  [0x00, 0xff, 0xff, 0xff, 0xff, 0xff, 0xff, 0x00] ++ List.replicate 30 0 ++ [0x61, 0x3f] ++
    List.replicate 14 0x01 ++ List.replicate 74 0

set_option maxRecDepth 4000 in
/-- The area `61 3F 01 … 01` yields one entry, attributed to byte 44 and built from the low four
bits of bytes 39 and 38: `first = 15`, `second = 1`. -/
theorem standardTimingRecord_entries :
    ∃ ws, decodeBaseRecord (root standardTimingRecord) start = .ok (0, ⟨8 * 128, .little⟩, ws) ∧
      .array "standard_timings" [.struct "timing" (standardTimingFields (8 * 44) 15 1)] ∈ ws := by
  obtain ⟨ws, hb⟩ : ∃ ws, decodeBaseRecord (root standardTimingRecord) start =
      .ok (0, ⟨8 * 128, .little⟩, ws) := ⟨_, rfl⟩
  exact ⟨ws, hb, decodeBaseRecord_standardTimings (by decide) hb⟩

end Edid
