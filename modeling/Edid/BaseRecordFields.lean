import Edid.Acceptance
import Edid.StandardTimings

/-!
# The fields of a decoded base record

What `decodeEDID` emits at the top level of every buffer it decodes, and the closed form of the
header and of the established timings, the two sections whose values are whole bytes.

* `mapTimings_run` — **the loop of `mapTimings`** reads nothing and emits one `timing` field per
  set bit of its flag byte, lowest first (`timingFields`);
* `decodeEstablishedTimings_run` — bytes 35–37, each through its own table;
* `decodeFileHeader_run` — the header of a frame that starts with the magic (`headerFields`):
  the manufacturer's letters read big endian although the base record is read little endian,
  product code and serial number little endian, and the year named by the week;
* `baseRecordSections_fields` — the six sections of a base record, in order;
* `decodeEDID_fields` — the top-level fields of every decoded buffer: the six sections,
  `extension_count` and `checksum`, then `extensions` exactly when byte 126 is not zero;
* `decodeEDID_header`, `decodeEDID_chromaticityCoordinates`, `decodeEDID_standardTimings` —
  **the header, the chromaticity coordinates and the standard timings of every decoded buffer**.
-/

set_option autoImplicit false

namespace Edid

open D Decode

/-! ## The established timings -/

/-- The `timing` fields `mapTimings` emits for the flag byte `flags`, attributed to bit `p`: one
for each set bit, lowest first, holding the bit's index. -/
def timingFields (flags p : Nat) (sms : List UintMapper) : List Field :=
  ((List.range 8).filter fun i => flags.testBit i).map fun i => uintField "timing" p 8 i sms

theorem shiftRight_and_one_eq_one (flags i : Nat) :
    (flags >>> i &&& 0x1 = 1) ↔ flags.testBit i = true := by
  rw [Nat.testBit_to_div_mod, Nat.and_one_is_mod, Nat.shiftRight_eq_div_pow, decide_eq_true_iff]

/-- The loop of `mapTimings` over any list of bit indices reads nothing and emits the set ones. -/
theorem forM_timing_run (flags p : Nat) (sms : List UintMapper) (fr : Frame) (c : Cursor) :
    ∀ l : List Nat, l.forM (fun i => if flags >>> i &&& 0x1 = 1 then
        fieldValueUintAddr "timing" i p 8 sms else pure ()) fr c =
      .ok ((), c, (l.filter fun i => flags.testBit i).map fun i => uintField "timing" p 8 i sms)
  | [] => rfl
  | i :: l => by
    rw [List.forM_cons', run_bind, ite_run]
    by_cases h : flags.testBit i = true
    · rw [if_pos ((shiftRight_and_one_eq_one flags i).mpr h), fieldValueUintAddr_then,
        forM_timing_run flags p sms fr c l, List.filter_cons_of_pos h]
      rfl
    · rw [if_neg (mt (shiftRight_and_one_eq_one flags i).mp h), run_pure, andThen_ok,
        forM_timing_run flags p sms fr c l, List.filter_cons_of_neg h]
      rfl

theorem mapTimings_run (flags p : Nat) (sms : List UintMapper) (fr : Frame) (c : Cursor) :
    mapTimings flags p sms fr c = .ok ((), c, timingFields flags p sms) :=
  forM_timing_run flags p sms fr c _

/-- **The closed form of `decodeEstablishedTimings`** on the three bytes at byte `i`: for each of
the two established-timing bytes and the manufacturer's byte, one `timing` field per set bit,
lowest first, attributed to its byte and named through that byte's table. -/
theorem decodeEstablishedTimings_run {fr : Frame} {i : Nat} (e : Endian)
    (h : 8 * (i + 3) ≤ fr.limit) :
    decodeEstablishedTimings fr ⟨8 * i, e⟩ = .ok ((), ⟨8 * (i + 3), e⟩,
      timingFields (byteAt fr.buf i) (8 * i) [establishedTimingsIMapper] ++
        timingFields (byteAt fr.buf (i + 1)) (8 * (i + 1)) [establishedTimingsIIMapper] ++
        timingFields (byteAt fr.buf (i + 2)) (8 * (i + 2)) [manufacturerTimingsMapper]) := by
  simp (disch := omega) only [decodeEstablishedTimings, run_bind, pos_then, u_run, uE_then,
    show 8 * i + 8 = 8 * (i + 1) by omega, show 8 * (i + 1) + 8 = 8 * (i + 2) by omega,
    show 8 * (i + 2) + 8 = 8 * (i + 3) by omega, endianValue_of_le, readBits_byte, mapTimings_run,
    andThen_ok, prepend_ok, List.append_assoc]

/-! ## The chromaticity coordinates -/

/-- The `k`-th of the eight coordinates over bytes `i … i + 9`, named `name`: its low two bits
are bits `2 (k mod 4)` and `2 (k mod 4) + 1` (from the top) of byte `i + k / 4`, its high eight
bits byte `i + 2 + k`, and it is attributed to all ten bytes. -/
def chromaticityField (buf : List UInt8) (i : Nat) (name : String) (k : Nat) : Field :=
  .scalar name (8 * i) 80
    (.flt (chromaticity (bitsOf (byteAt buf (i + k / 4)) (2 * (k % 4)) 2) (byteAt buf (i + 2 + k))))

/-- The fields of `decodeChromaticityCoordinates` over bytes `i … i + 9`. -/
def chromaticityFields (buf : List UInt8) (i : Nat) : List Field :=
  [chromaticityField buf i "red_x" 0, chromaticityField buf i "red_y" 1,
    chromaticityField buf i "green_x" 2, chromaticityField buf i "green_y" 3,
    chromaticityField buf i "blue_x" 4, chromaticityField buf i "blue_y" 5,
    chromaticityField buf i "white_x" 6, chromaticityField buf i "white_y" 7]

/-- **The closed form of `decodeChromaticityCoordinates`** on the ten bytes at byte `i`: the
sixteen reads, two bits each from the first two bytes and a byte each from the next eight,
become the eight coordinates of `chromaticityFields`. -/
theorem decodeChromaticityCoordinates_run {fr : Frame} {i : Nat} (e : Endian)
    (h : 8 * (i + 10) ≤ fr.limit) :
    decodeChromaticityCoordinates fr ⟨8 * i, e⟩ =
      .ok ((), ⟨8 * i + 80, e⟩, chromaticityFields fr.buf i) := by
  have h0 : readBits fr.buf (8 * i) 2 = bitsOf (byteAt fr.buf i) 0 2 := by
    simpa using @readBits_slot fr.buf i 0 2 (by omega) (by omega)
  simp (disch := omega) only [decodeChromaticityCoordinates, run_bind, pos_run, u_run, uE_ok,
    andThen_ok, prepend_ok, prepend_nil, fieldValueFltAddr, fieldRange_run, endianValue_of_le,
    Nat.add_assoc, h0, Nat.reduceAdd]
  simp (disch := omega) only [readBits_slot_byte, Nat.reduceDiv, Nat.reduceMod, Nat.reduceAdd]
  simp (disch := omega) only [readBits_slot, Nat.reduceDiv, Nat.reduceMod, Nat.reduceAdd,
    List.nil_append, List.cons_append, Nat.add_sub_cancel_left]
  rfl

/-- The coordinates read their ten bytes only. -/
theorem chromaticityFields_take (buf : List UInt8) {i k : Nat} (hk : i + 10 ≤ k) :
    chromaticityFields (buf.take k) i = chromaticityFields buf i := by
  simp (disch := omega) only [chromaticityFields, chromaticityField, byteAt_take]

/-! ## The header -/

/-- A little-endian read of `k` whole bytes at byte `i`. -/
theorem endianValue_little_bytes (buf : List UInt8) (i k : Nat) :
    endianValue .little (8 * k) (readBits buf (8 * i) (8 * k)) = leBytes (buf.drop i) k := by
  rw [readBits_bytes _ _ (by omega), Nat.mul_div_cancel_left _ (by omega), endianValue]
  split_ifs with h
  · obtain rfl | rfl : k = 0 ∨ k = 1 := by omega
    all_goals simp [beBytes, leBytes]
  · rw [show (8 * k + 7) / 8 = k by omega, reverseBytes_beBytes]

/-- The fields of the header of `buf`: the magic as raw bits, the manufacturer's three letters
read big endian from bytes 8–9, product code and serial number little endian from bytes 10–11
and 12–15, the week (byte 16), the year (byte 17, a model year when the week is `0xff`), version
and revision (bytes 18 and 19). -/
def headerFields (buf : List UInt8) : List Field :=
  [.scalar "identifier" 0 64 (.raw (readBits buf 0 64)),
   uintField "manufacturer_id" 64 16 (byteAt buf 8 * 256 + byteAt buf 9) [manufacturerMapper],
   uintField "manufacturer_product_code" 80 16 (byteAt buf 10 + byteAt buf 11 * 256) [],
   uintField "serial_number" 96 32 (byteAt buf 12 + byteAt buf 13 * 256 + byteAt buf 14 * 65536 +
     byteAt buf 15 * 16777216) [],
   uintField "week_of_manufacture" 128 8 (byteAt buf 16) [],
   uintField (if byteAt buf 16 = 0xff then "year_of_model" else "year_of_manufacture") 136 8
     (byteAt buf 17) [yearMapper],
   uintField "edid_version" 144 8 (byteAt buf 18) [],
   uintField "edid_revision" 152 8 (byteAt buf 19) []]

/-- The header reads its first 20 bytes only. -/
theorem headerFields_take (buf : List UInt8) {k : Nat} (hk : 20 ≤ k) :
    headerFields (buf.take k) = headerFields buf := by
  simp only [headerFields, readBits_take buf (show 0 + 64 ≤ 8 * k by omega),
    byteAt_take buf (show 8 < k by omega), byteAt_take buf (show 9 < k by omega),
    byteAt_take buf (show 10 < k by omega), byteAt_take buf (show 11 < k by omega),
    byteAt_take buf (show 12 < k by omega), byteAt_take buf (show 13 < k by omega),
    byteAt_take buf (show 14 < k by omega), byteAt_take buf (show 15 < k by omega),
    byteAt_take buf (show 16 < k by omega), byteAt_take buf (show 17 < k by omega),
    byteAt_take buf (show 18 < k by omega), byteAt_take buf (show 19 < k by omega)]

/-- **The closed form of `decodeFileHeader`** in little endian on a frame that starts with the
magic: the fields of `headerFields`, and the revision of byte 19 for the sections after it. -/
theorem decodeFileHeader_run (ec : EdidContext) {fr : Frame} (h : 160 ≤ fr.limit)
    (hm : bytesAt fr.buf 0 8 = edidMagic) :
    decodeFileHeader ec fr ⟨0, .little⟩ =
      .ok ({ ec with revision := byteAt fr.buf 19 }, ⟨160, .little⟩, headerFields fr.buf) := by
  have hid : fieldRawLen "identifier" (8 * 8) [assertBitBuf [0x00, 0xff, 0xff, 0xff, 0xff, 0xff,
      0xff, 0x00]] fr ⟨0, .little⟩ = .ok ((), ⟨64, .little⟩,
        [.scalar "identifier" 0 64 (.raw (readBits fr.buf 0 64))]) :=
    @fieldRawLen_assert_ok "identifier" edidMagic fr 0 .little (by simp [edidMagic]; omega) hm
  have hpc : endianValue .little 16 (readBits fr.buf 80 16) =
      byteAt fr.buf 10 + byteAt fr.buf 11 * 256 := by
    rw [show (16 : Nat) = 8 * 2 from rfl, show (80 : Nat) = 8 * 10 from rfl,
      endianValue_little_bytes]
    simp [leBytes]
  have hsn : endianValue .little 32 (readBits fr.buf 96 32) = byteAt fr.buf 12 +
      byteAt fr.buf 13 * 256 + byteAt fr.buf 14 * 65536 + byteAt fr.buf 15 * 16777216 := by
    rw [show (32 : Nat) = 8 * 4 from rfl, show (96 : Nat) = 8 * 12 from rfl,
      endianValue_little_bytes]
    simp [leBytes]
  have hman : endianValue .big 16 (readBits fr.buf 64 16) = byteAt fr.buf 8 * 256 + byteAt fr.buf 9 :=
    readBits_word fr.buf 8
  simp (disch := first | omega | with_unfolding_all rfl) only [decodeFileHeader, run_bind, hid,
    andThen_ok, fieldU_run, fieldUE_then, mapUint_nil, Nat.reduceAdd, hman, hpc, hsn,
    endianValue_of_le, readBits_byte_of_mod, Nat.reduceDiv, ite_run, run_pure, prepend_ok]
  split <;> simp [headerFields, *]

/-! ## The sections of a base record -/

/-- A frame that completed has emitted exactly what its decoder emitted inside it. -/
theorem framedFn_ok_fields {α : Type} {n : Nat} {m : Decode α} {fr : Frame} {c c' : Cursor}
    {a : α} {w : List Field} (h : framedFn n m fr c = .ok (a, c', w)) :
    ∃ c'', m ⟨fr.buf.take ((c.pos + n + 7) / 8), c.pos + n⟩ c = .ok (a, c'', w) := by
  unfold framedFn at h
  split at h
  · rcases hm : m ⟨fr.buf.take ((c.pos + n + 7) / 8), c.pos + n⟩ c with err | ⟨a', c'', w'⟩ <;>
      simp only [hm, Except.ok.injEq, Prod.mk.injEq, reduceCtorEq] at h
    obtain ⟨rfl, -, rfl⟩ := h
    exact ⟨c'', rfl⟩
  · cases h

/-- **The six sections of a base record**, in order: the header in closed form, two structs,
the established and standard timing arrays in closed form, and the struct of the four descriptor
slots. -/
theorem baseRecordSections_fields {buf : List UInt8} {c : Cursor} {ws : List Field}
    (hs : baseRecordSections (root buf) ⟨0, .little⟩ = .ok ((), c, ws)) :
    ∃ w₂ w₆, ws = [.struct "header" (headerFields buf), .struct "basic_display_parameters" w₂,
      .struct "chromaticity_coordinates" (chromaticityFields buf 25),
      .array "established_timings" (timingFields (byteAt buf 35) (8 * 35) [establishedTimingsIMapper] ++
        timingFields (byteAt buf 36) (8 * 36) [establishedTimingsIIMapper] ++
        timingFields (byteAt buf 37) (8 * 37) [manufacturerTimingsMapper]),
      .array "standard_timings" (standardTimingEntries (bytesAt buf (8 * 38) 8) (8 * 38) ++
        standardTimingEntries (bytesAt buf (8 * 46) 8) (8 * 38 + 64)),
      .struct "detailed_timings" w₆] ∧
      ∃ ec c₂, decodeBasicDisplayParameters ⟨byteAt buf 19, false⟩ ⟨buf.take 25, 8 * 25⟩
        ⟨8 * 20, .little⟩ = .ok (ec, c₂, w₂) := by
  obtain ⟨_, w₁, _, h₁, hs₁, rfl⟩ := (framedFn_advances _ _).bind_ok hs
  obtain ⟨_, w₂, _, h₂, hs₂, rfl⟩ := (framedFn_advances _ _).bind_ok hs₁
  obtain ⟨_, w₃, _, h₃, hs₃, rfl⟩ := (framedFn_advances _ _).bind_ok hs₂
  obtain ⟨_, w₄, _, h₄, hs₄, rfl⟩ := (framedFn_advances _ _).bind_ok hs₃
  obtain ⟨_, w₅, w₆, h₅, h₆, rfl⟩ := (framedFn_advances _ _).bind_ok hs₄
  obtain ⟨_, h₁⟩ := framedFn_ok_fields h₁
  obtain ⟨_, h₂⟩ := framedFn_ok_fields h₂
  obtain ⟨_, h₃⟩ := framedFn_ok_fields h₃
  obtain ⟨_, h₄⟩ := framedFn_ok_fields h₄
  obtain ⟨_, h₅⟩ := framedFn_ok_fields h₅
  obtain ⟨_, w₁, hh, rfl⟩ := fieldStruct_ok_inv h₁
  obtain ⟨_, w₂, hb, rfl⟩ := fieldStruct_ok_inv h₂
  obtain ⟨_, w₃, hc, rfl⟩ := fieldStruct_ok_inv h₃
  obtain ⟨_, w₄, he, -, rfl⟩ := fieldArray_ok_inv h₄
  obtain ⟨_, w₅, hst, -, rfl⟩ := fieldArray_ok_inv h₅
  obtain ⟨_, w₆, -, rfl⟩ := fieldStruct_ok_inv h₆
  -- the header, in the frame of bytes 0–19
  have hm : bytesAt (buf.take 20) 0 8 = edidMagic :=
    @decodeFileHeader_magic _ ⟨buf.take 20, 8 * 20⟩ 0 .little _ _ _ (Nat.le_of_ble_eq_true rfl) hh
  replace hh := (@decodeFileHeader_run _ ⟨buf.take 20, 8 * 20⟩ (Nat.le_of_ble_eq_true rfl)
    hm).symm.trans hh
  -- the coordinates and the two timing areas, in the frames of bytes 0–34, 0–37 and 0–53
  replace hc := (@decodeChromaticityCoordinates_run ⟨buf.take 35, 8 * 35⟩ 25 .little
    (Nat.le_refl _)).symm.trans hc
  replace he := (@decodeEstablishedTimings_run ⟨buf.take 38, 8 * 38⟩ 35 .little
    (Nat.le_refl _)).symm.trans he
  replace hst := (@decodeStandardTimings_run ⟨buf.take 54, 8 * 54⟩ 38 (Nat.le_refl _)).symm.trans hst
  simp only [Except.ok.injEq, Prod.mk.injEq] at hh hc he hst
  obtain ⟨rfl, -, rfl⟩ := hh
  obtain ⟨-, -, rfl⟩ := hc
  obtain ⟨-, -, rfl⟩ := he
  obtain ⟨-, -, rfl⟩ := hst
  rw [byteAt_take buf (show 19 < 20 by omega)] at hb
  simp only [headerFields_take buf (Nat.le_refl 20), chromaticityFields_take buf (Nat.le_refl 35),
    byteAt_take buf (show 35 < 38 by omega),
    byteAt_take buf (show 36 < 38 by omega), byteAt_take buf (show 37 < 38 by omega),
    bytesAt_take buf (show 8 * 38 + 8 * 8 ≤ 8 * 54 by omega),
    bytesAt_take buf (show 8 * (38 + 8) + 8 * 8 ≤ 8 * 54 by omega)]
  exact ⟨w₂, w₆, rfl, _, _, hb⟩

/-- A decode that completed: the six sections, `extension_count` and the checksum, then the
`extensions` array exactly when byte 126 is not zero. -/
theorem decodeEDID_fields {buf : List UInt8} {c : Cursor} {ws : List Field}
    (h : decodeEDID (root buf) start = .ok ((), c, ws)) :
    ∃ cs wsec wext, baseRecordSections (root buf) ⟨0, .little⟩ = .ok ((), cs, wsec) ∧
      ws = wsec ++ [uintField "extension_count" (8 * 126) 8 (byteAt buf 126) [],
        baseChecksumField buf] ++ wext ∧
      (0 < byteAt buf 126 → ∃ w, wext = [.array "extensions" w]) ∧
      (byteAt buf 126 = 0 → wext = []) := by
  simp only [decodeEDID, run_bind] at h
  obtain ⟨N, c₁, w₁, wext, hb, hr, rfl⟩ := andThen_eq_ok h
  obtain ⟨hl, -⟩ := recordAccepted_of_ok hb
  have hb' := hb
  simp only [decodeBaseRecord, run_bind, start, setEndian_run, andThen_ok, prepend_nil] at hb'
  obtain ⟨_, cs, wsec, _, hs, -, -⟩ := andThen_eq_ok hb'
  rw [decodeBaseRecord_run hl hs] at hb
  simp only [Except.ok.injEq, Prod.mk.injEq] at hb
  obtain ⟨rfl, -, rfl⟩ := hb
  refine ⟨cs, wsec, wext, hs, rfl, fun hN => ?_, fun hN => ?_⟩
  · rw [ite_run, if_pos hN] at hr
    obtain ⟨_, w, -, -, rfl⟩ := fieldArray_ok_inv hr
    exact ⟨w, rfl⟩
  · rw [ite_run, if_neg (by omega), run_pure] at hr
    cases hr
    rfl

/-! ## Every decoded buffer -/

/-- A base record with a header (letters `DEL`, product `40a0`, week 30 of 2018, EDID 1.4), a
digital input with no screen size, the chromaticity bytes `ee 91 a3 54 4c 99 26 0f 50 54`, the
established timings `21 08 00`, and zeros elsewhere: four empty display descriptors and no
extension. -/
def sampleHeaderRecord : List UInt8 :=
  [0x00, 0xff, 0xff, 0xff, 0xff, 0xff, 0xff, 0x00, 0x10, 0xac, 0xa0, 0x40, 0x4c, 0x33, 0x32, 0x30,
   0x1e, 0x1c, 0x01, 0x04, 0x80, 0x00, 0x00, 0x78, 0xea, 0xee, 0x91, 0xa3, 0x54, 0x4c, 0x99, 0x26,
   0x0f, 0x50, 0x54, 0x21, 0x08, 0x00] ++ List.replicate 90 0

set_option maxRecDepth 4000 in
theorem sampleHeaderRecord_run :
    ∃ c ws, decodeEDID (root sampleHeaderRecord) start = .ok ((), c, ws) :=
  ⟨_, _, rfl⟩

/-- **The header of every decoded buffer**: the struct `header` holds the fields of
`headerFields` over bytes 0–19. -/
theorem decodeEDID_header {buf : List UInt8} {c : Cursor} {ws : List Field}
    (h : decodeEDID (root buf) start = .ok ((), c, ws)) : .struct "header" (headerFields buf) ∈ ws := by
  obtain ⟨_, _, _, hs, rfl, -⟩ := decodeEDID_fields h
  obtain ⟨_, _, rfl, -⟩ := baseRecordSections_fields hs
  simp

theorem sampleHeaderRecord_header : ∃ c ws, decodeEDID (root sampleHeaderRecord) start =
    .ok ((), c, ws) ∧ .struct "header" (headerFields sampleHeaderRecord) ∈ ws := by
  obtain ⟨c, ws, h⟩ := sampleHeaderRecord_run
  exact ⟨c, ws, h, decodeEDID_header h⟩

/-- **The chromaticity coordinates of every decoded buffer**: the struct
`chromaticity_coordinates` holds the eight coordinates of bytes 25–34 (`chromaticityFields`). -/
theorem decodeEDID_chromaticityCoordinates {buf : List UInt8} {c : Cursor} {ws : List Field}
    (h : decodeEDID (root buf) start = .ok ((), c, ws)) :
    .struct "chromaticity_coordinates" (chromaticityFields buf 25) ∈ ws := by
  obtain ⟨_, _, _, hs, rfl, -⟩ := decodeEDID_fields h
  obtain ⟨_, _, rfl, -⟩ := baseRecordSections_fields hs
  simp

theorem sampleHeaderRecord_chromaticityCoordinates : ∃ c ws,
    decodeEDID (root sampleHeaderRecord) start = .ok ((), c, ws) ∧
      .struct "chromaticity_coordinates" (chromaticityFields sampleHeaderRecord 25) ∈ ws := by
  obtain ⟨c, ws, h⟩ := sampleHeaderRecord_run
  exact ⟨c, ws, h, decodeEDID_chromaticityCoordinates h⟩

/-- **The standard timings of every decoded buffer**: the entries `timingBlock` gives the two
8-byte groups of bytes 38–45 and 46–53, each read as one little-endian value. -/
theorem decodeEDID_standardTimings {buf : List UInt8} {c : Cursor} {ws : List Field}
    (h : decodeEDID (root buf) start = .ok ((), c, ws)) :
    .array "standard_timings" (standardTimingEntries (bytesAt buf (8 * 38) 8) (8 * 38) ++
      standardTimingEntries (bytesAt buf (8 * 46) 8) (8 * 38 + 64)) ∈ ws := by
  obtain ⟨_, _, _, hs, rfl, -⟩ := decodeEDID_fields h
  obtain ⟨_, _, rfl, -⟩ := baseRecordSections_fields hs
  simp

theorem sampleHeaderRecord_standardTimings : ∃ c ws,
    decodeEDID (root sampleHeaderRecord) start = .ok ((), c, ws) ∧
      .array "standard_timings" (standardTimingEntries (List.replicate 8 0) (8 * 38) ++
        standardTimingEntries (List.replicate 8 0) (8 * 38 + 64)) ∈ ws := by
  obtain ⟨c, ws, h⟩ := sampleHeaderRecord_run
  have hs := decodeEDID_standardTimings h
  rw [show bytesAt sampleHeaderRecord (8 * 38) 8 = List.replicate 8 0 from rfl,
    show bytesAt sampleHeaderRecord (8 * 46) 8 = List.replicate 8 0 from rfl] at hs
  exact ⟨c, ws, h, hs⟩

end Edid
