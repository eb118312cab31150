import Edid.BaseRecordFields
import Edid.ExtensionAcceptance

/-!
# The display descriptors of a decoded base record

The display-descriptor half of `DetailedDescriptor`, in closed form: what a slot whose first two
bytes are zero decodes to, by its tag.

* `rangeLimits_run` — Display Range Limits (`rangeLimitsFields`): the four rates, the pixel
  clock, the flag byte and the padding. `vtFlags&0x1 == 0x1 || vtFlags&0x1 == 0x0` always holds,
  so the `video_timing_data` branch is never taken;
* `rangeLimitsFields_values` — the rates with the offset of 255 the flag bits select, stated
  over `Nat.testBit`;
* `displayDescriptor_run` — the identifier, tag and flag bytes, then the body the tag selects
  (`displayDescriptorBody`): trimmed text for `0xfc`, `0xfe`, `0xff`, range limits for `0xfd`,
  the 13 bytes raw otherwise;
* `decodeEDID_detailedTimings` — **the struct `detailed_timings` of every decoded base record**:
  its four slots, each a display descriptor or a detailed timing (`descriptorStruct`);
* `decodeEDID_rangeLimits` — **the rates of every range-limits descriptor**;
* `extensionEntry_cea` — **every CEA-861 window in closed form** (`ceaFields`), its two slots
  decoded big endian.
-/

set_option autoImplicit false

namespace Edid

open D Decode

/-! ## Display Range Limits -/

/-- The fields of Display Range Limits over the six bytes from byte `i`, with the flag byte
`flags`, and the padding after them. -/
def rangeLimitsFields (buf : List UInt8) (flags i : Nat) : List Field :=
  [uintField "min_vertical_refresh" (8 * i) 8 (byteAt buf i)
    [uintActualAdd (if flags &&& 0x3 = 0x3 then 255 else 0), descUintMapper "Hz"],
   uintField "max_vertical_refresh" (8 * (i + 1)) 8 (byteAt buf (i + 1))
    [uintActualAdd (if flags &&& 0x2 = 0x2 then 255 else 0), descUintMapper "Hz"],
   uintField "min_horizontal_refresh" (8 * (i + 2)) 8 (byteAt buf (i + 2))
    [uintActualAdd (if flags >>> 2 &&& 0x3 = 0x3 then 255 else 0), descUintMapper "kHz"],
   uintField "max_horizontal_refresh" (8 * (i + 3)) 8 (byteAt buf (i + 3))
    [uintActualAdd (if flags >>> 2 &&& 0x2 = 0x2 then 255 else 0), descUintMapper "kHz"],
   uintField "max_pixel_clock" (8 * (i + 4)) 8 (byteAt buf (i + 4))
    [multiUintMapper 10, descUintMapper "MHz"],
   uintField "video_timing_support_flags" (8 * (i + 5)) 8 (byteAt buf (i + 5)) [],
   .scalar "padding" (8 * (i + 6)) 56 (.raw (readBits buf (8 * (i + 6)) 56))]

theorem rangeLimits_run (flags : Nat) {fr : Frame} {i : Nat} (e : Endian)
    (h : 8 * i + 104 ≤ fr.limit) (hpad : bytesAt fr.buf (8 * (i + 6)) 7 = rangeLimitsPadding) :
    rangeLimits flags fr ⟨8 * i, e⟩ =
      .ok ((), ⟨8 * i + 104, e⟩, rangeLimitsFields fr.buf flags i) := by
  have hv (v : Nat) : (v &&& 0x1 = 0x1 ∨ v &&& 0x1 = 0x0) := by
    rw [Nat.and_one_is_mod]; omega
  have ha : assertBitBuf [0x0a, 0x20, 0x20, 0x20, 0x20, 0x20, 0x20]
      (readBits fr.buf (8 * i + 48) 56) 56 = none := by
    rw [show 8 * i + 48 = 8 * (i + 6) by omega]
    exact assertBitBuf_eq_none.mpr hpad
  simp (disch := first | omega | with_unfolding_all rfl) only [rangeLimits, run_bind, fieldU_run,
    fieldUE_then, Nat.add_assoc, Nat.reduceAdd, hv, if_true, ite_run]
  simp (disch := omega) only [fieldRawLen, Int.reduceMul, List.findSome?_cons, List.findSome?_nil,
    ha, if_pos, prepend_ok]
  simp (disch := omega) only [endianValue_of_le, readBits_byte, readBits_slot_byte, Nat.reduceDiv]
  rfl

/-- Bits 0 and 1 both set. -/
theorem and_three_eq_three_iff (x : Nat) : x &&& 3 = 3 ↔ x.testBit 0 ∧ x.testBit 1 := by
  rw [show (3 : Nat) = 2 ^ 2 - 1 from rfl, Nat.and_pow_two_sub_one_eq_mod, Nat.testBit_to_div_mod,
    Nat.testBit_to_div_mod]
  simp only [Nat.reducePow, Nat.reduceSub, Nat.pow_zero, Nat.div_one, Nat.pow_one,
    decide_eq_true_eq]
  omega

/-- Bit 1 set. -/
theorem and_two_eq_two_iff (x : Nat) : x &&& 2 = 2 ↔ x.testBit 1 := by
  have hm : x &&& 2 = x % 4 &&& 2 := by
    rw [← Nat.and_pow_two_sub_one_eq_mod x 2, Nat.and_assoc]
    rfl
  rw [hm, Nat.testBit_to_div_mod, show x / 2 ^ 1 % 2 = x % 4 / 2 by omega]
  obtain h | h | h | h : x % 4 = 0 ∨ x % 4 = 1 ∨ x % 4 = 2 ∨ x % 4 = 3 := by omega
  all_goals rw [h]; decide

/-- The actual values of Display Range Limits: each rate is its byte, plus 255 for the vertical
minimum when bits 0 and 1 of the flags are set, for the vertical maximum when bit 1 is, and for
the horizontal rates by bits 2 and 3 alike; then the pixel clock byte and the flag byte. -/
theorem rangeLimitsFields_values (buf : List UInt8) (flags i : Nat) :
    (rangeLimitsFields buf flags i).map Field.namedValue? = [
      some ("min_vertical_refresh",
        byteAt buf i + if flags.testBit 0 ∧ flags.testBit 1 then 255 else 0),
      some ("max_vertical_refresh", byteAt buf (i + 1) + if flags.testBit 1 then 255 else 0),
      some ("min_horizontal_refresh",
        byteAt buf (i + 2) + if flags.testBit 2 ∧ flags.testBit 3 then 255 else 0),
      some ("max_horizontal_refresh", byteAt buf (i + 3) + if flags.testBit 3 then 255 else 0),
      some ("max_pixel_clock", byteAt buf (i + 4)),
      some ("video_timing_support_flags", byteAt buf (i + 5)),
      none] := by
  have hadd (b : Nat) (hb : b < 256) (P : Prop) [Decidable P] :
      (((b : Int) + if P then 255 else 0) % 2 ^ 64).toNat = b + if P then 255 else 0 := by
    split <;> omega
  simp only [rangeLimitsFields, List.map, Field.namedValue?, uintField, mapUint_uintFn,
    uintActualAdd, descUintMapper, multiUintMapper, mapUint_nil, and_three_eq_three_iff,
    and_two_eq_two_iff, Nat.testBit_shiftRight, hadd _ (byteAt_lt buf _)]

/-! ## The display descriptor -/

/-- The descriptions `DetailedDescriptor` gives the tag of a display descriptor. -/
def displayDescriptorTags : List (Nat × String) :=
  [(0xff, "Display Product Serial Number"), (0xfe, "Alphanumeric Data String (ASCII)"),
   (0xfd, "Display Range Limits"), (0xfc, "Display Product Name"), (0xfb, "Color Point Data"),
   (0xfa, "Standard Timing Identifications"), (0xf9, "Display Color Management (DCM) Data"),
   (0xf8, "CVT 3 Byte Timing Codes"), (0xf7, "Established Timings III"),
   (0x10, "Dummy Descriptor")]

/-- What follows the tag and flag bytes of the display descriptor at byte `i`, by its tag: the
13 bytes of the three text descriptors trimmed of newlines and spaces, the range limits, or the
13 bytes raw under a name the tag picks. -/
def displayDescriptorBody (buf : List UInt8) (i : Nat) : Field :=
  if byteAt buf (i + 3) = 0xfc ∨ byteAt buf (i + 3) = 0xfe ∨ byteAt buf (i + 3) = 0xff then
    .scalar "value" (8 * (i + 5)) 104
      (.str (strActualTrim [0x0a, 0x20] (bytesAt buf (8 * (i + 5)) 13)))
  else if byteAt buf (i + 3) = 0xfd then
    .struct "data" (rangeLimitsFields buf (byteAt buf (i + 4)) (i + 5))
  else
    .scalar (if byteAt buf (i + 3) = 0xfa then "standard_timing_identifiers"
      else if byteAt buf (i + 3) = 0xfb then "color_point" else "manufacturer_tag")
      (8 * (i + 5)) 104 (.raw (readBits buf (8 * (i + 5)) 104))

/-- The fields of the display descriptor of the slot at byte `i`: its identifier, which is zero,
the tag and flag bytes, and the body the tag selects. -/
def displayDescriptorFields (buf : List UInt8) (i : Nat) : List Field :=
  [.scalar "identifer" (8 * i) 24 (.raw 0),
   uintField "tag" (8 * (i + 3)) 8 (byteAt buf (i + 3))
     [uintMapDescription displayDescriptorTags, uintHex],
   uintField "reserved" (8 * (i + 4)) 8 (byteAt buf (i + 4)) [],
   displayDescriptorBody buf i]

theorem displayDescriptor_run {fr : Frame} {i : Nat} (e : Endian) (hl : fr.limit = 8 * i + 144)
    (hid : bytesAt fr.buf (8 * i) 3 = [0, 0, 0])
    (hpad : byteAt fr.buf (i + 3) = 0xfd → bytesAt fr.buf (8 * (i + 11)) 7 = rangeLimitsPadding) :
    displayDescriptor fr ⟨8 * i, e⟩ =
      .ok ((), ⟨8 * i + 144, e⟩, displayDescriptorFields fr.buf i) := by
  have h0 : readBits fr.buf (8 * i) 24 = 0 := by
    rw [show 24 = 8 * 3 from rfl, readBits_eq_beBytes, hid]
    rfl
  rw [displayDescriptor, run_bind, show fieldRawLen "identifer" (3 * 8) [assertBitBuf [0, 0, 0]] fr
    ⟨8 * i, e⟩ = _ from fieldRawLen_assert_ok "identifer" [0, 0, 0] e (by simp; omega) hid, andThen_ok]
  simp (disch := first | omega | with_unfolding_all rfl) only [run_bind, fieldU_run, fieldUE_then,
    mapUint_description_hex_actual, mapUint_nil, endianValue_of_le, List.length_cons,
    List.length_nil, Nat.reduceAdd, Nat.reduceMul, h0]
  simp (disch := omega) only [Nat.add_assoc, Nat.reduceAdd, readBits_slot_byte, Nat.reduceDiv]
  simp only [displayDescriptorFields, displayDescriptorBody]
  generalize byteAt fr.buf (i + 3) = tag at hpad ⊢
  have hraw (name : String) : (bitsLeft >>= fun k => fieldRawLen name k []) fr ⟨8 * i + 40, e⟩ =
      .ok ((), ⟨8 * i + 40 + 104, e⟩, [.scalar name (8 * i + 40) 104
        (.raw (readBits fr.buf (8 * i + 40) 104))]) := by
    rw [run_bind, bitsLeft_then, show (fr.limit : Int) - ↑(8 * i + 40) = ((104 : Nat) : Int) by omega,
      fieldRawLen_ok name (by omega) List.findSome?_nil]
  split
  -- the three text descriptors
  any_goals rw [fieldStr_ok _ _ (by omega)]; rfl
  -- Display Range Limits
  · rw [fieldStruct, show 8 * i + 40 = 8 * (i + 5) by omega, rangeLimits_run _ _ (by omega)
      (by rw [show i + 5 + 6 = i + 11 by omega]; exact hpad rfl)]
    rfl
  -- the raw descriptors
  all_goals rw [hraw]
  · rfl
  · rfl
  · rename_i h252 h254 h255 h253 h250 h251
    rw [if_neg fun h => h.elim h252 fun h => h.elim h254 h255, if_neg h253, if_neg h250, if_neg h251]
    rfl

/-- A display descriptor reads its own 18 bytes only. -/
theorem displayDescriptorFields_take (buf : List UInt8) {i k : Nat} (hk : i + 18 ≤ k) :
    displayDescriptorFields (buf.take k) i = displayDescriptorFields buf i := by
  simp (disch := omega) only [displayDescriptorFields, displayDescriptorBody, rangeLimitsFields,
    byteAt_take, bytesAt_take, readBits_take]

/-- A slot whose first two bytes are zero and that decodes is the struct
`display_descriptor_{blockNo - 1}` of `displayDescriptorFields`. -/
theorem detailedDescriptor_display_fields (name : String) (blockNo : Nat) {fr : Frame} {i : Nat}
    {e : Endian} {c : Cursor} {w : List Field} (h : 8 * i + 144 ≤ fr.limit)
    (h0 : byteAt fr.buf i = 0) (h1 : byteAt fr.buf (i + 1) = 0)
    (hr : detailedDescriptor name blockNo fr ⟨8 * i, e⟩ = .ok ((), c, w)) :
    w = [.struct ("display_descriptor_" ++ toString (blockNo - 1)) (displayDescriptorFields fr.buf i)] := by
  obtain ⟨h2, hpad⟩ := slotAccepted_of_ok h hr h0 h1
  have hs := @displayDescriptor_run ⟨fr.buf.take (i + 18), 8 * i + 144⟩ i e rfl
    ((bytesAt_identifier (by omega)).mpr ⟨h0, h1, h2⟩)
    fun ht => by rw [bytesAt_take _ (by omega)]; exact hpad (by rwa [byteAt_take _ (by omega)] at ht)
  rw [detailedDescriptor_display name blockNo e h h0 h1, hs] at hr
  simp only [Except.ok.injEq, Prod.mk.injEq] at hr
  rw [← hr.2.2, displayDescriptorFields_take _ (Nat.le_refl _)]

/-! ## The four slots -/

/-- The struct `DetailedDescriptor name blockNo` gives the slot at byte `i` once it decodes: a
display descriptor when its first two bytes are zero, a detailed timing in byte order `e`
otherwise, named by the rule of `DetailedDescriptor`. -/
def descriptorStruct (buf : List UInt8) (e : Endian) (name : String) (blockNo i : Nat) : Field :=
  if byteAt buf i = 0 ∧ byteAt buf (i + 1) = 0 then
    .struct ("display_descriptor_" ++ toString (blockNo - 1)) (displayDescriptorFields buf i)
  else
    .struct (if blockNo > 1 then name ++ "_" ++ toString blockNo else name)
      (dtdFields e (8 * i) (bytesAt buf (8 * i) 18))

/-- A slot that decodes is its `descriptorStruct`. -/
theorem detailedDescriptor_ok_fields (name : String) (blockNo : Nat) {fr : Frame} {i : Nat}
    {e : Endian} {c : Cursor} {w : List Field} (h : 8 * i + 144 ≤ fr.limit)
    (hr : detailedDescriptor name blockNo fr ⟨8 * i, e⟩ = .ok ((), c, w)) :
    w = [descriptorStruct fr.buf e name blockNo i] := by
  unfold descriptorStruct
  split
  · rename_i hb
    exact detailedDescriptor_display_fields name blockNo h hb.1 hb.2 hr
  · rename_i hb
    rw [detailedDescriptor_timing name blockNo e h (by omega)] at hr
    cases hr
    rfl

/-- The four slots of a completed run from byte 54, in the order `decodeEDID` decodes them. -/
theorem descriptorSlots_fields {fr : Frame} {e : Endian} {c : Cursor} {w : List Field}
    (hl : 8 * 54 + 576 ≤ fr.limit) (h : descriptorSlots fr ⟨8 * 54, e⟩ = .ok ((), c, w)) :
    w = [descriptorStruct fr.buf e "preferred_timing_mode" 1 54,
      descriptorStruct fr.buf e "detailed_timing_descriptor" 2 72,
      descriptorStruct fr.buf e "detailed_timing_descriptor" 3 90,
      descriptorStruct fr.buf e "detailed_timing_descriptor" 4 108] := by
  obtain ⟨_, w₀, _, h₀, r₁, rfl⟩ := (detailedDescriptor_advances _ _).bind_ok h
  obtain ⟨_, w₁, _, h₁, r₂, rfl⟩ := (detailedDescriptor_advances _ _).bind_ok r₁
  obtain ⟨_, w₂, w₃, h₂, h₃, rfl⟩ := (detailedDescriptor_advances _ _).bind_ok r₂
  rw [detailedDescriptor_ok_fields _ _ (by omega) h₀,
    @detailedDescriptor_ok_fields _ _ fr 72 e _ _ (by omega) h₁,
    @detailedDescriptor_ok_fields _ _ fr 90 e _ _ (by omega) h₂,
    @detailedDescriptor_ok_fields _ _ fr 108 e _ _ (by omega) h₃]
  rfl

/-- A decoded buffer's struct `detailed_timings` is a completed run of `descriptorSlots` from
byte 54, inside the frame. -/
theorem decodeEDID_slots {buf : List UInt8} {c : Cursor} {ws : List Field}
    (h : decodeEDID (root buf) start = .ok ((), c, ws)) :
    ∃ c' w, descriptorSlots (root buf) ⟨8 * 54, .little⟩ = .ok ((), c', w) ∧
      8 * 54 + 576 ≤ (root buf).limit ∧ .struct "detailed_timings" w ∈ ws := by
  simp only [decodeEDID, run_bind] at h
  obtain ⟨_, _, _, _, hb, -, rfl⟩ := andThen_eq_ok h
  obtain ⟨hl, -⟩ := recordAccepted_of_ok hb
  obtain ⟨c', w, hs, hm⟩ := decodeBaseRecord_slots hb
  exact ⟨c', w, hs, by simp only [root_limit]; omega, List.mem_append_left _ hm⟩

/-- **The struct `detailed_timings` of every decoded base record**: the four slots at bytes 54,
72, 90 and 108, each a display descriptor or a detailed timing read in little endian, named
`preferred_timing_mode` and `detailed_timing_descriptor_2` to `_4` (or `display_descriptor_k`). -/
theorem decodeEDID_detailedTimings {buf : List UInt8} {c : Cursor} {ws : List Field}
    (h : decodeEDID (root buf) start = .ok ((), c, ws)) :
    .struct "detailed_timings" [descriptorStruct buf .little "preferred_timing_mode" 1 54,
      descriptorStruct buf .little "detailed_timing_descriptor" 2 72,
      descriptorStruct buf .little "detailed_timing_descriptor" 3 90,
      descriptorStruct buf .little "detailed_timing_descriptor" 4 108] ∈ ws := by
  obtain ⟨_, _, hs, hl, hm⟩ := decodeEDID_slots h
  rwa [descriptorSlots_fields hl hs] at hm

/-- A base record of the magic and zeros whose first slot is the detailed timing of 1920 × 1080
at 148.5 MHz. -/
def timingSlotRecord : List UInt8 :=
  edidMagic ++ List.replicate 46 0 ++ [0x02, 0x3a, 0x80, 0x18, 0x71, 0x38, 0x2d, 0x40, 0x58, 0x2c,
    0x45, 0x00, 0x50, 0x1d, 0x74, 0x00, 0x00, 0x1e] ++ List.replicate 56 0

set_option maxRecDepth 4000 in
theorem timingSlotRecord_detailedTimings : ∃ c ws,
    decodeEDID (root timingSlotRecord) start = .ok ((), c, ws) ∧
      .struct "detailed_timings" [descriptorStruct timingSlotRecord .little "preferred_timing_mode" 1 54,
        descriptorStruct timingSlotRecord .little "detailed_timing_descriptor" 2 72,
        descriptorStruct timingSlotRecord .little "detailed_timing_descriptor" 3 90,
        descriptorStruct timingSlotRecord .little "detailed_timing_descriptor" 4 108] ∈ ws ∧
      Field.uintsNamedList "horizontal_addressable_video"
        (dtdFields .little (8 * 54) (bytesAt timingSlotRecord (8 * 54) 18)) = [1920] ∧
      Field.uintsNamedList "vertical_addressable_video"
        (dtdFields .little (8 * 54) (bytesAt timingSlotRecord (8 * 54) 18)) = [1080] := by
  obtain ⟨c, ws, h⟩ : ∃ c ws, decodeEDID (root timingSlotRecord) start = .ok ((), c, ws) :=
    ⟨_, _, rfl⟩
  exact ⟨c, ws, h, decodeEDID_detailedTimings h, rfl, rfl⟩

/-- **The rates of every range-limits descriptor**: in slot `k` with tag `0xfd`, the struct `data`
holds the four rates, each its byte plus 255 when the flag byte (`58 + 18k`) selects it — the
vertical minimum by bits 0 and 1, the vertical maximum by bit 1, the horizontal ones by bits 2
and 3 alike — then the pixel-clock byte, the video-timing flag byte and the padding. -/
theorem decodeEDID_rangeLimits {buf : List UInt8} {c : Cursor} {ws : List Field}
    (h : decodeEDID (root buf) start = .ok ((), c, ws)) {k : Nat} (hk : k < 4)
    (h0 : byteAt buf (54 + 18 * k) = 0) (h1 : byteAt buf (55 + 18 * k) = 0)
    (ht : byteAt buf (57 + 18 * k) = 0xfd) :
    ∃ w d l, .struct "detailed_timings" w ∈ ws ∧ .struct ("display_descriptor_" ++ toString k) d ∈ w ∧
      .struct "data" l ∈ d ∧ l.map Field.namedValue? = [
        some ("min_vertical_refresh", byteAt buf (59 + 18 * k) +
          if (byteAt buf (58 + 18 * k)).testBit 0 ∧ (byteAt buf (58 + 18 * k)).testBit 1 then 255 else 0),
        some ("max_vertical_refresh", byteAt buf (60 + 18 * k) +
          if (byteAt buf (58 + 18 * k)).testBit 1 then 255 else 0),
        some ("min_horizontal_refresh", byteAt buf (61 + 18 * k) +
          if (byteAt buf (58 + 18 * k)).testBit 2 ∧ (byteAt buf (58 + 18 * k)).testBit 3 then 255 else 0),
        some ("max_horizontal_refresh", byteAt buf (62 + 18 * k) +
          if (byteAt buf (58 + 18 * k)).testBit 3 then 255 else 0),
        some ("max_pixel_clock", byteAt buf (63 + 18 * k)),
        some ("video_timing_support_flags", byteAt buf (64 + 18 * k)),
        none] := by
  obtain ⟨_, w, hs, hl, hw⟩ := decodeEDID_slots h
  have hd : descriptorStruct buf .little
      (if k = 0 then "preferred_timing_mode" else "detailed_timing_descriptor") (k + 1) (54 + 18 * k) ∈ w := by
    rw [descriptorSlots_fields hl hs]
    obtain rfl | rfl | rfl | rfl : k = 0 ∨ k = 1 ∨ k = 2 ∨ k = 3 := by omega
    all_goals simp
  rw [descriptorStruct, if_pos ⟨h0, by rwa [show 54 + 18 * k + 1 = 55 + 18 * k by omega]⟩,
    Nat.add_sub_cancel] at hd
  have hv := rangeLimitsFields_values buf (byteAt buf (58 + 18 * k)) (59 + 18 * k)
  rw [show 59 + 18 * k + 1 = 60 + 18 * k by omega, show 59 + 18 * k + 2 = 61 + 18 * k by omega,
    show 59 + 18 * k + 3 = 62 + 18 * k by omega, show 59 + 18 * k + 4 = 63 + 18 * k by omega,
    show 59 + 18 * k + 5 = 64 + 18 * k by omega] at hv
  refine ⟨w, _, _, hw, hd, ?_, hv⟩
  simp [displayDescriptorFields, displayDescriptorBody, show 54 + 18 * k + 3 = 57 + 18 * k by omega,
    show 54 + 18 * k + 4 = 58 + 18 * k by omega, show 54 + 18 * k + 5 = 59 + 18 * k by omega, ht]

/-- A base record with the header and sections of `sampleHeaderRecord` whose first slot is Display
Range Limits with flags `0F` (every offset), rates 50, 75, 30 and 81, and pixel clock `11`. -/
def sampleRangeLimitsRecord : List UInt8 :=
  sampleHeaderRecord.take 54 ++ [0x00, 0x00, 0x00, 0xfd, 0x0f, 0x32, 0x4b, 0x1e, 0x51, 0x11, 0x00,
    0x0a, 0x20, 0x20, 0x20, 0x20, 0x20, 0x20] ++ List.replicate 56 0

set_option maxRecDepth 4000 in
theorem sampleRangeLimitsRecord_run :
    ∃ c ws, decodeEDID (root sampleRangeLimitsRecord) start = .ok ((), c, ws) :=
  ⟨_, _, rfl⟩

theorem sampleRangeLimitsRecord_rates : ∃ c ws,
    decodeEDID (root sampleRangeLimitsRecord) start = .ok ((), c, ws) ∧ ∃ w d l,
      .struct "detailed_timings" w ∈ ws ∧ .struct "display_descriptor_0" d ∈ w ∧
      .struct "data" l ∈ d ∧ l.map Field.namedValue? = [some ("min_vertical_refresh", 305),
        some ("max_vertical_refresh", 330), some ("min_horizontal_refresh", 285),
        some ("max_horizontal_refresh", 336), some ("max_pixel_clock", 17),
        some ("video_timing_support_flags", 0), none] := by
  obtain ⟨c, ws, h⟩ := sampleRangeLimitsRecord_run
  obtain ⟨w, d, l, hw, hd, hl, hv⟩ := @decodeEDID_rangeLimits _ _ _ h 0 (by decide) rfl rfl rfl
  exact ⟨c, ws, h, w, d, l, hw, hd, hl, hv.trans (by decide)⟩
/-! ## The CEA-861 slots -/

/-- **Every CEA-861 window in closed form**: the entry of an accepted window is the CEA-861 format
around its two slots at the offset `d` (byte 2) and at `d + 18`, both decoded with `blockNo` 1
and in big endian, the byte order a registered format starts with. -/
theorem extensionEntry_cea (k : Nat) {W : List UInt8} (ha : ceaAccepted W) :
    extensionEntry k W = .format "extension" "EDID CEA-861 Series Timing Extension" (8 * (128 * k))
      (ceaFields W [descriptorStruct W .big "third_timing_descriptor" 1 (byteAt W 2)]
        [descriptorStruct W .big "fourth_timing_descriptor" 1 (byteAt W 2 + 18)]) := by
  obtain ⟨_, _, hc, hn⟩ := @decodeCEAExtension_complete ⟨W, 8 * 128⟩ .big rfl ha
  obtain ⟨htag, h4, h91, hs₁, hs₂, -⟩ := ha
  obtain ⟨_, w₁, h₁⟩ := @detailedDescriptor_ok "third_timing_descriptor" 1 ⟨W, 8 * 128⟩
    (byteAt W 2) .big (by dsimp only; omega) hs₁
  obtain ⟨_, w₂, h₂⟩ := @detailedDescriptor_ok "fourth_timing_descriptor" 1 ⟨W, 8 * 128⟩
    (byteAt W 2 + 18) .big (by dsimp only; omega) hs₂
  obtain rfl := detailedDescriptor_ok_fields _ _ (by dsimp only; omega) h₁
  obtain rfl := detailedDescriptor_ok_fields _ _ (by dsimp only; omega) h₂
  rw [show 8 * (byteAt W 2 + 18) = 8 * byteAt W 2 + 144 by omega] at h₂
  have hr := decodeCEAExtension_run .big rfl htag h4 h91 h₁ h₂
  cases hr.symm.trans hc
  simp only [extensionEntry, decodeGroup, edidExtensionGroup, hr, firstRepeat_nil_eq_none.mpr hn]

/-- A CEA-861 window with offset 4 whose first slot holds the detailed timing of 1920 × 1080 at
148.5 MHz and whose second slot is an empty display descriptor. -/
def timingCeaWindow : List UInt8 :=
  [0x02, 0x03, 0x04, 0x00, 0x02, 0x3a, 0x80, 0x18, 0x71, 0x38, 0x2d, 0x40, 0x58, 0x2c, 0x45, 0x00,
    0x50, 0x1d, 0x74, 0x00, 0x00, 0x1e] ++ List.replicate 106 0

/-- The window's entry, and its pixel clock read big endian: `0x023a`, not the `0x3a02` (148.5
MHz in units of 10 kHz) the base record would read. -/
theorem timingCeaWindow_entry : ceaAccepted timingCeaWindow ∧
    extensionEntry 1 timingCeaWindow = .format "extension" "EDID CEA-861 Series Timing Extension"
      (8 * 128) (ceaFields timingCeaWindow
        [descriptorStruct timingCeaWindow .big "third_timing_descriptor" 1 4]
        [descriptorStruct timingCeaWindow .big "fourth_timing_descriptor" 1 22]) ∧
    Field.uintsNamedList "pixel_clock"
      (dtdFields .big (8 * 4) (bytesAt timingCeaWindow (8 * 4) 18)) = [0x023a] :=
  ⟨by decide, extensionEntry_cea 1 (by decide), rfl⟩

end Edid
