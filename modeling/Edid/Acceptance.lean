import Edid.Completes
import Edid.AspectRatio
import Edid.DisplayIDSection

/-!
# Which buffers `decodeEDID` accepts

`decodeEDID` aborts at three assertions only, and otherwise when the buffer is too short:

* the magic `00 FF FF FF FF FF FF 00` of `decodeFileHeader` (`edidMagic`);
* the zero identifier byte of a display descriptor (`DetailedDescriptor`, bytes 0–2 of a slot
  whose first two bytes are zero);
* the padding `0A 20 20 20 20 20 20` of a Display Range Limits descriptor (tag `0xfd`), which
  `rangeLimits` asserts whatever the flag byte holds.

Every other section completes on every byte: its mappers cannot fail, and the one possible
panic, the division in `aspectRatioDenominator`, cannot happen (`aspectRatio_isSome`).
Extension windows never fail: a window no format completes on is kept raw.

* `slotAccepted`, `recordAccepted` — the conditions, as decidable predicates on the buffer;
* `baseStructs_unique`, `displayDescriptor_unique`, `descriptorSlots_unique` — no struct of the
  base record repeats a child name, whatever the bytes, so the host's unique-name rule never
  refuses a base record; `detailedDescriptor_name` — a slot's struct is named by its kind;
* `detailedDescriptor_ok`, `slotAccepted_of_ok` — a slot completes exactly when accepted;
* `decodeFileHeader_ok`, `decodeFileHeader_magic` — the header completes exactly on the magic;
* `baseSections_complete` — the four other framed sections complete on any bytes;
* `decodeBaseRecord_accepts`, `decodeEDID_accepts` — **the acceptance conditions** of the base
  record and of the whole decode, for every buffer.
-/

set_option autoImplicit false

namespace Edid

open D Decode

/-! ## The asserted bytes -/

/-- The eight bytes `decodeFileHeader` asserts at the start of the base record. -/
def edidMagic : List UInt8 := [0x00, 0xff, 0xff, 0xff, 0xff, 0xff, 0xff, 0x00]

/-- The padding `rangeLimits` asserts in bytes 11–17 of a Display Range Limits slot. -/
def rangeLimitsPadding : List UInt8 := [0x0a, 0x20, 0x20, 0x20, 0x20, 0x20, 0x20]

/-- Whether `DetailedDescriptor` accepts the 18-byte slot at byte `i`: a display descriptor (first
two bytes zero) must have a zero third byte, and one of tag `0xfd` its padding. -/
def slotAccepted (buf : List UInt8) (i : Nat) : Prop :=
  byteAt buf i = 0 → byteAt buf (i + 1) = 0 →
    byteAt buf (i + 2) = 0 ∧
      (byteAt buf (i + 3) = 0xfd → bytesAt buf (8 * (i + 11)) 7 = rangeLimitsPadding)

instance (buf : List UInt8) (i : Nat) : Decidable (slotAccepted buf i) :=
  inferInstanceAs (Decidable (_ → _ → _ ∧ (_ → _)))

/-- Whether the base record of `buf` is accepted: its magic, and its four descriptor slots at
bytes `54 + 18 k`. -/
def recordAccepted (buf : List UInt8) : Prop :=
  bytesAt buf 0 8 = edidMagic ∧ ∀ k, k < 4 → slotAccepted buf (54 + 18 * k)

instance (buf : List UInt8) : Decidable (recordAccepted buf) :=
  inferInstanceAs (Decidable (_ ∧ _))

theorem readBits_eq_beBytes (buf : List UInt8) (i n : Nat) :
    readBits buf (8 * i) (8 * n) = beBytes (bytesAt buf (8 * i) n) n := by
  rw [← readBits_bytesAt, @readBits_bytes _ 0 n rfl]
  rfl

/-- `AssertBitBuf` over whole bytes holds exactly on the asserted bytes. -/
theorem assertBitBuf_eq_none {bs buf : List UInt8} {i : Nat} :
    assertBitBuf bs (readBits buf (8 * i) (8 * bs.length)) (8 * bs.length) = none ↔
      bytesAt buf (8 * i) bs.length = bs := by
  rw [readBits_eq_beBytes, assertBitBuf]
  constructor
  · intro h
    by_contra hne
    rw [if_neg fun h' => hne (beBytes_inj (by simp) rfl h'.2)] at h
    cases h
  · intro h
    rw [h, if_pos ⟨rfl, rfl⟩]

/-- An assertion over whole bytes passes on the asserted bytes. -/
theorem fieldRawLen_assert_ok (name : String) (bs : List UInt8) {fr : Frame} {i : Nat} (e : Endian)
    (h : 8 * i + 8 * bs.length ≤ fr.limit) (hb : bytesAt fr.buf (8 * i) bs.length = bs) :
    fieldRawLen name ((8 * bs.length : Nat) : Int) [assertBitBuf bs] fr ⟨8 * i, e⟩ =
      .ok ((), ⟨8 * i + 8 * bs.length, e⟩,
        [.scalar name (8 * i) (8 * bs.length) (.raw (readBits fr.buf (8 * i) (8 * bs.length)))]) :=
  fieldRawLen_ok name h (by rw [List.findSome?_cons, assertBitBuf_eq_none.mpr hb]; rfl)

/-- An assertion over whole bytes fails on any other bytes. -/
theorem fieldRawLen_assert_error (name : String) (bs : List UInt8) {fr : Frame} {i : Nat}
    (e : Endian) (h : 8 * i + 8 * bs.length ≤ fr.limit) (hb : bytesAt fr.buf (8 * i) bs.length ≠ bs) :
    fieldRawLen name ((8 * bs.length : Nat) : Int) [assertBitBuf bs] fr ⟨8 * i, e⟩ =
      .error (.mapper name "failed to validate raw") := by
  have ha : assertBitBuf bs (readBits fr.buf (8 * i) (8 * bs.length)) (8 * bs.length) =
      some "failed to validate raw" := by
    rw [assertBitBuf, if_neg]
    exact fun h' => hb (assertBitBuf_eq_none.mp (by rw [assertBitBuf, if_pos h']))
  simp [fieldRawLen, h, ha]

/-- The first three bytes of a slot, read inside its frame, are zero. -/
theorem bytesAt_identifier {buf : List UInt8} {i k : Nat} (hk : i + 3 ≤ k) :
    bytesAt (buf.take k) (8 * i) 3 = [0, 0, 0] ↔
      byteAt buf i = 0 ∧ byteAt buf (i + 1) = 0 ∧ byteAt buf (i + 2) = 0 := by
  have hb (j : Nat) (hj : j < 3) :
      byteAt (bytesAt (buf.take k) (8 * i) 3) j = byteAt buf (i + j) := by
    rw [byteAt_bytesAt _ i 3 j hj, byteAt_take _ (by omega)]
  constructor
  · intro he
    refine ⟨?_, ?_, ?_⟩
    · simpa [he] using (hb 0 (by decide)).symm
    · simpa [he] using (hb 1 (by decide)).symm
    · simpa [he] using (hb 2 (by decide)).symm
  · rintro ⟨h0, h1, h2⟩
    refine (@bytesAt_eq_of_window (buf.take k) [0, 0, 0] i 0 3 fun j hj => ?_).trans rfl
    rw [byteAt_take _ (by omega)]
    obtain rfl | rfl | rfl : j = 0 ∨ j = 1 ∨ j = 2 := by omega
    exacts [h0, h1, h2]

/-! ## The names of the base record's structs

The host refuses a struct with two children of one name; no struct of the base record has
them, whatever the bytes. Each body's names are one of the lists its branches give
(`NamesOneOf`), and `decide` checks that none of them repeats a name. -/

/-- **The header, the basic display parameters and the chromaticity coordinates repeat no
name.** -/
theorem baseStructs_unique (ec : EdidContext) :
    UniqueNames (decodeFileHeader ec) ∧ UniqueNames (decodeBasicDisplayParameters ec) ∧
      UniqueNames decodeChromaticityCoordinates := by
  refine ⟨?_, ?_, ?_⟩ <;> apply NamesOneOf.unique <;> first
    | unfold decodeFileHeader | unfold decodeBasicDisplayParameters
    | unfold decodeChromaticityCoordinates | skip
  all_goals repeat' first
    | with_reducible apply NamesOneOf.bind
    | with_reducible apply NamesOneOf.ite
    | with_reducible exact NamesOneOf.pure _
    | with_reducible exact pos_names
    | with_reducible exact u_names _
    | with_reducible exact orPanic_names _
    | with_reducible exact fieldU_names _ _ _
    | with_reducible exact fieldUE_names _ _ _ _
    | with_reducible exact fieldBool_names _
    | with_reducible exact fieldRawLen_names _ _ _
    | with_reducible exact fieldValueStr_names _ _
    | with_reducible exact fieldValueFltAddr_names _ _ _ _
    | decide
    | intro _

/-- The `data` struct of a Display Range Limits descriptor repeats no name. -/
theorem rangeLimits_unique (flags : Nat) : UniqueNames (rangeLimits flags) := by
  apply NamesOneOf.unique
  · unfold rangeLimits
    repeat' first
      | with_reducible apply NamesOneOf.bind
      | with_reducible apply NamesOneOf.ite
      | with_reducible exact fieldU_names _ _ _
      | with_reducible exact fieldRawLen_names _ _ _
      | with_reducible exact NamesOneOf.pure _
      | intro _
  · decide

/-- A display descriptor repeats no name: whatever its tag, its body is one field. -/
theorem displayDescriptor_unique : UniqueNames displayDescriptor := by
  refine NamesOneOf.unique (((fieldRawLen_names _ _ _).bind fun _ => (fieldU_names _ _ _).bind
    fun tag => (fieldU_names _ _ _).bind fun _ => (?_ : NamesOneOf [["value"], ["data"],
      ["standard_timing_identifiers"], ["color_point"], ["manufacturer_tag"]] _))) (by decide)
  split
  any_goals exact (fieldStr_names _ _ _).mono (by decide)
  any_goals exact (fieldStruct_names _ _).mono (by decide)
  all_goals exact (bitsLeft_names.bind fun _ => fieldRawLen_names _ _ _).mono (by decide)

/-- A slot is the struct of a display descriptor or of a timing, named by its number. -/
theorem detailedDescriptor_names (name : String) (blockNo : Nat) :
    NamesOneOf [["display_descriptor_" ++ toString (blockNo - 1)],
      [if blockNo > 1 then name ++ "_" ++ toString blockNo else name]]
      (detailedDescriptor name blockNo) := by
  unfold detailedDescriptor
  exact (peekUintBits_names 16).bind_silent fun _ => (fieldStruct_names _ _).mono (by split_ifs <;> simp)

/-- The struct a slot decodes to is named by its kind, read from its first two bytes. -/
theorem detailedDescriptor_name {name : String} {blockNo : Nat} {fr : Frame} {i : Nat} {e : Endian}
    {c : Cursor} {w : List Field} (h : 8 * i + 16 ≤ fr.limit)
    (hr : detailedDescriptor name blockNo fr ⟨8 * i, e⟩ = .ok ((), c, w)) :
    w.map Field.name = [if byteAt fr.buf i = 0 ∧ byteAt fr.buf (i + 1) = 0
      then "display_descriptor_" ++ toString (blockNo - 1)
      else if blockNo > 1 then name ++ "_" ++ toString blockNo else name] := by
  rw [detailedDescriptor, run_bind, peekUintBits_then h] at hr
  rw [List.mem_singleton.mp (fieldStruct_names _ _ _ _ _ _ _ hr), readBits_word]
  simp

/-- The four slots of `detailed_timings` have distinct names, whatever their kinds. -/
theorem descriptorSlots_unique : UniqueNames descriptorSlots :=
  ((detailedDescriptor_names _ _).bind fun _ => (detailedDescriptor_names _ _).bind fun _ =>
    (detailedDescriptor_names _ _).bind fun _ => detailedDescriptor_names _ _).unique (by decide)

/-! ## The header -/

/-- **The header completes on a frame that starts with the magic.** -/
theorem decodeFileHeader_ok (ec : EdidContext) {fr : Frame} {i : Nat} (e : Endian)
    (h : 8 * i + 160 ≤ fr.limit) (hm : bytesAt fr.buf (8 * i) 8 = edidMagic) :
    CompletesAt (decodeFileHeader ec) fr ⟨8 * i, e⟩ 160 := by
  rw [decodeFileHeader]
  refine CompletesAt.bind_rest (fieldRawLen_assert_ok "identifier" edidMagic e
    (by simp [edidMagic]; omega) hm) ?_ (by decide) h
  repeat' first
    | with_reducible apply Completes.ite
    | with_reducible apply Completes.bind
    | with_reducible apply fieldUE_completes
    | with_reducible apply fieldU_completes
    | exact Completes.pure _
    | exact fun _ => rfl
    | intro _
    | decide

/-- A header that completes starts with the magic. -/
theorem decodeFileHeader_magic {ec : EdidContext} {fr : Frame} {i : Nat} {e : Endian}
    {r : EdidContext} {c : Cursor} {w : List Field} (hl : 8 * i + 64 ≤ fr.limit)
    (h : decodeFileHeader ec fr ⟨8 * i, e⟩ = .ok (r, c, w)) : bytesAt fr.buf (8 * i) 8 = edidMagic := by
  by_contra hm
  rw [decodeFileHeader, run_bind] at h
  obtain ⟨_, _, _, _, h₁, -⟩ := andThen_eq_ok h
  cases (fieldRawLen_assert_error "identifier" edidMagic e hl hm).symm.trans h₁

/-! ## The sections that always complete -/

/-- The `timingBlock` closure reads nothing: it decodes the slots of a value already read. -/
theorem timingBlock_completes (block firstBit : Nat) : Completes (timingBlock block firstBit) 0 :=
  Completes.forM (fun _ => Completes.ite (fieldStruct_completes _
    ((fieldValueUintAddr_completes _ _ _ _ _).bind (fun _ =>
      (fieldValueUintAddr_completes _ _ _ _ _).bind (fun _ =>
        fieldValueUintAddr_completes _ _ _ _ _) (Nat.le_refl 0)) (Nat.le_refl 0))
    (((fieldValueUintAddr_names _ _ _ _ _).bind fun _ => (fieldValueUintAddr_names _ _ _ _ _).bind
      fun _ => fieldValueUintAddr_names _ _ _ _ _).unique (by decide))) (Completes.pure ())) _

/-- **The basic display parameters, chromaticity coordinates, established and standard timings
complete on any bytes**: none of their mappers fails, and `aspectRatio` never panics. -/
theorem baseSections_complete (ec : EdidContext) :
    Completes (decodeBasicDisplayParameters ec) 40 ∧ Completes decodeChromaticityCoordinates 80 ∧
      Completes decodeEstablishedTimings 24 ∧ Completes decodeStandardTimings 128 := by
  refine ⟨?_, ?_, ?_, ?_⟩ <;> first
    | unfold decodeBasicDisplayParameters | unfold decodeChromaticityCoordinates
    | unfold decodeEstablishedTimings | unfold decodeStandardTimings
  all_goals repeat' first
    | with_reducible apply Completes.ite_bind
    | with_reducible apply Completes.ite
    | with_reducible apply Completes.bind
    | with_reducible apply fieldU_completes
    | with_reducible exact fieldBool_completes _
    | with_reducible exact fieldValueStr_completes _ _
    | with_reducible exact orPanic_completes (aspectRatio_isSome _)
    | with_reducible exact pos_completes
    | with_reducible exact u_completes _
    | with_reducible exact fieldValueFltAddr_completes _ _ _ _
    | with_reducible exact mapTimings_completes _ _ _
    | with_reducible exact timingBlock_completes _ _
    | exact Completes.pure _
    | intro _
    | rfl
    | decide

/-! ## Descriptor slots -/

theorem rangeLimits_ok (flags : Nat) {fr : Frame} {i : Nat} (e : Endian)
    (h : 8 * i + 104 ≤ fr.limit) (hpad : bytesAt fr.buf (8 * (i + 6)) 7 = rangeLimitsPadding) :
    CompletesAt (rangeLimits flags) fr ⟨8 * i, e⟩ 104 := by
  have hv (v : Nat) : (v &&& 0x1 = 0x1 ∨ v &&& 0x1 = 0x0) := by
    rw [Nat.and_one_is_mod]; omega
  have ha : assertBitBuf [0x0a, 0x20, 0x20, 0x20, 0x20, 0x20, 0x20]
      (readBits fr.buf (8 * i + 48) 56) 56 = none := by
    rw [show 8 * i + 48 = 8 * (i + 6) by omega]
    exact assertBitBuf_eq_none.mpr hpad
  unfold CompletesAt
  simp (disch := first | omega | with_unfolding_all rfl) only [rangeLimits, run_bind, fieldU_run,
    fieldUE_then, Nat.add_assoc, Nat.reduceAdd, hv, if_true, ite_run]
  simp (disch := omega) only [fieldRawLen, Int.reduceMul, List.findSome?_cons, List.findSome?_nil,
    ha, if_pos, prepend_ok]
  exact ⟨_, _, rfl⟩

/-- The mappers of a display descriptor's `tag` keep the value read. -/
theorem mapUint_description_hex_actual (t : List (Nat × String)) (s : Uint) :
    (mapUint [uintMapDescription t, uintHex] s).1.actual = s.actual := by
  simp only [mapUint_uintFn, uintMapDescription, uintHex, mapUint_nil]
  split <;> rfl

/-- A display descriptor with a zero identifier, and its padding if it is a range-limits one,
completes in its 18-byte frame, whatever its tag. -/
theorem displayDescriptor_ok {fr : Frame} {i : Nat} (e : Endian) (hl : fr.limit = 8 * i + 144)
    (hid : bytesAt fr.buf (8 * i) 3 = [0, 0, 0])
    (hpad : byteAt fr.buf (i + 3) = 0xfd → bytesAt fr.buf (8 * (i + 11)) 7 = rangeLimitsPadding) :
    CompletesAt displayDescriptor fr ⟨8 * i, e⟩ 144 := by
  rw [displayDescriptor]
  refine CompletesAt.bind_ok (show fieldRawLen "identifer" (3 * 8) [assertBitBuf [0, 0, 0]] fr
    ⟨8 * i, e⟩ = _ from fieldRawLen_assert_ok "identifer" [0, 0, 0] e (by simp; omega) hid) ?_
    (by decide)
  dsimp only
  rw [show 8 * i + 8 * [(0 : UInt8), 0, 0].length = 8 * (i + 3) by simp; omega]
  refine CompletesAt.bind_ok (fieldUE_ok "tag" e (by omega) rfl) ?_ (by decide)
  refine CompletesAt.bind_ok (fieldUE_ok "reserved" e (by dsimp only; omega) rfl) ?_ (by decide)
  dsimp only
  rw [mapUint_description_hex_actual, endianValue_of_le _ _ (Nat.le_refl 8), readBits_byte,
    show 8 * (i + 3) + 8 + 8 = 8 * (i + 5) by omega,
    show 144 - 8 * [(0 : UInt8), 0, 0].length - 8 - 8 = 104 from rfl]
  split
  -- the three string descriptors
  any_goals exact fieldStr_completes _ 13 _ fr _ (by dsimp only; omega)
  -- the raw descriptors: the rest of the frame
  any_goals exact bitsLeft_fieldRawLen _ (by omega)
  -- Display Range Limits
  rename_i htag
  exact (rangeLimits_ok _ e (by omega)
    (by rw [show i + 5 + 6 = i + 11 by omega]; exact hpad htag)).fieldStruct _
    (rangeLimits_unique _ _ _)

/-- A display descriptor whose identifier is not zero aborts with the identifier's assertion. -/
theorem displayDescriptor_identifier {fr : Frame} {i : Nat} (e : Endian) (h : 8 * i + 24 ≤ fr.limit)
    (hid : bytesAt fr.buf (8 * i) 3 ≠ [0, 0, 0]) :
    displayDescriptor fr ⟨8 * i, e⟩ = .error (.mapper "identifer" "failed to validate raw") := by
  rw [displayDescriptor, run_bind, show fieldRawLen "identifer" (3 * 8) [assertBitBuf [0, 0, 0]] fr
    ⟨8 * i, e⟩ = _ from fieldRawLen_assert_error "identifer" [0, 0, 0] e (by simp; omega) hid,
    andThen_error]

/-- A slot whose first two bytes are zero is the struct `display_descriptor_{blockNo - 1}` of
`displayDescriptor` run in the slot's 18-byte frame. -/
theorem detailedDescriptor_display (name : String) (blockNo : Nat) {fr : Frame} {i : Nat}
    (e : Endian) (h : 8 * i + 144 ≤ fr.limit) (h0 : byteAt fr.buf i = 0)
    (h1 : byteAt fr.buf (i + 1) = 0) :
    detailedDescriptor name blockNo fr ⟨8 * i, e⟩ =
      match displayDescriptor ⟨fr.buf.take (i + 18), 8 * i + 144⟩ ⟨8 * i, e⟩ with
      | .ok (_, _, w) =>
        .ok ((), ⟨8 * i + 144, e⟩, [.struct ("display_descriptor_" ++ toString (blockNo - 1)) w])
      | .error err => .error err := by
  have hb : readBits fr.buf (8 * i) 16 = 0 := by rw [readBits_word, h0, h1]
  simp only [detailedDescriptor, run_bind, peekUintBits_then (show 8 * i + 16 ≤ fr.limit by omega),
    fieldStruct, framedFn_ok h, show (8 * i + 18 * 8 + 7) / 8 = i + 18 by omega, hb, if_true,
    Nat.reduceMul, ite_run]
  rcases hr : displayDescriptor ⟨fr.buf.take (i + 18), 8 * i + 144⟩ ⟨8 * i, e⟩ with _ | ⟨_, _, w⟩
  · simp
  · simp [firstRepeat_nil_eq_none.mpr (displayDescriptor_unique _ _ _ _ _ hr)]

/-- **An accepted slot completes**, 18 bytes on. -/
theorem detailedDescriptor_ok (name : String) (blockNo : Nat) {fr : Frame} {i : Nat} (e : Endian)
    (h : 8 * i + 144 ≤ fr.limit) (hs : slotAccepted fr.buf i) :
    CompletesAt (detailedDescriptor name blockNo) fr ⟨8 * i, e⟩ 144 := by
  by_cases hb : byteAt fr.buf i = 0 ∧ byteAt fr.buf (i + 1) = 0
  · obtain ⟨h2, hpad⟩ := hs hb.1 hb.2
    obtain ⟨_, w, hw⟩ := @displayDescriptor_ok ⟨fr.buf.take (i + 18), 8 * i + 144⟩ i e rfl
      ((bytesAt_identifier (by omega)).mpr ⟨hb.1, hb.2, h2⟩)
      fun ht => by rw [bytesAt_take _ (by omega)]; exact hpad (by rwa [byteAt_take _ (by omega)] at ht)
    rw [CompletesAt, detailedDescriptor_display name blockNo e h hb.1 hb.2, hw]
    exact ⟨_, _, rfl⟩
  · exact ⟨_, _, detailedDescriptor_timing name blockNo e h (by omega)⟩

/-- **A slot that completes is accepted.** -/
theorem slotAccepted_of_ok {name : String} {blockNo : Nat} {fr : Frame} {i : Nat} {e : Endian}
    {c : Cursor} {w : List Field} (h : 8 * i + 144 ≤ fr.limit)
    (hr : detailedDescriptor name blockNo fr ⟨8 * i, e⟩ = .ok ((), c, w)) : slotAccepted fr.buf i := by
  intro h0 h1
  have h2 : byteAt fr.buf (i + 2) = 0 := by
    by_contra h2
    have hid : bytesAt (fr.buf.take (i + 18)) (8 * i) 3 ≠ [0, 0, 0] := fun he =>
      h2 ((bytesAt_identifier (by omega)).mp he).2.2
    rw [detailedDescriptor_display name blockNo e h h0 h1, @displayDescriptor_identifier
      ⟨fr.buf.take (i + 18), 8 * i + 144⟩ i e (by dsimp only; omega) hid] at hr
    cases hr
  refine ⟨h2, fun ht => ?_⟩
  by_contra hpad
  rw [detailedDescriptor_rangeLimits_padding name blockNo e h h0 h1 h2 ht hpad] at hr
  cases hr

/-! ## The base record -/

/-- A frame that completed has fit in its parent, and its decoder completed inside it. -/
theorem framedFn_ok_inv {α : Type} {n : Nat} {m : Decode α} {fr : Frame} {p : Nat} {e : Endian}
    {a : α} {c : Cursor} {w : List Field} (h : framedFn n m fr ⟨p, e⟩ = .ok (a, c, w)) :
    p + n ≤ fr.limit ∧ ∃ c' w', m ⟨fr.buf.take ((p + n + 7) / 8), p + n⟩ ⟨p, e⟩ = .ok (a, c', w') := by
  by_cases hb : p + n ≤ fr.limit
  · rw [framedFn_ok hb] at h
    obtain ⟨_, c', w', _, hm, hk, -⟩ := andThen_eq_ok h
    cases hk
    exact ⟨hb, c', w', hm⟩
  · simp [framedFn, hb] at h

/-- The four slots of accepted bytes complete. -/
theorem descriptorSlots_ok {fr : Frame} (e : Endian) (h : 8 * 54 + 576 ≤ fr.limit)
    (hs : ∀ k, k < 4 → slotAccepted fr.buf (54 + 18 * k)) :
    CompletesAt descriptorSlots fr ⟨8 * 54, e⟩ 576 :=
  CompletesAt.bind (detailedDescriptor_ok _ _ e (by omega) (hs 0 (by decide))) (fun _ =>
    CompletesAt.bind (@detailedDescriptor_ok _ _ fr 72 e (by omega) (hs 1 (by decide))) (fun _ =>
      CompletesAt.bind (@detailedDescriptor_ok _ _ fr 90 e (by omega) (hs 2 (by decide))) (fun _ =>
        @detailedDescriptor_ok _ _ fr 108 e (by omega) (hs 3 (by decide))) (by decide))
      (by decide)) (by decide)

/-- The sections of an accepted base record complete. -/
theorem baseRecordSections_ok {buf : List UInt8} (hl : 128 ≤ buf.length) (ha : recordAccepted buf) :
    CompletesAt baseRecordSections (root buf) ⟨0, .little⟩ 1008 := by
  have hlim : 8 * 128 ≤ (root buf).limit := by simp only [root_limit]; omega
  have hm : bytesAt (buf.take ((0 + 20 * 8 + 7) / 8)) (8 * 0) 8 = edidMagic :=
    (bytesAt_take buf (by decide)).trans ha.1
  rw [baseRecordSections]
  refine CompletesAt.bind (CompletesAt.framedFn (CompletesAt.fieldStruct _
    (@decodeFileHeader_ok _ ⟨buf.take ((0 + 20 * 8 + 7) / 8), 0 + 20 * 8⟩ 0 .little (Nat.le_refl _)
      hm) ((baseStructs_unique _).1 _ _))
    (by omega)) (fun ec => ?_) (by decide)
  have hs := baseSections_complete ec
  have hu := baseStructs_unique ec
  refine CompletesAt.bind (framedFn_completes (fieldStruct_completes _ hs.1 hu.2.1) (Nat.le_refl _)
    _ _ (by dsimp only; omega)) (fun _ => ?_) (by decide)
  refine CompletesAt.bind (framedFn_completes (fieldStruct_completes _ hs.2.1 hu.2.2)
    (Nat.le_refl _) _ _ (by dsimp only; omega)) (fun _ => ?_) (by decide)
  refine CompletesAt.bind (framedFn_completes (fieldArray_completes _ hs.2.2.1) (Nat.le_refl _) _ _
    (by dsimp only; omega)) (fun _ => ?_) (by decide)
  refine CompletesAt.bind (framedFn_completes (fieldArray_completes _ hs.2.2.2) (Nat.le_refl _) _ _
    (by dsimp only; omega)) (fun _ => ?_) (by decide)
  exact (descriptorSlots_ok .little (by omega) ha.2).fieldStruct _ (descriptorSlots_unique _ _)

/-- An accepted base record of a buffer that holds it decodes. -/
theorem decodeBaseRecord_complete {buf : List UInt8} (hl : 128 ≤ buf.length)
    (ha : recordAccepted buf) : ∃ r, decodeBaseRecord (root buf) start = .ok r := by
  obtain ⟨_, _, hs⟩ := baseRecordSections_ok hl ha
  exact ⟨_, decodeBaseRecord_run hl hs⟩

/-- A base record that decodes is accepted, and the buffer holds it. -/
theorem recordAccepted_of_ok {buf : List UInt8} {r : Nat × Cursor × List Field}
    (h : decodeBaseRecord (root buf) start = .ok r) : 128 ≤ buf.length ∧ recordAccepted buf := by
  obtain ⟨N, c, ws⟩ := r
  have h' := h
  simp only [decodeBaseRecord, run_bind, start, setEndian_run, andThen_ok, prepend_nil] at h'
  obtain ⟨_, c₁, _, _, hs, h₁, -⟩ := andThen_eq_ok h'
  have hl : 128 ≤ buf.length := by
    obtain rfl := baseRecordSections_advances _ _ _ _ _ hs
    obtain ⟨_, c₂, _, _, hN, h₂, -⟩ := andThen_eq_ok h₁
    obtain rfl := fieldU_advances _ _ _ _ _ _ _ _ hN
    obtain ⟨_, _, _, _, hc, -, -⟩ := andThen_eq_ok h₂
    have := (fieldChecksum_ok_bounds hc).1
    simp only [root_limit] at this
    omega
  refine ⟨hl, ?_, fun k hk => ?_⟩
  · rw [baseRecordSections, run_bind] at hs
    obtain ⟨_, _, _, _, hh, -, -⟩ := andThen_eq_ok hs
    obtain ⟨-, _, _, hh⟩ := framedFn_ok_inv hh
    obtain ⟨_, _, hh, -⟩ := fieldStruct_ok_inv hh
    have hmag : bytesAt (buf.take ((0 + 20 * 8 + 7) / 8)) (8 * 0) 8 = edidMagic :=
      @decodeFileHeader_magic _ ⟨buf.take ((0 + 20 * 8 + 7) / 8), 0 + 20 * 8⟩ 0 .little _ _ _
        (Nat.le_of_ble_eq_true rfl) hh
    rwa [@bytesAt_take buf (8 * 0) 8 ((0 + 20 * 8 + 7) / 8) (by decide)] at hmag
  · obtain ⟨_, _, h₀, -⟩ := decodeBaseRecord_slots h
    obtain ⟨_, _, _, _, hr⟩ := descriptorSlots_slot h₀ hk
    exact slotAccepted_of_ok (by simp only [root_limit]; omega) hr

/-- **The base record's acceptance condition**: the base record of `decodeEDID` decodes exactly
when the buffer holds its 128 bytes, starts with the magic, and its four descriptor slots are
accepted. -/
theorem decodeBaseRecord_accepts (buf : List UInt8) :
    (∃ r, decodeBaseRecord (root buf) start = .ok r) ↔ 128 ≤ buf.length ∧ recordAccepted buf :=
  ⟨fun ⟨_, h⟩ => recordAccepted_of_ok h, fun ⟨hl, ha⟩ => decodeBaseRecord_complete hl ha⟩

/-! ## The whole decode -/

/-- A completed run of `k + 1` extension windows from bit `p` has fit in the frame. -/
theorem rep_extensionWindow_bound {fr : Frame} {e : Endian} :
    ∀ {k p : Nat} {c : Cursor} {w : List Field},
      rep extensionWindow (k + 1) fr ⟨p, e⟩ = .ok ((), c, w) → p + (k + 1) * 1024 ≤ fr.limit
  | k, p, c, w, h => by
    rw [rep, run_bind] at h
    obtain ⟨_, c₁, w₁, _, h₁, h₂, -⟩ := andThen_eq_ok h
    have hb := (framedFn_ok_inv h₁).1
    obtain rfl := framedFn_advances _ _ _ _ _ _ _ h₁
    cases k with
    | zero => omega
    | succ k =>
      have := rep_extensionWindow_bound h₂
      dsimp only at this
      omega

/-- **`decodeEDID`'s acceptance condition**: it decodes exactly the buffers whose base record
is accepted and that hold the `1 + N` blocks of 128 bytes, `N` the extension count of byte 126.
Extension windows never make it fail. -/
theorem decodeEDID_accepts (buf : List UInt8) :
    (∃ r, decodeEDID (root buf) start = .ok r) ↔
      recordAccepted buf ∧ 128 * (1 + byteAt buf 126) ≤ buf.length := by
  constructor
  · rintro ⟨⟨_, c, ws⟩, h⟩
    simp only [decodeEDID, run_bind] at h
    obtain ⟨N, c₁, w₁, w₂, hb, hr, -⟩ := andThen_eq_ok h
    obtain ⟨hl, ha⟩ := recordAccepted_of_ok hb
    obtain ⟨rfl, rfl⟩ := decodeBaseRecord_ok hl hb
    refine ⟨ha, ?_⟩
    rw [ite_run] at hr
    split_ifs at hr with hN
    · obtain ⟨_, _, hrep, -, -⟩ := fieldArray_ok_inv hr
      obtain ⟨k, hk⟩ : ∃ k, byteAt buf 126 = k + 1 := ⟨byteAt buf 126 - 1, by omega⟩
      rw [hk] at hrep
      have := rep_extensionWindow_bound hrep
      simp only [root_limit] at this
      omega
    · omega
  · rintro ⟨ha, hl⟩
    obtain ⟨⟨N, c, ws⟩, hb⟩ := decodeBaseRecord_complete (by omega) ha
    obtain ⟨rfl, -⟩ := decodeBaseRecord_ok (by omega) hb
    exact ⟨_, decodeEDID_run hb hl⟩

end Edid
