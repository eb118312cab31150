import Edid.DecodeEDID
import Edid.TimingDescriptor

/-!
# The base record: where it ends, what it reads, and its checksum

* `baseRecordSections_advances` — the five framed sections and the four descriptor slots end
  at byte 126, whatever they hold;
* `decodeBaseRecord_local` — the base record reads its first 128 bytes only;
* `decodeBaseRecord_run` — once the sections complete, `extension_count` is byte 126 and the
  checksum field is byte 127, validated against `CalcSum` of bytes 0–126;
* `decodeBaseRecord_checksum` — **the verdict** is valid iff bytes 0–127 sum to 0 mod 256, so
  a valid record with any one byte changed reads invalid;
* `decodeBaseRecord_slots`, `decodeBaseRecord_first_slot` — a decoded record has run its four
  slots from byte 54 in little endian; a first slot that is a timing slot is `dtdFields .little`;
* `decodeBaseRecord_rangeLimits` — a record decodes only if every Display Range Limits slot
  carries the padding `0A 20 20 20 20 20 20`, whatever its flag byte (`rangeLimitsGtfRecord`,
  whose flags announce GTF data there, aborts);
* `porchSlotRecord_vertical_porches` — the vertical front porch and sync width of a slot take
  their two high bits as `<<< 8`.
-/

set_option autoImplicit false

namespace Edid

open D Decode

theorem fieldChecksum_advances (firstBit nBytes : Nat) : Advances (fieldChecksum firstBit nBytes) 8 :=
  (bytesRange_advances _ _).bind fun _ => (fieldU_advances _ _ _).bind fun _ => Advances.pure _

theorem fieldChecksum_local {k p firstBit nBytes : Nat} (hp : p + 8 ≤ 8 * k)
    (hs : firstBit + 8 * nBytes ≤ 8 * k) : LocalAt k (fieldChecksum firstBit nBytes) p := by
  intro fr fr' e h
  have := h.2
  rw [fieldChecksum_run (by omega) (by omega), fieldChecksum_run (by omega) (by omega),
    h.readBits_eq hp, h.bytesAt_eq hs]

theorem descriptorSlots_advances : Advances descriptorSlots 576 :=
  (detailedDescriptor_advances _ _).bind fun _ => (detailedDescriptor_advances _ _).bind fun _ =>
    (detailedDescriptor_advances _ _).bind fun _ => detailedDescriptor_advances _ _

theorem descriptorSlots_local {p : Nat} (hp : p + 576 ≤ 8 * 128) : LocalAt 128 descriptorSlots p :=
  (detailedDescriptor_local _ _ (by omega)).bind (detailedDescriptor_advances _ _) fun _ =>
    (detailedDescriptor_local _ _ (by omega)).bind (detailedDescriptor_advances _ _) fun _ =>
      (detailedDescriptor_local _ _ (by omega)).bind (detailedDescriptor_advances _ _) fun _ =>
        detailedDescriptor_local _ _ (by omega)

theorem baseRecordSections_advances : Advances baseRecordSections 1008 :=
  (framedFn_advances _ _).bind fun _ => (framedFn_advances _ _).bind fun _ =>
    (framedFn_advances _ _).bind fun _ => (framedFn_advances _ _).bind fun _ =>
      (framedFn_advances _ _).bind fun _ => fieldStruct_advances _ descriptorSlots_advances

theorem baseRecordSections_local : LocalAt 128 baseRecordSections 0 :=
  (framedFn_local _ (by omega)).bind (framedFn_advances _ _) fun _ =>
    (framedFn_local _ (by omega)).bind (framedFn_advances _ _) fun _ =>
      (framedFn_local _ (by omega)).bind (framedFn_advances _ _) fun _ =>
        (framedFn_local _ (by omega)).bind (framedFn_advances _ _) fun _ =>
          (framedFn_local _ (by omega)).bind (framedFn_advances _ _) fun _ =>
            fieldStruct_local _ (descriptorSlots_local (by omega))

/-- **The base record reads its first 128 bytes only.** -/
theorem decodeBaseRecord_local : LocalAt 128 decodeBaseRecord 0 :=
  LocalAt.setEndian_bind <| baseRecordSections_local.bind baseRecordSections_advances fun _ =>
    (fieldU_local _ _ (by omega)).bind (fieldU_advances _ _ _) fun _ =>
      (fieldChecksum_local (by omega) (by omega)).bind (fieldChecksum_advances _ _) fun _ =>
        LocalAt.pure _ _ _

/-- The checksum field of the base record of `buf`. -/
def baseChecksumField (buf : List UInt8) : Field :=
  checksumField (8 * 127) (byteAt buf 127) (calcSum (bytesAt buf 0 127))

/-- Once the sections complete: `extension_count` from byte 126, the checksum from byte 127. -/
theorem decodeBaseRecord_run {buf : List UInt8} {c : Cursor} {ws : List Field}
    (hlen : 128 ≤ buf.length) (hs : baseRecordSections (root buf) ⟨0, .little⟩ = .ok ((), c, ws)) :
    decodeBaseRecord (root buf) start = .ok (byteAt buf 126, ⟨8 * 128, .little⟩,
      ws ++ [uintField "extension_count" (8 * 126) 8 (byteAt buf 126) [], baseChecksumField buf]) := by
  obtain rfl := baseRecordSections_advances _ _ _ _ _ hs
  have hl : 8 * 128 ≤ (root buf).limit := by simp only [root]; omega
  simp (disch := first | omega | with_unfolding_all rfl) only [decodeBaseRecord, run_bind, start,
    setEndian_run, andThen_ok, prepend_nil, hs, fieldU_run, fieldUE_then, fieldChecksum_run,
    endianValue_of_le, readBits_byte_of_mod, Nat.reduceDiv, run_pure, prepend_ok, List.append_nil,
    List.append_assoc, List.singleton_append]
  rfl

theorem baseChecksumField_verdict (buf : List UInt8) :
    (baseChecksumField buf).description? =
      some (if byteSum buf 0 128 % 256 = 0 then "valid" else "invalid") := by
  rw [byteSum_succ buf 0 127]
  exact checksumField_verdict (8 * 127) buf 0 127 127

/-- A valid record with one byte changed reads invalid. -/
theorem baseChecksumField_set {buf : List UInt8} {i : Nat} (b : UInt8) (hi : i < 128)
    (hl : 128 ≤ buf.length) (hb : b ≠ buf.getD i 0)
    (hv : (baseChecksumField buf).description? = some "valid") :
    (baseChecksumField (buf.set i b)).description? = some "invalid" := by
  have hs := byteSum_set buf b (by omega) 128 0 (Nat.zero_le i) (by omega)
  have hne : byteAt buf i ≠ b.toNat := fun h => hb (UInt8.toNat.inj h.symm)
  have := byteAt_lt buf i
  have : b.toNat < 256 := UInt8.toNat_lt_size b
  rw [baseChecksumField_verdict] at hv ⊢
  split_ifs at hv ⊢ <;> first | rfl | omega | simp at hv

/-- **The base record's checksum.** -/
theorem decodeBaseRecord_checksum :
    (∀ (buf : List UInt8) {c : Cursor} {ws : List Field}, 128 ≤ buf.length →
      baseRecordSections (root buf) ⟨0, .little⟩ = .ok ((), c, ws) →
      decodeBaseRecord (root buf) start = .ok (byteAt buf 126, ⟨8 * 128, .little⟩,
        ws ++ [uintField "extension_count" (8 * 126) 8 (byteAt buf 126) [], baseChecksumField buf]) ∧
      baseChecksumField buf = checksumField (8 * 127) (byteAt buf 127) (calcSum (bytesAt buf 0 127)) ∧
      (calcSum (bytesAt buf 0 127)).toNat = byteSum buf 0 127 % 256 ∧
      (baseChecksumField buf).description? =
        some (if byteSum buf 0 128 % 256 = 0 then "valid" else "invalid")) ∧
    (∀ (buf : List UInt8) (i : Nat) (b : UInt8), i < 128 → 128 ≤ buf.length → b ≠ buf.getD i 0 →
      (baseChecksumField buf).description? = some "valid" →
      (baseChecksumField (buf.set i b)).description? = some "invalid") :=
  ⟨fun _ _ _ hl hs => ⟨decodeBaseRecord_run hl hs, rfl, calcSum_bytesAt _ 0 127,
    baseChecksumField_verdict _⟩, fun _ _ b hi hl hb hv => baseChecksumField_set b hi hl hb hv⟩

/-- A record of the magic, zeros and the checksum byte `6`. -/
def sampleBaseRecord : List UInt8 :=
  [0x00, 0xff, 0xff, 0xff, 0xff, 0xff, 0xff, 0x00] ++ List.replicate 119 0 ++ [6]

set_option maxRecDepth 4000 in
theorem sampleBaseRecord_checksum :
    (baseChecksumField sampleBaseRecord).description? = some "valid" ∧
      (baseChecksumField (sampleBaseRecord.set 20 1)).description? = some "invalid" :=
  have h := (decodeBaseRecord_checksum.1 sampleBaseRecord (by decide) rfl).2.2.2
  ⟨h.trans (by decide), decodeBaseRecord_checksum.2 sampleBaseRecord 20 1 (by decide) (by decide)
    (by decide) (h.trans (by decide))⟩

/-! ## The descriptor slots of a decoded base record -/

/-- A base record that completes has run its four slots from byte 54 in little endian, and holds
their fields as the struct `detailed_timings`. -/
theorem decodeBaseRecord_slots {buf : List UInt8} {N : Nat} {c : Cursor} {ws : List Field}
    (h : decodeBaseRecord (root buf) start = .ok (N, c, ws)) :
    ∃ c' w, descriptorSlots (root buf) ⟨8 * 54, .little⟩ = .ok ((), c', w) ∧
      .struct "detailed_timings" w ∈ ws := by
  simp only [decodeBaseRecord, run_bind, start, setEndian_run, andThen_ok, prepend_nil] at h
  obtain ⟨_, _, ws₁, _, hs₁, -, rfl⟩ := andThen_eq_ok h
  obtain ⟨_, w₁, _, -, h₁, rfl⟩ := (framedFn_advances _ _).bind_ok hs₁
  obtain ⟨_, w₂, _, -, h₂, rfl⟩ := (framedFn_advances _ _).bind_ok h₁
  obtain ⟨_, w₃, _, -, h₃, rfl⟩ := (framedFn_advances _ _).bind_ok h₂
  obtain ⟨_, w₄, _, -, h₄, rfl⟩ := (framedFn_advances _ _).bind_ok h₃
  obtain ⟨_, w₅, _, -, h₅, rfl⟩ := (framedFn_advances _ _).bind_ok h₄
  obtain ⟨c', w, h₆, rfl⟩ := fieldStruct_ok_inv h₅
  exact ⟨c', w, h₆, by simp⟩

/-- Every slot of a completed run of `descriptorSlots` from byte `i` has completed, at byte
`i + 18 k`. -/
theorem descriptorSlots_slot {fr : Frame} {i : Nat} {e : Endian} {c : Cursor} {w : List Field}
    (h : descriptorSlots fr ⟨8 * i, e⟩ = .ok ((), c, w)) {k : Nat} (hk : k < 4) :
    ∃ name blockNo c' w', detailedDescriptor name blockNo fr ⟨8 * (i + 18 * k), e⟩ = .ok ((), c', w') := by
  obtain ⟨_, _, _, h₀, h₁, -⟩ := (detailedDescriptor_advances _ _).bind_ok h
  obtain ⟨_, _, _, h₁, h₂, -⟩ := (detailedDescriptor_advances _ _).bind_ok h₁
  obtain ⟨_, _, _, h₂, h₃, -⟩ := (detailedDescriptor_advances _ _).bind_ok h₂
  dsimp only at h₁ h₂ h₃
  obtain rfl | rfl | rfl | rfl : k = 0 ∨ k = 1 ∨ k = 2 ∨ k = 3 := by omega
  · exact ⟨_, _, _, _, h₀⟩
  · exact ⟨_, _, _, _, h₁⟩
  · exact ⟨_, _, _, _, by rw [show 8 * (i + 18 * 2) = 8 * i + 144 + 144 by omega]; exact h₂⟩
  · exact ⟨_, _, _, _, by rw [show 8 * (i + 18 * 3) = 8 * i + 144 + 144 + 144 by omega]; exact h₃⟩

/-- A base record that decodes holds its first slot, when that is a timing slot, decoded in the
byte order `decodeEDID` set: little endian. -/
theorem decodeBaseRecord_first_slot {buf : List UInt8} {N : Nat} {c : Cursor} {ws : List Field}
    (hl : 128 ≤ buf.length) (h : decodeBaseRecord (root buf) start = .ok (N, c, ws))
    (hs : byteAt buf 54 ≠ 0 ∨ byteAt buf 55 ≠ 0) :
    ∃ rest, .struct "detailed_timings" (.struct "preferred_timing_mode"
      (dtdFields .little (8 * 54) (bytesAt buf (8 * 54) 18)) :: rest) ∈ ws := by
  obtain ⟨_, _, h₀, hm⟩ := decodeBaseRecord_slots h
  obtain ⟨_, _, rest, h₁, -, rfl⟩ := (detailedDescriptor_advances _ _).bind_ok h₀
  rw [detailedDescriptor_timing _ _ _ (by simp only [root_limit]; omega) hs] at h₁
  simp only [Except.ok.injEq, Prod.mk.injEq] at h₁
  obtain ⟨-, -, rfl⟩ := h₁
  exact ⟨rest, hm⟩

/-- A timing slot with vertical blanking 64 and the high bits of both vertical sync values set
(byte 11 is `05`). -/
def porchSlot : List UInt8 :=
  [0x01, 0x00, 0x00, 0x00, 0x00, 0x00, 0x40, 0x00, 0x00, 0x00, 0x00, 0x05] ++ List.replicate 6 0

/-- A record with `porchSlot` as its first slot and no extension. -/
def porchSlotRecord : List UInt8 :=
  [0x00, 0xff, 0xff, 0xff, 0xff, 0xff, 0xff, 0x00] ++ List.replicate 46 0 ++ porchSlot ++
    List.replicate 56 0

set_option maxRecDepth 4000 in
/-- The vertical front porch and sync width of `porchSlot` take their high bits as `<<< 8`: 256
each, and the vertical back porch wraps below zero. -/
theorem porchSlotRecord_vertical_porches :
    ∃ ws rest, decodeBaseRecord (root porchSlotRecord) start = .ok (0, ⟨8 * 128, .little⟩, ws) ∧
      .struct "detailed_timings" (.struct "preferred_timing_mode"
        (dtdFields .little (8 * 54) porchSlot) :: rest) ∈ ws ∧
      Field.uintsNamedList "vertical_front_porch" (dtdFields .little (8 * 54) porchSlot) = [256] ∧
      Field.uintsNamedList "vertical_sync_pulse_width" (dtdFields .little (8 * 54) porchSlot) =
        [256] ∧
      Field.uintsNamedList "vertical_back_porch" (dtdFields .little (8 * 54) porchSlot) =
        [2 ^ 64 - 448] := by
  obtain ⟨ws, hb⟩ : ∃ ws, decodeBaseRecord (root porchSlotRecord) start =
      .ok (0, ⟨8 * 128, .little⟩, ws) := ⟨_, rfl⟩
  obtain ⟨rest, hbase⟩ := decodeBaseRecord_first_slot (by decide) hb (by decide)
  exact ⟨ws, rest, hb, hbase, by decide, by decide, by decide⟩

/-- **A base record decodes only with every Display Range Limits slot padded**: a slot `k` that
starts `00 00 00 FD` completes only when its bytes 11–17 are `0A 20 20 20 20 20 20`, whatever its
flag byte holds. -/
theorem decodeBaseRecord_rangeLimits {buf : List UInt8} {N : Nat} {c : Cursor} {ws : List Field}
    (hl : 128 ≤ buf.length) (h : decodeBaseRecord (root buf) start = .ok (N, c, ws)) {k : Nat}
    (hk : k < 4) (h0 : byteAt buf (54 + 18 * k) = 0) (h1 : byteAt buf (54 + 18 * k + 1) = 0)
    (h2 : byteAt buf (54 + 18 * k + 2) = 0) (ht : byteAt buf (54 + 18 * k + 3) = 0xfd) :
    bytesAt buf (8 * (54 + 18 * k + 11)) 7 = [0x0a, 0x20, 0x20, 0x20, 0x20, 0x20, 0x20] := by
  obtain ⟨_, _, h₀, -⟩ := decodeBaseRecord_slots h
  obtain ⟨_, _, _, _, hr⟩ := descriptorSlots_slot h₀ hk
  by_contra hpad
  rw [detailedDescriptor_rangeLimits_padding _ _ _ (by simp only [root_limit]; omega) h0 h1 h2 ht
    hpad] at hr
  cases hr

/-- A base record whose first slot is a Display Range Limits descriptor with GTF flags
(`vtFlags = 0x02`) and the secondary GTF parameters in bytes 11–17. -/
def rangeLimitsGtfRecord : List UInt8 :=
  [0x00, 0xff, 0xff, 0xff, 0xff, 0xff, 0xff, 0x00] ++ List.replicate 64 0 ++
  [0x00, 0x00, 0x00, 0xfd, 0x00, 0x32, 0x4b, 0x1e, 0x51, 0x11, 0x02, 0x00, 0x14, 0x00, 0x28, 0x00,
   0x20, 0x00] ++ List.replicate 38 0

set_option maxRecDepth 4000 in
/-- The range limits slot of `rangeLimitsGtfRecord` (bytes 72–89) aborts the whole decode. -/
theorem rangeLimitsGtfRecord_aborts :
    decodeEDID (root rangeLimitsGtfRecord) start =
      .error (.mapper "padding" "failed to validate raw") :=
  rfl

end Edid
