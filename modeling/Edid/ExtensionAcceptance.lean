import Edid.Acceptance

/-!
# Which windows the extension decoders accept

`decodeEDID` gives each 128-byte window the tree of the first registered format that completes
on it, or keeps it raw (`extensionEntry`). This file says exactly which windows each format
completes on, and so which entry every window gets.

* `ceaAccepted W` — the CEA-861 tag `0x02`, an offset `d` (byte 2) from 4 to 91, the two
  descriptor slots at bytes `d` and `d + 18` accepted as `DetailedDescriptor` accepts slots, and
  not both of them display descriptors, which `DetailedDescriptor` would both name
  `display_descriptor_0`; `decodeCEAExtension_accepts` — **`decodeCEAExtension` completes on a
  window with a root that repeats no name exactly when it is `ceaAccepted`**;
* `dataBlock_complete`, `dataBlocks_complete` — a data block that fits completes, and the block
  loop completes where its walk (`blocksEnd`) ends when every block it reaches fits and none is
  a Type I block of two descriptors or more (`dataBlock_nodup`, `dataBlock_typeI_repeats`);
* `decodeDisplayID_checksumAt` — once the loop has stopped at byte `B`, a section reads its
  checksum at byte `max B 126`;
* `displayIDAccepted W` — the DisplayID tag `0x70`, a byte count `N ≤ 122`, a block walk that
  ends by byte 126, and no Type I block on the walk with a length byte of 40 or more;
  `decodeDisplayIDExtension_accepts` — **`decodeDisplayIDExtension` completes on a window
  exactly when it is `displayIDAccepted`**;
* `extensionEntry_format` — **the entry of every window**: CEA-861 when it is `ceaAccepted`,
  else DisplayID when it is `displayIDAccepted`, else the raw `unknown_extension`. The group
  passes over a format whose root repeats a name; a DisplayID root never does
  (`displayIDExtension_unique`).
-/

set_option autoImplicit false

namespace Edid

open D Decode

/-! ## The tag of a registered format -/

/-- `UintHex`, then `UintAssert v`: the pair passes exactly on `v`. -/
theorem mapUint_hex_assert (v : Nat) (s : Uint) :
    (mapUint [uintHex, uintAssert v] s).2 = none ↔ s.actual = v := by
  rw [uintHex, mapUint_uintFn]
  simp only [mapUint, uintAssert]
  split_ifs with h <;> simp [h]

/-- The tag read at byte 0 of a window passes exactly when the byte is the format's tag. -/
theorem tagMapper_none_iff (v : Nat) (buf : List UInt8) (e : Endian) :
    (mapUint [uintHex, uintAssert v] { actual := endianValue e 8 (readBits buf 0 8) }).2 = none ↔
      byteAt buf 0 = v := by
  rw [mapUint_hex_assert, endianValue_of_le _ _ (Nat.le_refl 8), show 0 = 8 * 0 from rfl,
    readBits_byte]

/-- A read that completed has passed its mappers. -/
theorem fieldUE_mappers_of_ok {name : String} {n : Nat} {e' : Endian} {ms : List UintMapper}
    {fr : Frame} {p : Nat} {e : Endian} {v : Nat} {c : Cursor} {w : List Field}
    (h : fieldUE name n e' ms fr ⟨p, e⟩ = .ok (v, c, w)) :
    (mapUint ms { actual := endianValue e' n (readBits fr.buf p n) }).2 = none := by
  unfold fieldUE at h
  split at h
  · dsimp only at h
    split at h
    · assumption
    · cases h
  · cases h

theorem byteAt_tag_of_ok {v : Nat} {fr : Frame} {e : Endian} {a : Nat} {c : Cursor}
    {w : List Field} (h : fieldU "tag" 8 [uintHex, uintAssert v] fr ⟨0, e⟩ = .ok (a, c, w)) :
    byteAt fr.buf 0 = v :=
  (tagMapper_none_iff v fr.buf e).mp (fieldUE_mappers_of_ok h)

/-! ## The CEA-861 extension -/

/-- Whether `decodeCEAExtension` accepts window `W`: the tag `0x02`, an offset `d` (byte 2) that
leaves room for the header before it and for two slots and byte 127 after it, two slots at
bytes `d` and `d + 18` that `DetailedDescriptor` accepts, and not both of them display
descriptors: `DetailedDescriptor` names both `display_descriptor_0`, and the host refuses the
second. -/
def ceaAccepted (W : List UInt8) : Prop :=
  byteAt W 0 = 0x02 ∧ 4 ≤ byteAt W 2 ∧ byteAt W 2 ≤ 91 ∧
    slotAccepted W (byteAt W 2) ∧ slotAccepted W (byteAt W 2 + 18) ∧
    ¬((byteAt W (byteAt W 2) = 0 ∧ byteAt W (byteAt W 2 + 1) = 0) ∧
      (byteAt W (byteAt W 2 + 18) = 0 ∧ byteAt W (byteAt W 2 + 18 + 1) = 0))

instance (W : List UInt8) : Decidable (ceaAccepted W) :=
  inferInstanceAs (Decidable (_ ∧ _ ∧ _ ∧ _ ∧ _ ∧ _))

/-- The fields of the CEA-861 extension of window `W` around the fields `w₁` and `w₂` of its two
slots: the four header bytes, the padding up to the offset `d` (byte 2), the slots, the data up
to byte 127, and the checksum. -/
def ceaFields (W : List UInt8) (w₁ w₂ : List Field) : List Field :=
  [uintField "tag" 0 8 (byteAt W 0) [uintHex, uintAssert 0x02],
   uintField "revision" 8 8 (byteAt W 1) [],
   uintField "offset" 16 8 (byteAt W 2) [],
   uintField "reserved" 24 8 (byteAt W 3) [],
   .scalar "padding" 32 ((byteAt W 2 - 4) * 8) (.raw (readBits W 32 ((byteAt W 2 - 4) * 8)))] ++
  w₁ ++ w₂ ++
  [.scalar "data" (8 * byteAt W 2 + 144 + 144) ((91 - byteAt W 2) * 8)
     (.raw (readBits W (8 * byteAt W 2 + 144 + 144) ((91 - byteAt W 2) * 8))),
   checksumField (8 * 127) (byteAt W 127) (calcSum (bytesAt W 0 127))]

/-- A window with the tag and an offset from 4 to 91 whose two slots complete: the run in closed
form around the slots' fields. -/
theorem decodeCEAExtension_run {fr : Frame} (e : Endian) (hl : fr.limit = 8 * 128)
    (htag : byteAt fr.buf 0 = 0x02) (h4 : 4 ≤ byteAt fr.buf 2) (h91 : byteAt fr.buf 2 ≤ 91)
    {w₁ w₂ : List Field}
    (h₁ : detailedDescriptor "third_timing_descriptor" 1 fr ⟨8 * byteAt fr.buf 2, e⟩ =
      .ok ((), ⟨8 * byteAt fr.buf 2 + 144, e⟩, w₁))
    (h₂ : detailedDescriptor "fourth_timing_descriptor" 1 fr ⟨8 * byteAt fr.buf 2 + 144, e⟩ =
      .ok ((), ⟨8 * byteAt fr.buf 2 + 144 + 144, e⟩, w₂)) :
    decodeCEAExtension fr ⟨0, e⟩ = .ok ((), ⟨8 * 127 + 8, e⟩, ceaFields fr.buf w₁ w₂) := by
  have hpad : fieldRawLen "padding" (((byteAt fr.buf 2 : Nat) - 4 : Int) * 8) [] fr ⟨32, e⟩ =
      .ok ((), ⟨8 * byteAt fr.buf 2, e⟩, [.scalar "padding" 32 ((byteAt fr.buf 2 - 4) * 8)
        (.raw (readBits fr.buf 32 ((byteAt fr.buf 2 - 4) * 8)))]) := by
    rw [show ((byteAt fr.buf 2 : Nat) - 4 : Int) * 8 = (((byteAt fr.buf 2 - 4) * 8 : Nat) : Int) by
      omega, fieldRawLen_ok _ (by omega) List.findSome?_nil,
      show 32 + (byteAt fr.buf 2 - 4) * 8 = 8 * byteAt fr.buf 2 by omega]
  have hdata : fieldRawLen "data" ((123 - 32 - ((byteAt fr.buf 2 : Nat) : Int)) * 8) [] fr
      ⟨8 * byteAt fr.buf 2 + 144 + 144, e⟩ = .ok ((), ⟨8 * 127, e⟩,
        [.scalar "data" (8 * byteAt fr.buf 2 + 144 + 144) ((91 - byteAt fr.buf 2) * 8)
          (.raw (readBits fr.buf (8 * byteAt fr.buf 2 + 144 + 144) ((91 - byteAt fr.buf 2) * 8)))]) := by
    rw [show (123 - 32 - ((byteAt fr.buf 2 : Nat) : Int)) * 8 = (((91 - byteAt fr.buf 2) * 8 : Nat) : Int)
      by omega, fieldRawLen_ok _ (by omega) List.findSome?_nil,
      show 8 * byteAt fr.buf 2 + 144 + 144 + (91 - byteAt fr.buf 2) * 8 = 8 * 127 by omega]
  have htagm := (tagMapper_none_iff 2 fr.buf e).mpr htag
  simp (disch := first | omega | exact htagm | with_unfolding_all rfl) only [decodeCEAExtension,
    run_bind, fieldU_run, fieldUE_then, htagm, endianValue_of_le, readBits_byte_of_mod,
    Nat.reduceDiv, Nat.reduceAdd, mapUint_nil, hpad, andThen_ok, h₁, h₂, hdata, fieldChecksum_run,
    prepend_ok, readBits_byte]
  simp only [ceaFields, uintField, mapUint_nil, List.cons_append, List.singleton_append,
    List.nil_append, List.append_assoc]

/-- The names of a CEA-861 extension's root, around those of its two slots. -/
theorem ceaFields_names (W : List UInt8) (w₁ w₂ : List Field) :
    (ceaFields W w₁ w₂).map Field.name = ["tag", "revision", "offset", "reserved", "padding"] ++
      w₁.map Field.name ++ w₂.map Field.name ++ ["data", "checksum"] := by
  simp only [ceaFields, List.map_append, List.map_cons, List.map_nil, List.append_assoc]
  rfl

/-- An accepted window completes, all 128 bytes on, with a root that repeats no name. -/
theorem decodeCEAExtension_complete {fr : Frame} (e : Endian) (hl : fr.limit = 8 * 128)
    (ha : ceaAccepted fr.buf) :
    ∃ c w, decodeCEAExtension fr ⟨0, e⟩ = .ok ((), c, w) ∧ (w.map Field.name).Nodup := by
  obtain ⟨htag, h4, h91, hs₁, hs₂, hd⟩ := ha
  obtain ⟨_, w₁, h₁⟩ := detailedDescriptor_ok "third_timing_descriptor" 1 e (by omega) hs₁
  obtain ⟨_, w₂, h₂⟩ := @detailedDescriptor_ok "fourth_timing_descriptor" 1 fr (byteAt fr.buf 2 + 18)
    e (by omega) hs₂
  have hn₁ := detailedDescriptor_name (by omega) h₁
  have hn₂ := detailedDescriptor_name (by omega) h₂
  rw [show 8 * (byteAt fr.buf 2 + 18) = 8 * byteAt fr.buf 2 + 144 by omega] at h₂
  refine ⟨_, _, decodeCEAExtension_run e hl htag h4 h91 h₁ h₂, ?_⟩
  rw [ceaFields_names, hn₁, hn₂]
  split_ifs with hd₁ hd₂ <;> first | decide | exact absurd ⟨hd₁, hd₂⟩ hd

/-- A window that completes with a root that repeats no name is accepted. -/
theorem ceaAccepted_of_ok {fr : Frame} {e : Endian} {c : Cursor} {w : List Field}
    (hl : fr.limit = 8 * 128) (h : decodeCEAExtension fr ⟨0, e⟩ = .ok ((), c, w))
    (hn : (w.map Field.name).Nodup) : ceaAccepted fr.buf := by
  obtain ⟨h4, h91, _, _, _, _, -, h₁, h₂⟩ := decodeCEAExtension_ok (by omega) h
  obtain ⟨_, _, _, ht, -, -⟩ := (fieldU_advances _ _ _).bind_ok h
  rw [decodeCEAExtension_run e hl (byteAt_tag_of_ok ht) h4 h91 h₁ h₂] at h
  cases h
  rw [show 8 * byteAt fr.buf 2 + 144 = 8 * (byteAt fr.buf 2 + 18) by omega] at h₂
  rw [ceaFields_names, detailedDescriptor_name (by omega) h₁, detailedDescriptor_name (by omega) h₂]
    at hn
  refine ⟨byteAt_tag_of_ok ht, h4, h91, slotAccepted_of_ok (by omega) h₁,
    slotAccepted_of_ok (by omega) h₂, fun ⟨hd₁, hd₂⟩ => ?_⟩
  rw [if_pos hd₁, if_pos hd₂] at hn
  exact absurd hn (by decide)

/-- **`decodeCEAExtension`'s acceptance condition**: it completes on a window, in either byte
order, with a root that repeats no name, exactly when the window is `ceaAccepted`. -/
theorem decodeCEAExtension_accepts (W : List UInt8) (e : Endian) :
    (∃ c w, decodeCEAExtension ⟨W, 8 * 128⟩ ⟨0, e⟩ = .ok ((), c, w) ∧ (w.map Field.name).Nodup) ↔
      ceaAccepted W :=
  ⟨fun ⟨_, _, h, hn⟩ => ceaAccepted_of_ok rfl h hn, @decodeCEAExtension_complete ⟨W, 8 * 128⟩ e rfl⟩

/-! ## The DisplayID data blocks -/

theorem typeITiming_completes : Completes typeITiming 160 := by
  unfold typeITiming
  repeat' first
    | with_reducible apply Completes.bind
    | with_reducible apply fieldU_completes
    | with_reducible apply fieldUE_completes
    | with_reducible exact pos_completes
    | with_reducible exact u_completes _
    | with_reducible exact fieldBool_completes _
    | with_reducible exact fieldValueUintAddr_completes _ _ _ _ _
    | exact Completes.pure _
    | intro _
    | rfl
    | decide

/-- A byte read through mappers that keep the value: the byte. -/
theorem fieldU_byte_ok (name : String) {ms : List UintMapper} (hk : ∀ m ∈ ms, KeepsActual m)
    {fr : Frame} {q : Nat} {e : Endian} (h : 8 * q + 8 ≤ fr.limit) :
    ∃ w, fieldU name 8 ms fr ⟨8 * q, e⟩ = .ok (byteAt fr.buf q, ⟨8 * q + 8, e⟩, w) := by
  obtain ⟨ha, hn⟩ := mapUint_keepsActual hk { actual := endianValue e 8 (readBits fr.buf (8 * q) 8) }
  rw [fieldU_run, fieldUE_ok name e h hn, ha, endianValue_of_le _ _ (Nat.le_refl 8), readBits_byte]
  exact ⟨_, rfl⟩

/-- **A data block that fits in the frame completes**, `dataBlockLength` bytes on. -/
theorem dataBlock_complete {fr : Frame} {q : Nat} (e : Endian)
    (h : 8 * (q + dataBlockLength fr.buf q) ≤ fr.limit) :
    CompletesAt dataBlock fr ⟨8 * q, e⟩ (8 * dataBlockLength fr.buf q) := by
  have h3 := three_le_dataBlockLength fr.buf q
  obtain ⟨_, ht⟩ := @fieldU_byte_ok "tag" _ tagMappers_keepsActual fr q e (by omega)
  obtain ⟨_, hL⟩ := @fieldU_byte_ok "payload_bytes" [] (by simp) fr (q + 2) e (by omega)
  refine CompletesAt.bind_ok ht ?_ (by omega)
  unfold dataBlockLength at h ⊢
  by_cases h03 : byteAt fr.buf q = 0x03
  · -- Type I timings: revision, payload length, then whole 20-byte descriptors
    rw [if_pos h03] at h ⊢
    rw [h03, show 8 * (q + 2) = 8 * q + 8 + 8 by omega] at *
    refine (@fieldU_completes "revision" 8 [] (fun _ => rfl) fr _ (by dsimp only; omega)).bind
      (fun _ => CompletesAt.bind_ok hL ?_ (by omega)) (by omega)
    rw [show 8 * (3 + 20 * (byteAt fr.buf (q + 2) / 20)) - 8 - 8 - 8 =
      byteAt fr.buf (q + 2) / 20 * 160 by omega]
    exact Completes.rep typeITiming_completes _ fr _ (by dsimp only; omega)
  · -- any other tag: the generic header, then the payload as raw bits
    rw [if_neg h03] at h ⊢
    simp only [h03]
    rw [show 8 * (q + 2) = 8 * q + 8 + 5 + 3 by omega] at hL
    refine (@fieldU_completes "block_header" 5 [] (fun _ => rfl) fr _ (by dsimp only; omega)).bind
      (fun _ => (@fieldU_completes "revision" 3 [] (fun _ => rfl) fr _ (by dsimp only; omega)).bind
        (fun _ => CompletesAt.bind_ok hL ?_ (by omega)) (by omega)) (by omega)
    rw [show ((byteAt fr.buf (q + 2) : Nat) : Int) * 8 = ((byteAt fr.buf (q + 2) * 8 : Nat) : Int)
      by omega, show 8 * (3 + byteAt fr.buf (q + 2)) - 8 - 5 - 3 - 8 = byteAt fr.buf (q + 2) * 8
      by omega]
    exact fieldRawLen_completes "payload" _ fr _ (by dsimp only; omega)

/-- A block of any tag but `0x03` has the generic header and payload: five distinct names. -/
theorem dataBlock_generic_nodup {fr : Frame} {q : Nat} {e : Endian} {c : Cursor} {w : List Field}
    (ht : byteAt fr.buf q ≠ 0x03) (hr : dataBlock fr ⟨8 * q, e⟩ = .ok ((), c, w)) :
    (w.map Field.name).Nodup := by
  rw [dataBlock, run_bind] at hr
  obtain ⟨_, _, w₁, w₂, h₁, h₂, rfl⟩ := andThen_eq_ok hr
  obtain rfl := fieldU_byte tagMappers_keepsActual h₁
  simp only [ht] at h₂
  have hn₂ : w₂.map Field.name ∈ [["block_header", "revision", "payload_bytes", "payload"]] :=
    (((fieldU_names _ _ _).bind fun _ => (fieldU_names _ _ _).bind fun _ =>
      (fieldU_names _ _ _).bind fun _ => fieldRawLen_names _ _ _).mono (by decide)) _ _ _ _ _ h₂
  rw [List.map_append, List.mem_singleton.mp (fieldU_names _ _ _ _ _ _ _ _ h₁),
    List.mem_singleton.mp hn₂]
  decide

/-- A block that fits repeats no name unless it is a Type I block of two descriptors or more. -/
theorem dataBlock_nodup {fr : Frame} {q : Nat} {e : Endian} {c : Cursor} {w : List Field}
    (h : 8 * (q + dataBlockLength fr.buf q) ≤ fr.limit)
    (hT : byteAt fr.buf q = 0x03 → byteAt fr.buf (q + 2) < 40)
    (hr : dataBlock fr ⟨8 * q, e⟩ = .ok ((), c, w)) : (w.map Field.name).Nodup := by
  by_cases ht : byteAt fr.buf q = 0x03
  · rw [dataBlockLength, if_pos ht] at h
    rw [dataBlock_typeI_run e ht (by omega)] at hr
    cases hr
    exact typeIBlockFields_nodup (hT ht)
  · exact dataBlock_generic_nodup ht hr

/-- A Type I block of two descriptors or more that fits has no completed `data_block` run whose
fields repeat no name. -/
theorem dataBlock_typeI_repeats {fr : Frame} {q : Nat} {e : Endian} {c : Cursor} {w : List Field}
    (h : 8 * (q + dataBlockLength fr.buf q) ≤ fr.limit) (ht : byteAt fr.buf q = 0x03)
    (hL : 40 ≤ byteAt fr.buf (q + 2)) (hr : dataBlock fr ⟨8 * q, e⟩ = .ok ((), c, w)) :
    ¬(w.map Field.name).Nodup := by
  rw [dataBlockLength, if_pos ht] at h
  rw [dataBlock_typeI_run e ht (by omega)] at hr
  cases hr
  rw [← firstRepeat_nil_eq_none, typeIBlockFields_repeat hL]
  exact Option.some_ne_none _

/-- The walk never goes back. -/
theorem le_blocksEnd {buf : List UInt8} {N q₀ : Nat} : ∀ fuel q, q ≤ blocksEnd buf N q₀ fuel q
  | 0, _ => Nat.le_refl _
  | fuel + 1, q => by
    unfold blocksEnd
    split
    · exact Nat.le_trans (Nat.le_add_right _ _) (le_blocksEnd fuel _)
    · exact Nat.le_refl _

/-- Every block of the walk ends by the walk's end. -/
theorem blockStarts_fit {buf : List UInt8} {N q₀ : Nat} : ∀ {fuel q q' : Nat},
    q' ∈ blockStarts buf N q₀ fuel q → q' + dataBlockLength buf q' ≤ blocksEnd buf N q₀ fuel q
  | 0, _, _, h => by cases h
  | fuel + 1, q, q', h => by
    unfold blockStarts at h
    unfold blocksEnd
    split at h
    · rw [if_pos ‹_›]
      rcases List.mem_cons.1 h with rfl | h
      · exact le_blocksEnd _ _
      · exact blockStarts_fit h
    · cases h

/-- **The block loop completes**, where its walk ends, when the frame holds the declared bytes
and every block the walk reaches, no block the walk reaches is a Type I block of two
descriptors or more, and the loop has more iterations than the walk can take. -/
theorem dataBlocks_complete {fr : Frame} {N q₀ : Nat} (e : Endian) (hN : 8 * (5 + N) ≤ fr.limit) :
    ∀ fuel q, (5 + N - q + 2) / 3 < fuel → 8 * blocksEnd fr.buf N q₀ fuel q ≤ fr.limit →
      (∀ q' ∈ blockStarts fr.buf N q₀ fuel q, byteAt fr.buf q' = 0x03 → byteAt fr.buf (q' + 2) < 40) →
      CompletesAt (dataBlocks N (8 * q₀) fuel) fr ⟨8 * q, e⟩
        (8 * (blocksEnd fr.buf N q₀ fuel q - q))
  | 0, _, hf, _, _ => absurd hf (Nat.not_lt_zero _)
  | fuel + 1, q, hf, hb, hT => by
    unfold CompletesAt
    rw [dataBlocks_succ]
    unfold blocksEnd at hb ⊢
    unfold blockStarts at hT
    by_cases hd : decodesBlockAt fr.buf N q₀ q
    · -- a block, then the rest of the loop from where it ends
      have hq := hd.1
      simp only [if_pos hd, if_pos hq, if_pos (show 8 * q + 8 ≤ fr.limit by omega), List.mem_cons,
        forall_eq_or_imp] at hb hT ⊢
      have h3 := three_le_dataBlockLength fr.buf q
      have hle := @le_blocksEnd fr.buf N q₀ fuel (q + dataBlockLength fr.buf q)
      have hfit : 8 * (q + dataBlockLength fr.buf q) ≤ fr.limit := by omega
      obtain ⟨_, w₁, h₁⟩ := (dataBlock_complete e hfit).fieldStruct "data_block"
        fun () _ _ hr => dataBlock_nodup hfit hT.1 hr
      obtain ⟨_, w₂, h₂⟩ := dataBlocks_complete e hN fuel (q + dataBlockLength fr.buf q)
        (by omega) hb hT.2
      dsimp only at h₁ ⊢
      rw [show 8 * q + 8 * dataBlockLength fr.buf q = 8 * (q + dataBlockLength fr.buf q) by omega]
        at h₁
      rw [show 8 * q + 8 * (blocksEnd fr.buf N q₀ fuel (q + dataBlockLength fr.buf q) - q) =
        8 * (q + dataBlockLength fr.buf q) + 8 * (blocksEnd fr.buf N q₀ fuel
          (q + dataBlockLength fr.buf q) - (q + dataBlockLength fr.buf q)) by omega]
      exact ⟨_, _, by rw [h₁, andThen_ok, h₂, prepend_ok]⟩
    · -- the loop stops here, below or past byte `5 + N`
      simp only [if_neg hd] at hb ⊢
      refine ⟨(), [], ?_⟩
      by_cases hq : q < 5 + N
      · rw [if_pos hq, if_pos (by omega)]
        simp
      · rw [if_neg hq]
        simp

/-! ## The DisplayID section and extension -/

theorem prepend_eq_ok {β : Type} {w w' : List Field} {o : Outcome β} {b : β} {c : Cursor}
    (h : prepend w o = .ok (b, c, w')) : ∃ w'', o = .ok (b, c, w'') := by
  rcases o with err | ⟨b', c', w''⟩
  · cases h
  · simp only [prepend_ok, Except.ok.injEq, Prod.mk.injEq] at h
    obtain ⟨rfl, rfl, -⟩ := h
    exact ⟨w'', rfl⟩

/-- **Where a section reads its checksum**: once the block loop has stopped at byte `B`, the
section pads up to byte 126 and reads its checksum there, or, when the loop stopped at or past
byte 126, reads it where the loop stopped. -/
theorem decodeDisplayID_checksumAt {fr : Frame} {e : Endian} {B : Nat} {ws : List Field}
    (hl : fr.limit = 8 * 127) (hB : 5 ≤ B)
    (hd : dataBlocks (byteAt fr.buf 2) (8 * 5) (byteAt fr.buf 2 + 1) fr ⟨8 * 5, e⟩ =
      .ok ((), ⟨8 * B, e⟩, ws)) :
    ∃ w₀, decodeDisplayID fr ⟨8, e⟩ =
      prepend w₀ (fieldChecksum 8 (4 + byteAt fr.buf 2) fr ⟨8 * max B 126, e⟩) := by
  simp (disch := first | omega | with_unfolding_all rfl) only [decodeDisplayID, run_bind,
    fieldU_run, fieldUE_then, mapUint_nil, endianValue_of_le, readBits_byte_of_mod, Nat.reduceAdd,
    Nat.reduceDiv, Nat.reduceMul, ite_run, pos_then, fieldArray, hd, bitsLeft_then,
    fieldValueBool_run, run_pure, andThen_ok, hl]
  by_cases hp : B < 126
  · -- padding from where the loop stopped up to byte 126
    have hlen : ((1016 : Nat) : Int) - ((8 * B : Nat) : Int) - 8 = ((8 * 126 - 8 * B : Nat) : Int) :=
      by omega
    simp (disch := first | omega | with_unfolding_all rfl) only [hlen, if_pos, fieldRawLen_ok,
      andThen_ok, show 8 * B + (8 * 126 - 8 * B) = 8 * 126 by omega, Nat.max_eq_right hp.le,
      prepend_prepend]
    split <;> exact ⟨_, prepend_prepend _ _ _⟩
  · -- the loop stopped at or past byte 126
    simp (disch := first | omega | with_unfolding_all rfl) only [if_neg, prepend_nil,
      Nat.max_eq_left (Nat.le_of_not_lt hp), prepend_prepend]
    split <;> exact ⟨_, prepend_prepend _ _ _⟩

/-- A section whose declared bytes fit before byte 127, whose blocks end by byte 126 and hold no
Type I block of two descriptors or more completes in its frame, from byte 1 to the end of
byte 126. -/
theorem decodeDisplayID_complete {fr : Frame} (e : Endian) (hl : fr.limit = 8 * 127)
    (hN : byteAt fr.buf 2 ≤ 122)
    (hq : blocksEnd fr.buf (byteAt fr.buf 2) 5 (byteAt fr.buf 2 + 1) 5 ≤ 126)
    (hT : ∀ q ∈ blockStarts fr.buf (byteAt fr.buf 2) 5 (byteAt fr.buf 2 + 1) 5,
      byteAt fr.buf q = 0x03 → byteAt fr.buf (q + 2) < 40) :
    CompletesAt decodeDisplayID fr ⟨8, e⟩ (8 * 126) := by
  obtain ⟨⟨⟩, ws, hd⟩ := @dataBlocks_complete fr (byteAt fr.buf 2) 5 e (by omega)
    (byteAt fr.buf 2 + 1) 5 (by omega) (by omega) hT
  have hle := @le_blocksEnd fr.buf (byteAt fr.buf 2) 5 (byteAt fr.buf 2 + 1) 5
  dsimp only at hd
  rw [show 8 * 5 + 8 * (blocksEnd fr.buf (byteAt fr.buf 2) 5 (byteAt fr.buf 2 + 1) 5 - 5) =
    8 * blocksEnd fr.buf (byteAt fr.buf 2) 5 (byteAt fr.buf 2 + 1) 5 by omega] at hd
  obtain ⟨w₀, hr⟩ := decodeDisplayID_checksumAt hl hle hd
  rw [Nat.max_eq_right hq, fieldChecksum_run (by omega) (by omega), prepend_ok] at hr
  exact ⟨_, _, hr⟩

/-- The `data` struct of a DisplayID extension repeats no name: the section's header, its
`data_blocks` array, its padding and its checksum. -/
theorem displayIDSection_unique : UniqueNames (framedFn (126 * 8) decodeDisplayID) := by
  apply NamesOneOf.unique
  · apply framedFn_names
    unfold decodeDisplayID
    repeat' first
      | with_reducible apply NamesOneOf.bind
      | with_reducible apply NamesOneOf.ite
      | with_reducible exact NamesOneOf.pure _
      | with_reducible exact bitsLeft_names
      | with_reducible exact fieldU_names _ _ _
      | with_reducible exact fieldValueBool_names _ _
      | with_reducible exact fieldArray_names _ _
      | with_reducible exact fieldRawLen_names _ _ _
      | with_reducible exact fieldChecksum_names _ _
      | intro _
  · decide

/-- The root of a DisplayID extension repeats no name: `tag`, `data` and `checksum`. -/
theorem displayIDExtension_unique : UniqueNames decodeDisplayIDExtension :=
  ((fieldU_names _ _ _).bind fun _ => (fieldStruct_names _ _).bind fun _ =>
    fieldChecksum_names _ _).unique (by decide)

/-- Whether `decodeDisplayIDExtension` accepts window `W`: the tag `0x70`, a byte count `N`
(byte 2) whose checksum range ends inside bytes 0–126, a block walk over bytes 0–126 that
ends by byte 126, where the section checksum is read, and no Type I block (tag `0x03`) on the
walk that announces two descriptors or more (`L ≥ 40`): their fields repeat `pixel_clock` in
one `data_block` struct, and the host refuses it. -/
def displayIDAccepted (W : List UInt8) : Prop :=
  byteAt W 0 = 0x70 ∧ byteAt W 2 ≤ 122 ∧
    blocksEnd (W.take 127) (byteAt W 2) 5 (byteAt W 2 + 1) 5 ≤ 126 ∧
    ∀ q ∈ blockStarts (W.take 127) (byteAt W 2) 5 (byteAt W 2 + 1) 5,
      byteAt W q = 0x03 → byteAt W (q + 2) < 40

instance (W : List UInt8) : Decidable (displayIDAccepted W) :=
  inferInstanceAs (Decidable (_ ∧ _ ∧ _ ∧ _))

/-- On a walk that ends by byte 126, every block's tag and length bytes are bytes of the section
frame. -/
theorem blockStarts_take {W : List UInt8} {N : Nat} {q : Nat}
    (hq : blocksEnd (W.take 127) N 5 (N + 1) 5 ≤ 126)
    (h : q ∈ blockStarts (W.take 127) N 5 (N + 1) 5) :
    byteAt (W.take 127) q = byteAt W q ∧ byteAt (W.take 127) (q + 2) = byteAt W (q + 2) := by
  have := blockStarts_fit h
  have := three_le_dataBlockLength (W.take 127) q
  exact ⟨byteAt_take W (by omega), byteAt_take W (by omega)⟩

/-- An accepted window completes, all 128 bytes on. -/
theorem decodeDisplayIDExtension_complete {W : List UInt8} (e : Endian)
    (ha : displayIDAccepted W) :
    CompletesAt decodeDisplayIDExtension ⟨W, 8 * 128⟩ ⟨0, e⟩ (8 * 128) := by
  obtain ⟨htag, hN, hq, hT⟩ := ha
  have hN' := byteAt_take W (show 2 < 127 by omega)
  have hs := @decodeDisplayID_complete ⟨W.take 127, 8 * 127⟩ e rfl (by rwa [hN']) (by rwa [hN'])
    (by
      rw [hN']
      intro q h
      rw [(blockStarts_take hq h).1, (blockStarts_take hq h).2]
      exact hT q h)
  refine CompletesAt.bind_ok (fieldUE_ok "tag" e (Nat.le_of_ble_eq_true rfl)
    ((tagMapper_none_iff 0x70 W e).mpr htag)) ?_ (by omega)
  dsimp only
  have hs' : CompletesAt decodeDisplayID ⟨W.take ((8 + 126 * 8 + 7) / 8), 8 + 126 * 8⟩ ⟨8, e⟩
      (8 * 126) := hs
  refine CompletesAt.bind ((@CompletesAt.framedFn _ _ ⟨W, 8 * 128⟩ 8 _ (126 * 8) e hs'
    (Nat.le_of_ble_eq_true rfl)).fieldStruct "data" (displayIDSection_unique _ _))
    (fun _ => ?_) (by omega)
  exact ⟨_, _, fieldChecksum_run (Nat.le_refl _) (Nat.le_of_ble_eq_true rfl)⟩

/-- A window that completes is accepted. -/
theorem displayIDAccepted_of_ok {W : List UInt8} {e : Endian} {c : Cursor} {w : List Field}
    (h : decodeDisplayIDExtension ⟨W, 8 * 128⟩ ⟨0, e⟩ = .ok ((), c, w)) : displayIDAccepted W := by
  obtain ⟨_, _, _, ht, -, -⟩ := (fieldU_advances _ _ _).bind_ok h
  obtain ⟨_, _, hs, -⟩ := decodeDisplayIDExtension_section h
  obtain ⟨-, c₁, ws, hd, -⟩ := decodeDisplayID_ok rfl hs
  obtain ⟨rfl, -, hblocks⟩ := dataBlocks_ok hd
  obtain ⟨w₀, hr⟩ := decodeDisplayID_checksumAt rfl (le_blocksEnd _ _) hd
  obtain ⟨_, hc⟩ := prepend_eq_ok (hr.symm.trans hs)
  have hb := fieldChecksum_ok_bounds hc
  have hN := byteAt_take W (show 2 < 127 by omega)
  simp only [hN] at hb hblocks
  have hq : blocksEnd (W.take 127) (byteAt W 2) 5 (byteAt W 2 + 1) 5 ≤ 126 := by omega
  refine ⟨byteAt_tag_of_ok ht, by omega, hq, fun q h h3 => Nat.lt_of_not_le fun hL => ?_⟩
  obtain ⟨_, _, hr, hn⟩ := hblocks q h
  have hfit : 8 * (q + dataBlockLength (W.take 127) q) ≤ 8 * 127 := by
    have := blockStarts_fit h
    omega
  rw [← (blockStarts_take hq h).1] at h3
  rw [← (blockStarts_take hq h).2] at hL
  exact @dataBlock_typeI_repeats ⟨W.take 127, 8 * 127⟩ q e _ _ hfit h3 hL hr hn

/-- **`decodeDisplayIDExtension`'s acceptance condition**: it completes on a window, in either
byte order, exactly when the window is `displayIDAccepted`. -/
theorem decodeDisplayIDExtension_accepts (W : List UInt8) (e : Endian) :
    (∃ r, decodeDisplayIDExtension ⟨W, 8 * 128⟩ ⟨0, e⟩ = .ok r) ↔ displayIDAccepted W := by
  constructor
  · rintro ⟨⟨⟨⟩, c, w⟩, h⟩
    exact displayIDAccepted_of_ok h
  · intro ha
    obtain ⟨_, _, h⟩ := decodeDisplayIDExtension_complete e ha
    exact ⟨_, h⟩

/-! ## The entry of a window -/

/-- **The entry of every window**: the CEA-861 tree when the window is `ceaAccepted`; else the
DisplayID tree when it is `displayIDAccepted`; else its 128 bytes as the raw
`unknown_extension`. -/
theorem extensionEntry_format (k : Nat) (W : List UInt8) :
    (ceaAccepted W → ∃ w, extensionEntry k W =
      .format "extension" "EDID CEA-861 Series Timing Extension" (8 * (128 * k)) w) ∧
    (¬ceaAccepted W → displayIDAccepted W → ∃ w, extensionEntry k W =
      .format "extension" "EDID DisplayID Extension" (8 * (128 * k)) w) ∧
    (¬ceaAccepted W → ¬displayIDAccepted W → extensionEntry k W =
      .scalar "unknown_extension" (8 * (128 * k)) (8 * 128) (.raw (readBits W 0 (8 * 128)))) := by
  -- the group passes over CEA-861 on a window it does not accept
  have hskip (hna : ¬ceaAccepted W) : decodeGroup ⟨W, 8 * 128⟩ edidExtensionGroup =
      decodeGroup ⟨W, 8 * 128⟩ (edidExtensionGroup.drop 1) := by
    rw [edidExtensionGroup, decodeGroup]
    split
    · split
      · exact absurd (ceaAccepted_of_ok rfl ‹_› (firstRepeat_nil_eq_none.mp ‹_›)) hna
      · rfl
    · rfl
  refine ⟨fun ha => ?_, fun hna ha => ?_, fun hna hnd => ?_⟩
  · obtain ⟨_, _, h, hn⟩ := @decodeCEAExtension_complete ⟨W, 8 * 128⟩ .big rfl ha
    simp only [extensionEntry, decodeGroup, edidExtensionGroup, h, firstRepeat_nil_eq_none.mpr hn]
    exact ⟨_, rfl⟩
  · obtain ⟨_, _, h⟩ := decodeDisplayIDExtension_complete .big ha
    rw [extensionEntry, hskip hna]
    simp only [edidExtensionGroup, List.drop_succ_cons, List.drop_zero, decodeGroup, h,
      firstRepeat_nil_eq_none.mpr (displayIDExtension_unique _ _ _ _ _ h)]
    exact ⟨_, rfl⟩
  · rcases hd : decodeDisplayIDExtension ⟨W, 8 * 128⟩ ⟨0, .big⟩ with err | ⟨⟨⟩, c, w⟩
    · rw [extensionEntry, hskip hna]
      simp only [edidExtensionGroup, List.drop_succ_cons, List.drop_zero, decodeGroup, hd]
    · exact absurd (displayIDAccepted_of_ok hd) hnd

end Edid
