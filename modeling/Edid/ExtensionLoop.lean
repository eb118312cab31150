import Edid.BaseRecordRun

/-!
# The extension loop

`decodeEDID` decodes `extension_count` windows of 128 bytes after the base record, each in its
own frame (`extensionWindow`).

* `extensionEntry k W` — the entry of window number `k` with bytes `W`: the tree of the first
  registered format that completes on `W` (decoded as a root decoder, its ranges relative to
  the window), or else `W` as the raw field `unknown_extension`;
* `extensionWindow_run` — a window in the frame always completes with its entry, and ends 128
  bytes on, whatever it holds;
* `decodeEDID_run` — **the closed form**: once the base record decodes with `N` extensions and
  the buffer holds `128 * (1 + N)` bytes, the `extensions` array is `extensionsOf buf N`, the
  entries of windows `1 … N` on bytes `[128k, 128k + 128)`;
* `decodeEDID_windows` — exactly `N` windows, each a function of its own 128 bytes, and base
  fields a function of bytes 0–127;
* `decodeCEAExtension_ok`, `decodeGroup_checksum` — a registered format that completes on a
  window ends with the checksum of byte 127 over bytes 0–126;
* `decodeEDID_extension_checksums` — **every window** carries that verdict or is kept raw as
  `unknown_extension`, with no verdict;
* `extensionEntry_cea_slot` — a CEA-861 window decodes its timing slot in big endian, the byte
  order a registered format starts with, where the base record's slots are little endian
  (`clockSlotRecord_pixel_clocks`).
-/

set_option autoImplicit false

namespace Edid

open D Decode

/-- The entry of the `extensions` array for window number `k`, whose bytes are `W`. -/
def extensionEntry (k : Nat) (W : List UInt8) : Field :=
  match decodeGroup ⟨W, 8 * 128⟩ edidExtensionGroup with
  | some (f, _, w) => .format "extension" f.description (8 * (128 * k)) w
  | none => .scalar "unknown_extension" (8 * (128 * k)) (8 * 128) (.raw (readBits W 0 (8 * 128)))

/-- The entries of windows `1 … N` of `buf`. -/
def extensionsOf (buf : List UInt8) (N : Nat) : List Field :=
  (List.range' 1 N).map fun k => extensionEntry k (bytesAt buf (8 * (128 * k)) 128)

@[simp] theorem extensionsOf_length (buf : List UInt8) (N : Nat) : (extensionsOf buf N).length = N := by
  simp [extensionsOf]

theorem extensionsOf_getElem? (buf : List UInt8) {N k : Nat} (h1 : 1 ≤ k) (h2 : k ≤ N) :
    (extensionsOf buf N)[k - 1]? = some (extensionEntry k (bytesAt buf (8 * (128 * k)) 128)) := by
  simp [extensionsOf, List.getElem?_range' _ _ (show k - 1 < N by omega), Nat.add_sub_cancel' h1]

/-- One window: whatever it holds, it completes with its entry and ends 128 bytes on. -/
theorem extensionWindow_run {fr : Frame} {k : Nat} (e : Endian)
    (h : 8 * (128 * (k + 1)) ≤ fr.limit) :
    extensionWindow fr ⟨8 * (128 * k), e⟩ =
      .ok ((), ⟨8 * (128 * (k + 1)), e⟩, [extensionEntry k (bytesAt fr.buf (8 * (128 * k)) 128)]) := by
  have hw : bytesAt (fr.buf.take ((8 * (128 * k) + 1024 + 7) / 8)) (8 * (128 * k)) 128 =
      bytesAt fr.buf (8 * (128 * k)) 128 := bytesAt_take _ (by omega)
  have hr : readBits (fr.buf.take ((8 * (128 * k) + 1024 + 7) / 8)) (8 * (128 * k)) 1024 =
      readBits (bytesAt fr.buf (8 * (128 * k)) 128) 0 1024 := by
    rw [readBits_take _ (by omega)]
    exact (readBits_bytesAt _ _ 128).symm
  simp only [extensionWindow, Nat.reduceMul, framedFn_ok (show 8 * (128 * k) + 1024 ≤ fr.limit by omega),
    run_bind, tryFieldFormat, Nat.add_sub_cancel_left, Nat.reduceAdd, Nat.reduceDiv, hw, extensionEntry]
  rcases decodeGroup ⟨bytesAt fr.buf (8 * (128 * k)) 128, 1024⟩ edidExtensionGroup with _ | ⟨f, c', w⟩
  · simp [fieldRawLen, hr, show 8 * (128 * k) + 1024 ≤ 8 * (128 * k) + 1024 from le_rfl,
      show 8 * (128 * (k + 1)) = 8 * (128 * k) + 1024 by omega]
  · simp [show 8 * (128 * (k + 1)) = 8 * (128 * k) + 1024 by omega]

/-- The loop from window `k`: `n` windows, each with its entry, in order. -/
theorem rep_extensionWindow (fr : Frame) (e : Endian) :
    ∀ n k, 8 * (128 * (k + n)) ≤ fr.limit →
      rep extensionWindow n fr ⟨8 * (128 * k), e⟩ = .ok ((), ⟨8 * (128 * (k + n)), e⟩,
        (List.range' k n).map fun j => extensionEntry j (bytesAt fr.buf (8 * (128 * j)) 128))
  | 0, k, _ => rfl
  | n + 1, k, h => by
    rw [rep, run_bind, extensionWindow_run e (by omega), andThen_ok,
      rep_extensionWindow fr e n (k + 1) (by omega)]
    simp [List.range'_succ, Nat.add_right_comm k 1 n, Nat.add_assoc]

/-- A base record that decodes has read `extension_count` from byte 126 and ends at byte 128. -/
theorem decodeBaseRecord_ok {buf : List UInt8} {N : Nat} {c : Cursor} {ws : List Field}
    (hl : 128 ≤ buf.length) (h : decodeBaseRecord (root buf) start = .ok (N, c, ws)) :
    N = byteAt buf 126 ∧ c = ⟨8 * 128, .little⟩ := by
  have hs : ∃ c₁ ws₁, baseRecordSections (root buf) ⟨0, .little⟩ = .ok ((), c₁, ws₁) := by
    simp only [decodeBaseRecord, run_bind, start, setEndian_run, andThen_ok, prepend_nil] at h
    obtain ⟨_, c₁, ws₁, _, h₁, -⟩ := andThen_eq_ok h
    exact ⟨c₁, ws₁, h₁⟩
  obtain ⟨_, _, hs⟩ := hs
  rw [decodeBaseRecord_run hl hs] at h
  simp only [Except.ok.injEq, Prod.mk.injEq] at h
  exact ⟨h.1.symm, h.2.1.symm⟩

/-- **The closed form of `decodeEDID`** after a base record with `N` extensions. -/
theorem decodeEDID_run {buf : List UInt8} {N : Nat} {c : Cursor} {ws : List Field}
    (hb : decodeBaseRecord (root buf) start = .ok (N, c, ws)) (hl : 128 * (1 + N) ≤ buf.length) :
    decodeEDID (root buf) start = .ok ((), ⟨8 * (128 * (1 + N)), .little⟩,
      ws ++ if N > 0 then [.array "extensions" (extensionsOf buf N)] else []) := by
  obtain ⟨-, rfl⟩ := decodeBaseRecord_ok (by omega) hb
  have hr := rep_extensionWindow (root buf) .little N 1 (by simp only [root_limit]; omega)
  simp only [Nat.mul_one, root_buf] at hr
  simp only [decodeEDID, run_bind, hb, andThen_ok, ite_run]
  split
  · simp only [fieldArray, hr, prepend_ok, extensionsOf]
  · simp_all

/-- **Extension windows.** -/
theorem decodeEDID_windows {buf buf' : List UInt8} {N N' : Nat} {c c' : Cursor}
    {ws ws' : List Field} (hb : decodeBaseRecord (root buf) start = .ok (N, c, ws))
    (hl : 128 * (1 + N) ≤ buf.length) (hb' : decodeBaseRecord (root buf') start = .ok (N', c', ws'))
    (hl' : 128 * (1 + N') ≤ buf'.length) :
    N = byteAt buf 126 ∧
    decodeEDID (root buf) start = .ok ((), ⟨8 * (128 * (1 + N)), .little⟩,
      ws ++ if N > 0 then [.array "extensions" (extensionsOf buf N)] else []) ∧
    (extensionsOf buf N).length = N ∧
    (∀ k, 1 ≤ k → k ≤ N → (extensionsOf buf N)[k - 1]? =
      some (extensionEntry k (bytesAt buf (8 * (128 * k)) 128))) ∧
    (∀ k, 1 ≤ k → k ≤ N → k ≤ N' →
      (∀ j < 128, byteAt buf (128 * k + j) = byteAt buf' (128 * k + j)) →
      (extensionsOf buf N)[k - 1]? = (extensionsOf buf' N')[k - 1]?) ∧
    ((∀ j < 128, byteAt buf j = byteAt buf' j) → N = N' ∧ ws = ws') := by
  refine ⟨(decodeBaseRecord_ok (by omega) hb).1, decodeEDID_run hb hl, extensionsOf_length _ _,
    fun k h1 h2 => extensionsOf_getElem? buf h1 h2, fun k h1 h2 h2' hw => ?_, fun hw => ?_⟩
  · rw [extensionsOf_getElem? buf h1 h2, extensionsOf_getElem? buf' h1 h2', bytesAt_eq_of_window hw]
  · have ha : Agree 128 (root buf) (root buf') :=
      ⟨@take_eq_of_byteAt buf buf' 128 (by omega) (by omega) hw, by simp only [root_limit]; omega,
        by simp only [root_limit]; omega⟩
    have := decodeBaseRecord_local (root buf) (root buf') .big ha
    rw [show (⟨0, .big⟩ : Cursor) = start from rfl, hb, hb'] at this
    simp only [Except.ok.injEq, Prod.mk.injEq] at this
    exact ⟨this.1, this.2.2⟩

/-! ## Window checksums -/

/-- **What a completed CEA-861 run is made of**: the offset `d` (byte 2) lies between 4 and 91,
the two slots are decoded at `d` and `d + 18` in the byte order the run started with, and the
run ends with the checksum of byte 127 over bytes 0–126: padding and data lengths add up to
byte 127 whatever the offset. -/
theorem decodeCEAExtension_ok {fr : Frame} {e : Endian} {c : Cursor} {w : List Field}
    (hl : 8 * 128 ≤ fr.limit) (h : decodeCEAExtension fr ⟨0, e⟩ = .ok ((), c, w)) :
    4 ≤ byteAt fr.buf 2 ∧ byteAt fr.buf 2 ≤ 91 ∧
    ∃ w₀ w₁ w₂ w₃, w = w₀ ++ w₁ ++ w₂ ++ w₃ ++ [checksumField (8 * 127)
        (readBits fr.buf (8 * 127) 8) (calcSum (bytesAt fr.buf 0 127))] ∧
      detailedDescriptor "third_timing_descriptor" 1 fr ⟨8 * byteAt fr.buf 2, e⟩ =
        .ok ((), ⟨8 * byteAt fr.buf 2 + 144, e⟩, w₁) ∧
      detailedDescriptor "fourth_timing_descriptor" 1 fr ⟨8 * byteAt fr.buf 2 + 144, e⟩ =
        .ok ((), ⟨8 * byteAt fr.buf 2 + 144 + 144, e⟩, w₂) := by
  obtain ⟨_, w₁, _, -, h₁, rfl⟩ := (fieldU_advances _ _ _).bind_ok h
  obtain ⟨_, w₂, _, -, h₂, rfl⟩ := (fieldU_advances _ _ _).bind_ok h₁
  obtain ⟨v, w₃, _, hv, h₃, rfl⟩ := (fieldU_advances _ _ _).bind_ok h₂
  obtain ⟨_, w₄, _, -, h₄, rfl⟩ := (fieldU_advances _ _ _).bind_ok h₃
  obtain ⟨_, c₁, w₅, _, hp, h₅, rfl⟩ := andThen_eq_ok h₄
  obtain ⟨k₁, hk₁, rfl⟩ := fieldRawLen_ok_inv hp
  obtain ⟨_, w₆, _, h₆, h₆', rfl⟩ := (detailedDescriptor_advances _ _).bind_ok h₅
  obtain ⟨_, w₇, _, h₇, h₇', rfl⟩ := (detailedDescriptor_advances _ _).bind_ok h₆'
  obtain ⟨_, c₂, w₈, _, hd, h₈, rfl⟩ := andThen_eq_ok h₇'
  obtain ⟨k₂, hk₂, rfl⟩ := fieldRawLen_ok_inv hd
  dsimp only at hv h₆ h₇ h₈ hk₁ hk₂
  simp (disch := omega) only [fieldU_run, fieldUE, if_pos, mapUint_nil, endianValue_of_le,
    Except.ok.injEq, Prod.mk.injEq] at hv
  rw [show (0 + 8 + 8 : Nat) = 8 * 2 from rfl, readBits_byte] at hv
  obtain ⟨rfl, -, -⟩ := hv
  have hd : 0 + 8 + 8 + 8 + 8 + k₁ = 8 * byteAt fr.buf 2 := by omega
  rw [show 0 + 8 + 8 + 8 + 8 + k₁ + 144 + 144 + k₂ = 8 * 127 by omega] at h₈
  rw [hd] at h₆ h₇
  refine ⟨by omega, by omega, w₁ ++ w₂ ++ w₃ ++ w₄ ++ w₅, w₆, w₇, w₈, ?_, h₆, h₇⟩
  rw [fieldChecksum_ok_inv (by omega) (by omega) h₈]
  simp

/-- A CEA-861 window that decodes ends with the checksum of byte 127 over bytes 0–126. -/
theorem decodeCEAExtension_checksum {fr : Frame} {e : Endian} {c : Cursor} {w : List Field}
    (hl : 8 * 128 ≤ fr.limit) (h : decodeCEAExtension fr ⟨0, e⟩ = .ok ((), c, w)) :
    w.getLast? = some (checksumField (8 * 127) (readBits fr.buf (8 * 127) 8)
      (calcSum (bytesAt fr.buf 0 127))) := by
  obtain ⟨-, -, _, _, _, _, rfl, -⟩ := decodeCEAExtension_ok hl h
  simp

/-- A CEA-861 run decodes a timing slot at the offset in the byte order it started with. -/
theorem decodeCEAExtension_third_slot {fr : Frame} {e : Endian} {c : Cursor} {w : List Field}
    (hl : 8 * 128 ≤ fr.limit) (h : decodeCEAExtension fr ⟨0, e⟩ = .ok ((), c, w))
    (hs : byteAt fr.buf (byteAt fr.buf 2) ≠ 0 ∨ byteAt fr.buf (byteAt fr.buf 2 + 1) ≠ 0) :
    .struct "third_timing_descriptor" (dtdFields e (8 * byteAt fr.buf 2)
      (bytesAt fr.buf (8 * byteAt fr.buf 2) 18)) ∈ w := by
  obtain ⟨-, h91, w₀, w₁, w₂, w₃, rfl, h₁, -⟩ := decodeCEAExtension_ok hl h
  rw [detailedDescriptor_timing _ _ e (by omega) hs] at h₁
  simp only [Except.ok.injEq, Prod.mk.injEq] at h₁
  obtain ⟨-, -, rfl⟩ := h₁
  simp

/-- A DisplayID window that decodes ends with the checksum of byte 127 over bytes 0–126. -/
theorem decodeDisplayIDExtension_checksum {fr : Frame} {e : Endian} {c : Cursor} {w : List Field}
    (hl : 8 * 128 ≤ fr.limit) (h : decodeDisplayIDExtension fr ⟨0, e⟩ = .ok ((), c, w)) :
    w.getLast? = some (checksumField (8 * 127) (readBits fr.buf (8 * 127) 8)
      (calcSum (bytesAt fr.buf 0 127))) := by
  obtain ⟨_, _, _, -, h₁, rfl⟩ := (fieldU_advances _ _ _).bind_ok h
  obtain ⟨_, _, _, -, h₂, rfl⟩ := (fieldStruct_advances _ (framedFn_advances _ _)).bind_ok h₁
  dsimp only at h₂
  simp [fieldChecksum_ok_inv (by omega) (by omega) h₂]

/-- A registered format that completes on a window ends with the window's checksum. -/
theorem decodeGroup_checksum {W : List UInt8} {f : Format} {c : Cursor} {w : List Field}
    (h : decodeGroup ⟨W, 8 * 128⟩ edidExtensionGroup = some (f, c, w)) :
    w.getLast? = some (checksumField (8 * 127) (byteAt W 127) (calcSum (bytesAt W 0 127))) := by
  obtain ⟨hf, _, hr⟩ := decodeGroup_some h
  simp only [edidExtensionGroup, List.mem_cons, List.mem_singleton, List.not_mem_nil, or_false] at hf
  rw [← readBits_byte]
  rcases hf with rfl | rfl <;> dsimp only at hr
  · exact @decodeCEAExtension_checksum ⟨W, 8 * 128⟩ .big c w (Nat.le_refl _) hr
  · exact @decodeDisplayIDExtension_checksum ⟨W, 8 * 128⟩ .big c w (Nat.le_refl _) hr

/-- The entry of a window: the tree of a registered format that completes on it, ending with the
window's checksum, or the raw window. -/
theorem extensionEntry_cases (buf : List UInt8) (k : Nat) :
    (∃ f c w, decodeGroup ⟨bytesAt buf (8 * (128 * k)) 128, 8 * 128⟩ edidExtensionGroup =
        some (f, c, w) ∧
      extensionEntry k (bytesAt buf (8 * (128 * k)) 128) =
        .format "extension" f.description (8 * (128 * k)) w ∧
      w.getLast? = some (checksumField (8 * 127) (byteAt buf (128 * k + 127))
        (calcSum (bytesAt buf (8 * (128 * k)) 127)))) ∨
    (decodeGroup ⟨bytesAt buf (8 * (128 * k)) 128, 8 * 128⟩ edidExtensionGroup = none ∧
      extensionEntry k (bytesAt buf (8 * (128 * k)) 128) = .scalar "unknown_extension"
        (8 * (128 * k)) (8 * 128) (.raw (readBits buf (8 * (128 * k)) (8 * 128)))) := by
  rcases hg : decodeGroup ⟨bytesAt buf (8 * (128 * k)) 128, 8 * 128⟩ edidExtensionGroup
    with _ | ⟨f, c, w⟩
  · exact .inr ⟨rfl, by simp only [extensionEntry, hg, readBits_bytesAt]⟩
  · have hlast : byteAt (bytesAt buf (8 * (128 * k)) 128) 127 = byteAt buf (128 * k + 127) :=
      byteAt_bytesAt buf _ 128 127 (by omega)
    have hsum : bytesAt (bytesAt buf (8 * (128 * k)) 128) (8 * 0) 127 =
        bytesAt buf (8 * (128 * k)) 127 :=
      bytesAt_eq_of_window fun j hj => by rw [Nat.zero_add, byteAt_bytesAt buf _ 128 j (by omega)]
    refine .inl ⟨f, c, w, rfl, by simp only [extensionEntry, hg], ?_⟩
    rw [decodeGroup_checksum hg, hlast, ← hsum]

/-- **Extension checksums**: a window some registered format decodes carries the verdict of its
last byte over its 128 bytes; any other window is kept as raw bits, with no verdict. -/
theorem decodeEDID_extension_checksums {buf : List UInt8} {N : Nat} {c : Cursor}
    {ws : List Field} (hb : decodeBaseRecord (root buf) start = .ok (N, c, ws))
    (hl : 128 * (1 + N) ≤ buf.length) :
    decodeEDID (root buf) start = .ok ((), ⟨8 * (128 * (1 + N)), .little⟩,
      ws ++ if N > 0 then [.array "extensions" (extensionsOf buf N)] else []) ∧
    ∀ k, 1 ≤ k → k ≤ N →
      (∃ f c' w, decodeGroup ⟨bytesAt buf (8 * (128 * k)) 128, 8 * 128⟩ edidExtensionGroup =
          some (f, c', w) ∧
        (extensionsOf buf N)[k - 1]? = some (.format "extension" f.description (8 * (128 * k)) w) ∧
        w.getLast? = some (checksumField (8 * 127) (byteAt buf (128 * k + 127))
          (calcSum (bytesAt buf (8 * (128 * k)) 127))) ∧
        (checksumField (8 * 127) (byteAt buf (128 * k + 127))
          (calcSum (bytesAt buf (8 * (128 * k)) 127))).description? =
            some (if byteSum buf (128 * k) 128 % 256 = 0 then "valid" else "invalid")) ∨
      (decodeGroup ⟨bytesAt buf (8 * (128 * k)) 128, 8 * 128⟩ edidExtensionGroup = none ∧
        (extensionsOf buf N)[k - 1]? = some (.scalar "unknown_extension" (8 * (128 * k)) (8 * 128)
          (.raw (readBits buf (8 * (128 * k)) (8 * 128))))) := by
  refine ⟨decodeEDID_run hb hl, fun k h1 h2 => ?_⟩
  rw [extensionsOf_getElem? buf h1 h2]
  have hv := checksumField_verdict (8 * 127) buf (128 * k) 127 (128 * k + 127)
  rw [← byteSum_succ] at hv
  rcases extensionEntry_cases buf k with ⟨f, c', w, hg, he, hw⟩ | ⟨hg, he⟩
  · exact .inl ⟨f, c', w, hg, by rw [he], hw, hv⟩
  · exact .inr ⟨hg, by rw [he]⟩

/-- A base record that announces two extensions, a zero first window, and a second window that
starts with `t`. -/
def twoExtRecord (t : UInt8) : List UInt8 :=
  [0x00, 0xff, 0xff, 0xff, 0xff, 0xff, 0xff, 0x00] ++ List.replicate 118 0 ++ [2, 4] ++
    List.replicate 128 0 ++ [t] ++ List.replicate 127 0

/-- The first window of `twoExtRecord t` is zeros. -/
theorem twoExtRecord_window_zero (t : UInt8) {j : Nat} (hj : j < 128) :
    byteAt (twoExtRecord t) (128 * 1 + j) = 0 := by
  rw [byteAt, twoExtRecord, List.getD_eq_getElem?_getD, List.append_assoc, List.append_assoc,
    List.getElem?_append_right (by simp), List.getElem?_append_left (by simp; omega),
    List.getElem?_replicate]
  split_ifs <;> rfl

set_option maxRecDepth 4000 in
/-- Two records that differ in their second window give their first window the same entry. -/
theorem twoExtRecord_windows : twoExtRecord 0 ≠ twoExtRecord 2 ∧
    2 = byteAt (twoExtRecord 0) 126 ∧ (extensionsOf (twoExtRecord 0) 2).length = 2 ∧
    (extensionsOf (twoExtRecord 0) 2)[1 - 1]? = (extensionsOf (twoExtRecord 2) 2)[1 - 1]? := by
  obtain ⟨_, hb⟩ : ∃ ws, decodeBaseRecord (root (twoExtRecord 0)) start =
    .ok (2, ⟨8 * 128, .little⟩, ws) := ⟨_, rfl⟩
  obtain ⟨_, hb'⟩ : ∃ ws, decodeBaseRecord (root (twoExtRecord 2)) start =
    .ok (2, ⟨8 * 128, .little⟩, ws) := ⟨_, rfl⟩
  have h := decodeEDID_windows hb (by decide) hb' (by decide)
  exact ⟨by decide, h.1, h.2.2.1, h.2.2.2.2.1 1 le_rfl (by decide) (by decide) fun j hj => by
    rw [twoExtRecord_window_zero 0 hj, twoExtRecord_window_zero 2 hj]⟩

/-- A base record with one extension, whose window is all zeros: no registered format. -/
def sampleExtRecord : List UInt8 :=
  [0x00, 0xff, 0xff, 0xff, 0xff, 0xff, 0xff, 0x00] ++ List.replicate 118 0 ++ [1, 5] ++
    List.replicate 128 0

set_option maxRecDepth 4000 in
/-- The base record of `sampleExtRecord` decodes, with one extension. -/
theorem sampleExtRecord_base :
    ∃ ws, decodeBaseRecord (root sampleExtRecord) start = .ok (1, ⟨8 * 128, .little⟩, ws) :=
  ⟨_, rfl⟩

/-- No registered format completes on the zero window. -/
theorem sampleExtRecord_group :
    decodeGroup ⟨bytesAt sampleExtRecord (8 * (128 * 1)) 128, 8 * 128⟩ edidExtensionGroup = none :=
  rfl

set_option maxRecDepth 4000 in
theorem sampleExtRecord_checksums :
    (extensionsOf sampleExtRecord 1)[1 - 1]? = some (.scalar "unknown_extension" (8 * (128 * 1))
      (8 * 128) (.raw (readBits sampleExtRecord (8 * (128 * 1)) (8 * 128)))) := by
  obtain ⟨_, hb⟩ := sampleExtRecord_base
  rcases (decodeEDID_extension_checksums hb (by decide)).2 1 le_rfl le_rfl
    with ⟨_, _, _, hg, -⟩ | ⟨-, he⟩
  · simp only [sampleExtRecord_group, reduceCtorEq] at hg
  · exact he

/-- The window of `sampleExtRecord` is zeros. -/
theorem sampleExtRecord_window_zero (j : Nat) : byteAt sampleExtRecord (128 + j) = 0 := by
  rw [byteAt, sampleExtRecord, List.getD_eq_getElem?_getD, List.getElem?_append_right (by simp),
    List.getElem?_replicate]
  split_ifs <;> rfl

set_option maxRecDepth 4000 in
/-- The zero window sums to 0, yet its entry is raw bits with no checksum verdict. -/
theorem sampleExtRecord_unknown_window : byteSum sampleExtRecord 128 128 % 256 = 0 ∧
    ∃ ws, decodeEDID (root sampleExtRecord) start = .ok ((), ⟨8 * 256, .little⟩,
      ws ++ [.array "extensions" [.scalar "unknown_extension" (8 * 128) (8 * 128) (.raw 0)]]) := by
  obtain ⟨ws, hb⟩ := sampleExtRecord_base
  refine ⟨by rw [byteSum_eq_zero fun j _ => sampleExtRecord_window_zero j], ws, ?_⟩
  rw [decodeEDID_run hb (by decide)]
  simp only [extensionsOf, List.range', List.map, extensionEntry, sampleExtRecord_group,
    show 8 * 128 = 8 * 128 from rfl, readBits_bytesAt]
  rw [readBits_eq_zero fun j _ => sampleExtRecord_window_zero j]
  rfl

/-! ## One timing slot in two byte orders -/

/-- A window that the CEA-861 format decodes holds its timing slot at the offset (byte 2) decoded
in big endian: a registered format starts as a root decoder, in the host's default byte order. -/
theorem extensionEntry_cea_slot {k : Nat} {W : List UInt8} {p : Nat} {w : List Field}
    (he : extensionEntry k W = .format "extension" "EDID CEA-861 Series Timing Extension" p w)
    (hs : byteAt W (byteAt W 2) ≠ 0 ∨ byteAt W (byteAt W 2 + 1) ≠ 0) :
    .struct "third_timing_descriptor" (dtdFields .big (8 * byteAt W 2)
      (bytesAt W (8 * byteAt W 2) 18)) ∈ w := by
  unfold extensionEntry at he
  rcases hg : decodeGroup ⟨W, 8 * 128⟩ edidExtensionGroup with _ | ⟨f, c, w'⟩ <;>
    simp only [hg, reduceCtorEq, Field.format.injEq, true_and] at he
  obtain ⟨hd, -, rfl⟩ := he
  obtain ⟨hf, _, hr⟩ := decodeGroup_some hg
  simp only [edidExtensionGroup, List.mem_cons, List.mem_singleton, List.not_mem_nil, or_false] at hf
  rcases hf with rfl | rfl
  · dsimp only at hr
    exact @decodeCEAExtension_third_slot ⟨W, 8 * 128⟩ .big _ _ (Nat.le_refl _) hr hs
  · exact absurd hd (by decide)

/-- A timing slot whose pixel clock bytes are `01 02`. -/
def clockSlot : List UInt8 := [0x01, 0x02] ++ List.replicate 16 0

/-- A record with `clockSlot` as the base record's first slot, and one CEA-861 extension with
`clockSlot` as its third slot (offset 4). -/
def clockSlotRecord : List UInt8 :=
  [0x00, 0xff, 0xff, 0xff, 0xff, 0xff, 0xff, 0x00] ++ List.replicate 46 0 ++ clockSlot ++
    List.replicate 54 0 ++ [1, 0] ++ [0x02, 0x03, 0x04, 0x00] ++ clockSlot ++ List.replicate 106 0

set_option maxRecDepth 4000 in
/-- The same slot reads pixel clock `0x0201` in the base record and `0x0102` in the extension. -/
theorem clockSlotRecord_pixel_clocks :
    ∃ ws rest w, decodeEDID (root clockSlotRecord) start = .ok ((), ⟨8 * (128 * (1 + 1)), .little⟩,
        ws ++ [.array "extensions"
          [.format "extension" "EDID CEA-861 Series Timing Extension" (8 * (128 * 1)) w]]) ∧
      .struct "detailed_timings" (.struct "preferred_timing_mode"
        (dtdFields .little (8 * 54) clockSlot) :: rest) ∈ ws ∧
      .struct "third_timing_descriptor" (dtdFields .big (8 * 4) clockSlot) ∈ w ∧
      Field.uintsNamedList "pixel_clock" (dtdFields .little (8 * 54) clockSlot) = [0x0201] ∧
      Field.uintsNamedList "pixel_clock" (dtdFields .big (8 * 4) clockSlot) = [0x0102] := by
  obtain ⟨ws, hb⟩ : ∃ ws, decodeBaseRecord (root clockSlotRecord) start =
      .ok (1, ⟨8 * 128, .little⟩, ws) := ⟨_, rfl⟩
  obtain ⟨w, he⟩ : ∃ w, extensionEntry 1 (bytesAt clockSlotRecord (8 * (128 * 1)) 128) =
      .format "extension" "EDID CEA-861 Series Timing Extension" (8 * (128 * 1)) w := ⟨_, rfl⟩
  obtain ⟨rest, hbase⟩ := decodeBaseRecord_first_slot (by decide) hb (by decide)
  have hext := extensionEntry_cea_slot he (by decide)
  refine ⟨ws, rest, w, ?_, hbase, hext, by decide, by decide⟩
  rw [decodeEDID_run hb (by decide)]
  simp [extensionsOf, he]

end Edid
