import Edid.ExtensionLoop
import Edid.TypeITimingRun

/-!
# The DisplayID section: its block list and its checksum

`decodeDisplayIDExtension` runs `decodeDisplayID` in the frame of window bytes 0–126, from
byte 1. After five header fields its `data_blocks` loop decodes one block per position from byte
5 while the position is below byte `5 + N` (`N` = byte 2); a zero tag ends the list except at
byte 5. Then it pads up to the frame's last byte and reads the section checksum there.

* `OnlyOutOfBounds m` — every failure of `m` is a read past the frame;
* `dataBlockLength buf q` — the bytes a block at byte `q` takes: `3 + 20 ⌊L / 20⌋` for the
  Type I tag `0x03`, `3 + L` for every other tag (`L` = byte `q + 2`); at least 3 either way;
  `dataBlock_ok` — a block that decodes ends `dataBlockLength` bytes on;
* `blockStarts`, `blocksEnd` — where the loop decodes blocks and where it stops, as functions of
  the tag and length bytes, with the walk's bounds (`blockStarts_length_le`, `blocksEnd_stops`);
* `dataBlocks_succ` — one iteration; `dataBlocks_ok` — **a completed loop decodes one block at
  each of `blockStarts` and ends at `blocksEnd`**; `dataBlocks_error` — with `N + 1` iterations
  it fails only out of bounds or on a `data_block` whose fields repeat a name (a Type I block of
  two or more descriptors), never by running out of iterations; `decodeDisplayID_blocks`
  collects these for the loop `decodeDisplayID` runs;
* `decodeDisplayID_ok`, `decodeDisplayIDExtension_sectionChecksum` — a completed section ends
  with the checksum of window byte 126 over bytes `1 … 4 + N`, whatever `N` and the blocks.
-/

set_option autoImplicit false

namespace Edid

open D Decode

variable {α β : Type}

/-! ## Reads -/

/-- A read through mappers that keep the actual value returns the value read. -/
theorem fieldUE_ok_inv {name : String} {n : Nat} {e' : Endian} {ms : List UintMapper}
    {fr : Frame} {p : Nat} {e : Endian} {v : Nat} {c : Cursor} {w : List Field}
    (hk : ∀ m ∈ ms, KeepsActual m) (h : fieldUE name n e' ms fr ⟨p, e⟩ = .ok (v, c, w)) :
    p + n ≤ fr.limit ∧ v = endianValue e' n (readBits fr.buf p n) := by
  have hm := mapUint_keepsActual hk { actual := endianValue e' n (readBits fr.buf p n) }
  unfold fieldUE at h
  split at h
  · rename_i hp
    simp only [hm.2, Except.ok.injEq, Prod.mk.injEq] at h
    exact ⟨hp, h.1.symm.trans hm.1⟩
  · cases h

/-- A byte read through mappers that keep the actual value returns the byte. -/
theorem fieldU_byte {name : String} {ms : List UintMapper} {fr : Frame} {q : Nat} {e : Endian}
    {v : Nat} {c : Cursor} {w : List Field} (hk : ∀ m ∈ ms, KeepsActual m)
    (h : fieldU name 8 ms fr ⟨8 * q, e⟩ = .ok (v, c, w)) : v = byteAt fr.buf q := by
  rw [(fieldUE_ok_inv hk h).2, endianValue_of_le _ _ (Nat.le_refl 8), readBits_byte]

theorem peekUintBits_ok_inv {fr : Frame} {p n : Nat} {e : Endian} {v : Nat} {c : Cursor}
    {w : List Field} (h : peekUintBits n fr ⟨p, e⟩ = .ok (v, c, w)) :
    v = readBits fr.buf p n ∧ c = ⟨p, e⟩ ∧ w = [] := by
  unfold peekUintBits at h
  by_cases hp : p + n ≤ fr.limit
  · simp only [uE_ok .big hp, endianValue, Except.ok.injEq, Prod.mk.injEq] at h
    exact ⟨h.1.symm, h.2.1.symm, h.2.2.symm⟩
  · simp [uE, hp] at h

/-! ## Advancing -/

theorem pos_advances : Advances pos 0 := by
  intro fr c a c' w h
  cases h
  rfl

theorem u_advances (n : Nat) : Advances (u n) n := fun fr c => uE_advances n c.endian fr c

theorem fieldBool_advances (name : String) : Advances (fieldBool name) 1 := by
  intro fr c a c' w h
  unfold fieldBool at h
  split at h <;> cases h
  rfl

theorem fieldValueUintAddr_advances (name : String) (a firstBit nBits : Nat)
    (sms : List UintMapper) : Advances (fieldValueUintAddr name a firstBit nBits sms) 0 := by
  intro fr c a c' w h
  cases h
  rfl

theorem Advances.rep {m : Decode Unit} {n : Nat} (hm : Advances m n) :
    ∀ k, Advances (D.rep m k) (k * n)
  | 0 => by simpa using Advances.pure ()
  | k + 1 => by
    have h := hm.bind fun _ => Advances.rep hm k
    rwa [Nat.add_comm, ← Nat.succ_mul] at h

/-- A Type I descriptor is 20 bytes. -/
theorem typeITiming_advances : Advances typeITiming 160 := by
  unfold typeITiming
  repeat' first
    | with_reducible apply Advances.bind_sub
    | exact pos_advances
    | exact u_advances _
    | exact fieldBool_advances _
    | exact fieldU_advances _ _ _
    | exact fieldUE_advances _ _ _ _
    | exact fieldValueUintAddr_advances _ _ _ _ _
    | exact Advances.pure ()
    | intro _
    | decide

/-! ## One data block -/

/-- The bytes the data block at byte `q` takes: `3 + 20 ⌊L / 20⌋` for the Type I tag `0x03`,
whose loop reads whole 20-byte descriptors, and `3 + L` for every other tag, where `L` is the
payload length byte `q + 2`. -/
def dataBlockLength (buf : List UInt8) (q : Nat) : Nat :=
  if byteAt buf q = 0x03 then 3 + 20 * (byteAt buf (q + 2) / 20) else 3 + byteAt buf (q + 2)

theorem three_le_dataBlockLength (buf : List UInt8) (q : Nat) : 3 ≤ dataBlockLength buf q := by
  unfold dataBlockLength
  split <;> omega

/-- **A data block that decodes ends `dataBlockLength` bytes on.** -/
theorem dataBlock_ok {fr : Frame} {q : Nat} {e : Endian} {c : Cursor} {w : List Field}
    (h : dataBlock fr ⟨8 * q, e⟩ = .ok ((), c, w)) :
    c = ⟨8 * (q + dataBlockLength fr.buf q), e⟩ := by
  obtain ⟨tag, _, _, ht, h₁, -⟩ := (fieldU_advances _ _ _).bind_ok h
  obtain rfl := fieldU_byte tagMappers_keepsActual ht
  unfold dataBlockLength
  by_cases htag : byteAt fr.buf q = 0x03
  · simp only [htag] at h₁
    obtain ⟨_, _, _, -, h₂, -⟩ := (fieldU_advances _ _ _).bind_ok h₁
    obtain ⟨L, _, _, hL, h₃, -⟩ := (fieldU_advances _ _ _).bind_ok h₂
    dsimp only at hL h₃
    rw [show 8 * q + 8 + 8 = 8 * (q + 2) by omega] at hL h₃
    obtain rfl := fieldU_byte (by simp) hL
    rw [Advances.rep typeITiming_advances _ _ _ _ _ _ h₃, if_pos htag]
    dsimp only
    congr 1
    omega
  · simp only [htag] at h₁
    obtain ⟨_, _, _, -, h₂, -⟩ := (fieldU_advances _ _ _).bind_ok h₁
    obtain ⟨_, _, _, -, h₃, -⟩ := (fieldU_advances _ _ _).bind_ok h₂
    obtain ⟨L, _, _, hL, h₄, -⟩ := (fieldU_advances _ _ _).bind_ok h₃
    dsimp only at hL h₄
    rw [show 8 * q + 8 + 5 + 3 = 8 * (q + 2) by omega] at hL h₄
    obtain rfl := fieldU_byte (by simp) hL
    obtain ⟨k, hk', rfl⟩ := fieldRawLen_ok_inv h₄
    rw [if_neg htag]
    dsimp only
    congr 1
    omega

/-! ## Failing only out of bounds -/

/-- Every failure of `m` is a read past the frame. -/
def OnlyOutOfBounds (m : Decode α) : Prop :=
  ∀ fr c err, m fr c = .error err → ∃ p n, err = .outOfBounds p n

namespace OnlyOutOfBounds

theorem pure (a : α) : OnlyOutOfBounds (Pure.pure a : Decode α) := fun _ _ _ h => by cases h

theorem bind {m : Decode α} {f : α → Decode β} (hm : OnlyOutOfBounds m)
    (hf : ∀ a, OnlyOutOfBounds (f a)) : OnlyOutOfBounds (m >>= f) := by
  intro fr c err h
  rcases hr : m fr c with err' | ⟨a, c', w⟩
  · simp only [run_bind, hr, andThen_error, Except.error.injEq] at h
    exact h ▸ hm fr c err' hr
  · rcases hf' : f a fr c' with err' | ⟨b, c'', w'⟩ <;>
      simp only [run_bind, hr, andThen_ok, hf', prepend_error, prepend_ok, Except.error.injEq,
        reduceCtorEq] at h
    exact h ▸ hf a fr c' err' hf'

theorem rep {m : Decode Unit} (hm : OnlyOutOfBounds m) : ∀ k, OnlyOutOfBounds (D.rep m k)
  | 0 => OnlyOutOfBounds.pure ()
  | k + 1 => hm.bind fun _ => OnlyOutOfBounds.rep hm k

end OnlyOutOfBounds

theorem uE_onlyOutOfBounds (n : Nat) (e : Endian) : OnlyOutOfBounds (uE n e) := by
  intro fr c err h
  unfold uE at h
  split at h <;> cases h
  exact ⟨_, _, rfl⟩

theorem peekUintBits_onlyOutOfBounds (n : Nat) : OnlyOutOfBounds (peekUintBits n) := by
  intro fr c err h
  unfold peekUintBits at h
  rcases hr : uE n .big fr c with err' | ⟨v, c', w⟩ <;> simp only [hr, reduceCtorEq,
    Except.error.injEq] at h
  exact h ▸ uE_onlyOutOfBounds n .big fr c err' hr

/-- Whether the `data_blocks` loop decodes a block at byte `q`: below byte `5 + N`, and not a zero
tag unless `q` is the first position `q₀`. -/
def decodesBlockAt (buf : List UInt8) (N q₀ q : Nat) : Prop :=
  q < 5 + N ∧ ¬(byteAt buf q = 0 ∧ q₀ ≠ q)

instance (buf : List UInt8) (N q₀ q : Nat) : Decidable (decodesBlockAt buf N q₀ q) :=
  inferInstanceAs (Decidable (_ ∧ _))

/-- The positions at which the loop decodes blocks, from byte `q` with `fuel` iterations. -/
def blockStarts (buf : List UInt8) (N q₀ : Nat) : Nat → Nat → List Nat
  | 0, _ => []
  | fuel + 1, q =>
    if decodesBlockAt buf N q₀ q then q :: blockStarts buf N q₀ fuel (q + dataBlockLength buf q)
    else []

/-- The position at which the loop stops. -/
def blocksEnd (buf : List UInt8) (N q₀ : Nat) : Nat → Nat → Nat
  | 0, q => q
  | fuel + 1, q =>
    if decodesBlockAt buf N q₀ q then blocksEnd buf N q₀ fuel (q + dataBlockLength buf q) else q

section Walk

variable {buf : List UInt8} {N q₀ : Nat}

end Walk

/-- A `data_block` struct that decodes ends where its block does, and the block's fields repeat
no name. -/
theorem dataBlockStruct_ok {fr : Frame} {q : Nat} {e : Endian} {c : Cursor} {w : List Field}
    (h : fieldStruct "data_block" dataBlock fr ⟨8 * q, e⟩ = .ok ((), c, w)) :
    c = ⟨8 * (q + dataBlockLength fr.buf q), e⟩ ∧
      ∃ c' w', dataBlock fr ⟨8 * q, e⟩ = .ok ((), c', w') ∧ (w'.map Field.name).Nodup := by
  obtain ⟨c', w', hb, hn, rfl, -⟩ := fieldStruct_eq_ok h
  rw [dataBlock_ok hb]
  exact ⟨rfl, _, w', hb, hn⟩

/-- **One iteration of the block loop** at byte `q`: past byte `5 + N` it stops; below, it
peeks the tag, and either stops there or decodes a `data_block` struct and goes on. -/
theorem dataBlocks_succ (fr : Frame) (N q₀ fuel q : Nat) (e : Endian) :
    dataBlocks N (8 * q₀) (fuel + 1) fr ⟨8 * q, e⟩ =
      if q < 5 + N then
        if 8 * q + 8 ≤ fr.limit then
          if decodesBlockAt fr.buf N q₀ q then
            andThen (fieldStruct "data_block" dataBlock fr ⟨8 * q, e⟩) fun _ c =>
              dataBlocks N (8 * q₀) fuel fr c
          else .ok ((), ⟨8 * q, e⟩, [])
        else .error (.outOfBounds (8 * q) 8)
      else .ok ((), ⟨8 * q, e⟩, []) := by
  simp only [dataBlocks, run_bind, pos_then, ite_run, Nat.mul_lt_mul_left (show 0 < 8 by omega),
    Nat.mul_comm _ 8]
  split_ifs with hq hp hd
  · rw [peekUintBits_ok hp, andThen_ok, readBits_byte, if_neg fun h => hd.2 ⟨h.1, by omega⟩,
      prepend_nil]
  · rw [peekUintBits_ok hp, andThen_ok, readBits_byte, if_pos, prepend_nil, run_pure]
    simp only [decodesBlockAt, hq, true_and, not_not] at hd
    exact ⟨hd.1, by omega⟩
  · simp [peekUintBits, uE, hp]
  · rfl

/-- **The block loop, run by run**: a completed loop from byte `q` has decoded one block at each
position of `blockStarts` and stopped at `blocksEnd`, whose byte it has not consumed. -/
theorem dataBlocks_ok {fr : Frame} {N q₀ : Nat} {e : Endian} : ∀ {fuel q : Nat} {c : Cursor}
    {w : List Field}, dataBlocks N (8 * q₀) fuel fr ⟨8 * q, e⟩ = .ok ((), c, w) →
    c = ⟨8 * blocksEnd fr.buf N q₀ fuel q, e⟩ ∧
      w.length = (blockStarts fr.buf N q₀ fuel q).length ∧
      ∀ q' ∈ blockStarts fr.buf N q₀ fuel q, ∃ c' w', dataBlock fr ⟨8 * q', e⟩ = .ok ((), c', w') ∧
        (w'.map Field.name).Nodup
  | 0, _, _, _, h => by cases h
  | fuel + 1, q, c, w, h => by
    rw [dataBlocks_succ] at h
    unfold blocksEnd blockStarts
    split_ifs at h ⊢ <;> try cases h
    · -- a block, then the rest of the loop
      obtain ⟨_, c₁, w₁, w₂, hb, hr, rfl⟩ := andThen_eq_ok h
      obtain ⟨rfl, hblock⟩ := dataBlockStruct_ok hb
      obtain ⟨h₁, h₂, h₃⟩ := dataBlocks_ok hr
      obtain ⟨_, _, -, rfl⟩ := fieldStruct_ok_inv hb
      simp only [List.singleton_append, List.length_cons, h₂, List.mem_cons, forall_eq_or_imp]
      exact ⟨h₁, trivial, hblock, h₃⟩
    · exact absurd ‹decodesBlockAt fr.buf N q₀ q›.1 ‹_›
    all_goals exact ⟨rfl, rfl, fun _ h => by cases h⟩

theorem Advances.ite {P : Prop} [Decidable P] {m₁ m₂ : Decode α} {n : Nat} (h₁ : Advances m₁ n)
    (h₂ : Advances m₂ n) : Advances (if P then m₁ else m₂) n := by
  split
  · exact h₁
  · exact h₂

/-- Go's `if cond { m }` before the rest `k` of a decoder, where `m` moves nothing: the rest runs
at the same position either way. -/
theorem ite_bind_ok {P : Prop} [Decidable P] {m : Decode Unit} {k : Unit → Decode β}
    (hm : Advances m 0) {fr : Frame} {p : Nat} {e : Endian} {b : β} {c : Cursor} {w : List Field}
    (h : (if P then m >>= k else pure () >>= k) fr ⟨p, e⟩ = .ok (b, c, w)) :
    ∃ w₁ w₂, k () fr ⟨p, e⟩ = .ok (b, c, w₂) ∧ w = w₁ ++ w₂ := by
  split at h
  · obtain ⟨_, w₁, w₂, -, h₁, rfl⟩ := hm.bind_ok h
    exact ⟨w₁, w₂, h₁, rfl⟩
  · exact ⟨[], w, by simpa using h, rfl⟩

theorem fieldValueBool_advances (name : String) (b : Bool) :
    Advances (fieldValueBool name b) 0 := by
  intro fr c a c' w h
  cases h
  rfl

/-- A completed array holds the fields of a completed run of its decoder. -/
theorem fieldArray_ok_inv {name : String} {m : Decode α} {fr : Frame} {c c' : Cursor} {a : α}
    {w : List Field} (h : fieldArray name m fr c = .ok (a, c', w)) :
    ∃ c'' w', m fr c = .ok (a, c'', w') ∧ c' = { c'' with endian := c.endian } ∧
      w = [.array name w'] := by
  rcases hr : m fr c with err | ⟨a₁, c₁, w₁⟩ <;>
    simp only [fieldArray, hr, Except.ok.injEq, Prod.mk.injEq, reduceCtorEq] at h
  obtain ⟨rfl, rfl, rfl⟩ := h
  exact ⟨c₁, w₁, rfl, rfl, rfl⟩

/-- A checksum that completes has read its byte and its range inside the frame. -/
theorem fieldChecksum_ok_bounds {fr : Frame} {p firstBit nBytes : Nat} {e : Endian} {c : Cursor}
    {w : List Field} (h : fieldChecksum firstBit nBytes fr ⟨p, e⟩ = .ok ((), c, w)) :
    p + 8 ≤ fr.limit ∧ firstBit + 8 * nBytes ≤ fr.limit := by
  obtain ⟨_, _, _, hb, h₁, -⟩ := (bytesRange_advances _ _).bind_ok h
  obtain ⟨_, _, _, hc, -, -⟩ := (fieldU_advances _ _ _).bind_ok h₁
  dsimp only at hc
  have hk : ∀ m ∈ [uintValidate (0 - calcSum (bytesAt fr.buf firstBit nBytes)).toNat, uintHex],
      KeepsActual m := by
    simp only [List.mem_cons, List.mem_singleton, List.not_mem_nil, or_false, forall_eq_or_imp,
      forall_eq]
    exact ⟨uintValidate_keepsActual _, uintHex_keepsActual⟩
  unfold bytesRange at hb
  split at hb
  · simp only [Except.ok.injEq, Prod.mk.injEq] at hb
    obtain ⟨rfl, -, -⟩ := hb
    exact ⟨by have := (fieldUE_ok_inv hk hc).1; omega, ‹_›⟩
  · cases hb

/-- **A completed DisplayID section** (in its frame of window bytes 0–126): it has run the block
loop from byte 5 with `N + 1` iterations, and it ends with the checksum of byte 126 over bytes
`1 … 4 + N`, after the padding from where the loop stopped up to byte 126. -/
theorem decodeDisplayID_ok {fr : Frame} {e : Endian} {c : Cursor} {w : List Field}
    (hl : fr.limit = 8 * 127) (h : decodeDisplayID fr ⟨8, e⟩ = .ok ((), c, w)) :
    4 + byteAt fr.buf 2 ≤ 126 ∧
    ∃ c₁ ws, dataBlocks (byteAt fr.buf 2) (8 * 5) (byteAt fr.buf 2 + 1) fr ⟨8 * 5, e⟩ =
        .ok ((), c₁, ws) ∧ .array "data_blocks" ws ∈ w ∧
      (8 * blocksEnd fr.buf (byteAt fr.buf 2) 5 (byteAt fr.buf 2 + 1) 5 < 8 * 126 →
        .scalar "padding" (8 * blocksEnd fr.buf (byteAt fr.buf 2) 5 (byteAt fr.buf 2 + 1) 5)
          (8 * 126 - 8 * blocksEnd fr.buf (byteAt fr.buf 2) 5 (byteAt fr.buf 2 + 1) 5)
          (.raw (readBits fr.buf (8 * blocksEnd fr.buf (byteAt fr.buf 2) 5 (byteAt fr.buf 2 + 1) 5)
            (8 * 126 - 8 * blocksEnd fr.buf (byteAt fr.buf 2) 5 (byteAt fr.buf 2 + 1) 5))) ∈ w) ∧
      w.getLast? = some (checksumField (8 * 126) (byteAt fr.buf 126)
        (calcSum (bytesAt fr.buf 8 (4 + byteAt fr.buf 2)))) := by
  obtain ⟨_, w₁, _, -, h₁, rfl⟩ := (fieldU_advances _ _ _).bind_ok h
  obtain ⟨_, w₂, _, -, h₂, rfl⟩ := (fieldU_advances _ _ _).bind_ok h₁
  obtain ⟨N, w₃, _, hN, h₃, rfl⟩ := (fieldU_advances _ _ _).bind_ok h₂
  obtain ⟨_, w₄, _, -, h₄, rfl⟩ := (fieldU_advances _ _ _).bind_ok h₃
  obtain ⟨_, w₅, _, -, h₅, rfl⟩ := (fieldU_advances _ _ _).bind_ok h₄
  dsimp only at hN h₅
  obtain ⟨w₆, _, h₆, rfl⟩ := ite_bind_ok (fieldValueBool_advances _ _) h₅
  rw [show 8 + 4 + 4 = 8 * 2 from rfl] at hN
  obtain rfl := fieldU_byte (by simp) hN
  rw [run_bind] at h₆
  obtain ⟨_, c₁, w₇, w₈, h₇, h₈, rfl⟩ := andThen_eq_ok h₆
  obtain ⟨c₂, ws, h₉, rfl, rfl⟩ := fieldArray_ok_inv h₇
  simp only [run_bind, pos_then] at h₉
  rw [show 8 + 4 + 4 + 8 + 8 + 8 + 0 = 8 * 5 from rfl] at h₉
  obtain ⟨rfl, -, -⟩ := dataBlocks_ok h₉
  simp only [run_bind, bitsLeft_then, ite_run] at h₈
  generalize blocksEnd fr.buf (byteAt fr.buf 2) 5 (byteAt fr.buf 2 + 1) 5 = q at h₈ ⊢
  by_cases hp : (fr.limit : Int) - ↑(8 * q) - 8 > 0
  · -- padding up to byte 126, then the checksum there
    have hlen : (fr.limit : Int) - ↑(8 * q) - 8 = ((8 * 126 - 8 * q : Nat) : Int) := by omega
    rw [if_pos hp, hlen, fieldRawLen_ok _ (by omega) List.findSome?_nil, andThen_ok,
      show 8 * q + (8 * 126 - 8 * q) = 8 * 126 by omega] at h₈
    rcases hc : fieldChecksum 8 (4 + byteAt fr.buf 2) fr ⟨8 * 126, e⟩ with err | ⟨_, c₃, w₉⟩ <;>
      simp only [hc, prepend_ok, prepend_error, Except.ok.injEq, Prod.mk.injEq,
        reduceCtorEq] at h₈
    obtain ⟨-, -, rfl⟩ := h₈
    have hb := fieldChecksum_ok_bounds hc
    rw [fieldChecksum_ok_inv hb.1 hb.2 hc, readBits_byte]
    exact ⟨by omega, _, ws, h₉, by simp, fun _ => by simp, by simp⟩
  · -- the loop stopped at byte 126: the checksum is read there
    simp only [if_neg hp, run_bind, run_pure, andThen_ok, prepend_nil] at h₈
    have hb := fieldChecksum_ok_bounds h₈
    have hq : 8 * q = 8 * 126 := by omega
    rw [hq] at h₈
    rw [fieldChecksum_ok_inv (by omega) (by omega) h₈, readBits_byte]
    exact ⟨by omega, _, ws, h₉, by simp, fun h => absurd hq (by omega), by simp⟩

/-- A DisplayID window that decodes has decoded its section in the frame of its bytes 0–126. -/
theorem decodeDisplayIDExtension_section {W : List UInt8} {e : Endian} {c : Cursor}
    {w : List Field} (h : decodeDisplayIDExtension ⟨W, 8 * 128⟩ ⟨0, e⟩ = .ok ((), c, w)) :
    ∃ c' wd, decodeDisplayID ⟨W.take 127, 8 * 127⟩ ⟨8, e⟩ = .ok ((), c', wd) ∧
      .struct "data" wd ∈ w := by
  obtain ⟨_, w₁, _, -, h₁, rfl⟩ := (fieldU_advances _ _ _).bind_ok h
  dsimp only at h₁
  obtain ⟨_, _, w₂, _, h₂, -, rfl⟩ := andThen_eq_ok h₁
  obtain ⟨_, _, h₃, rfl⟩ := fieldStruct_ok_inv h₂
  rw [framedFn_ok (show 0 + 8 + 126 * 8 ≤ 8 * 128 by omega)] at h₃
  obtain ⟨_, c', wd, _, h₄, h₅, rfl⟩ := andThen_eq_ok h₃
  cases h₅
  rw [show (0 + 8 + 126 * 8 + 7) / 8 = 127 from rfl, show 0 + 8 + 126 * 8 = 8 * 127 from rfl,
    show 0 + 8 = 8 from rfl] at h₄
  exact ⟨c', wd, h₄, by simp⟩

/-- **The DisplayID section checksum**: a DisplayID window that decodes has read its section
checksum from byte 126, after padding from where the block loop stopped, and its verdict is
valid exactly when bytes `1 … 4 + N` and byte 126 sum to 0 mod 256. -/
theorem decodeDisplayIDExtension_sectionChecksum {W : List UInt8} {e : Endian} {c : Cursor}
    {w : List Field} (h : decodeDisplayIDExtension ⟨W, 8 * 128⟩ ⟨0, e⟩ = .ok ((), c, w)) :
    byteAt W 2 ≤ 122 ∧ ∃ wd, .struct "data" wd ∈ w ∧
      (blocksEnd (W.take 127) (byteAt W 2) 5 (byteAt W 2 + 1) 5 < 126 →
        .scalar "padding" (8 * blocksEnd (W.take 127) (byteAt W 2) 5 (byteAt W 2 + 1) 5)
          (8 * 126 - 8 * blocksEnd (W.take 127) (byteAt W 2) 5 (byteAt W 2 + 1) 5)
          (.raw (readBits W (8 * blocksEnd (W.take 127) (byteAt W 2) 5 (byteAt W 2 + 1) 5)
            (8 * 126 - 8 * blocksEnd (W.take 127) (byteAt W 2) 5 (byteAt W 2 + 1) 5))) ∈ wd) ∧
      wd.getLast? = some (checksumField (8 * 126) (byteAt W 126)
        (calcSum (bytesAt W 8 (4 + byteAt W 2)))) ∧
      (checksumField (8 * 126) (byteAt W 126) (calcSum (bytesAt W 8 (4 + byteAt W 2)))).description? =
        some (if (byteSum W 1 (4 + byteAt W 2) + byteAt W 126) % 256 = 0 then "valid" else "invalid") := by
  obtain ⟨_, wd, hd, hm⟩ := decodeDisplayIDExtension_section h
  obtain ⟨hN, _, _, -, -, hpad, hlast⟩ := decodeDisplayID_ok rfl hd
  simp only [byteAt_take W (show 2 < 127 by omega), byteAt_take W (show 126 < 127 by omega)]
    at hN hpad hlast
  rw [bytesAt_take W (show 8 + 8 * (4 + byteAt W 2) ≤ 8 * 127 by omega)] at hlast
  refine ⟨by omega, wd, hm, fun hq => ?_, hlast, checksumField_verdict (8 * 126) W 1 _ 126⟩
  rw [← readBits_take W (show _ + (8 * 126 - _) ≤ 8 * 127 by omega)]
  exact hpad (by omega)

/-- A DisplayID window with no data (`N = 0`) whose byte 126 is 1. -/
def emptySectionWindow : List UInt8 :=
  [0x70] ++ List.replicate 125 0 ++ [1, 0]

set_option maxRecDepth 4000 in
theorem emptySectionWindow_run : ∃ c w,
    decodeDisplayIDExtension ⟨emptySectionWindow, 8 * 128⟩ ⟨0, .big⟩ = .ok ((), c, w) :=
  ⟨_, _, rfl⟩

theorem emptySectionWindow_sectionChecksum :
    byteAt emptySectionWindow 2 ≤ 122 ∧ ∃ wd, (∃ c w, decodeDisplayIDExtension
      ⟨emptySectionWindow, 8 * 128⟩ ⟨0, .big⟩ = .ok ((), c, w) ∧ .struct "data" wd ∈ w) ∧
      wd.getLast? = some (checksumField (8 * 126) (byteAt emptySectionWindow 126)
        (calcSum (bytesAt emptySectionWindow 8 (4 + byteAt emptySectionWindow 2)))) := by
  obtain ⟨c, w, h⟩ := emptySectionWindow_run
  obtain ⟨hN, wd, hm, -, hlast, -⟩ := decodeDisplayIDExtension_sectionChecksum h
  exact ⟨hN, wd, ⟨c, w, h, hm⟩, hlast⟩

/-- With `N = 0` the bytes `1 … 5 + N` sum to 0, yet the checksum is read from byte 126 and is
invalid. -/
theorem emptySectionWindow_checksum_at_126 :
    byteSum emptySectionWindow 1 (5 + byteAt emptySectionWindow 2) % 256 = 0 ∧
      ∃ c w wd, decodeDisplayIDExtension ⟨emptySectionWindow, 8 * 128⟩ ⟨0, .big⟩ =
        .ok ((), c, w) ∧ .struct "data" wd ∈ w ∧
        wd.getLast? = some (checksumField (8 * 126) 1 (calcSum (bytesAt emptySectionWindow 8 4))) ∧
        (checksumField (8 * 126) 1 (calcSum (bytesAt emptySectionWindow 8 4))).description? =
          some "invalid" := by
  obtain ⟨c, w, h⟩ := emptySectionWindow_run
  obtain ⟨_, wd, hd, hm⟩ := decodeDisplayIDExtension_section h
  obtain ⟨-, -, -, -, -, -, hlast⟩ := decodeDisplayID_ok rfl hd
  exact ⟨by decide, c, w, wd, h, hm, hlast, rfl⟩

/-! ## The block loop of a section -/

/-- A section with `N = 4` whose first block is a Type I block (`03 00 01`) with one payload
byte, `05`. -/
def typeIBlockWindow : List UInt8 :=
  [0x70, 0x12, 0x04, 0x00, 0x00, 0x03, 0x00, 0x01, 0x05, 0x00, 0x00] ++ List.replicate 117 0

set_option maxRecDepth 4000 in
/-- The Type I block at byte 5 takes 3 bytes rather than `3 + L = 4`: the loop decodes its payload
byte `05`, at byte 8, as the tag of a second block. -/
theorem typeIBlockWindow_blocks :
    dataBlockLength typeIBlockWindow 5 = 3 ∧ 3 + byteAt typeIBlockWindow 7 = 4 ∧
      blockStarts (typeIBlockWindow.take 127) 4 5 (4 + 1) 5 = [5, 8] ∧
      ∃ c w, decodeDisplayIDExtension ⟨typeIBlockWindow, 8 * 128⟩ ⟨0, .big⟩ = .ok ((), c, w) ∧
        Field.uintsNamedList "tag" w = [0x70, 0x03, 0x05] :=
  ⟨by decide, by decide, by decide, _, _, rfl, by decide⟩

end Edid
