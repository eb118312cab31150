import Edid.Acceptance

/-!
# How a decode fails

Which errors `decodeEDID` reports. `FailsOnlyAt P m fr c`: every failure of the run of `m` on
frame `fr` from cursor `c` is one `P` allows. Its bind rule follows the host's `andThen`, so a
decoder's failures are the failures of its steps, each at the cursor where it runs; a frame
(`framedFn`) fails past the end of its parent or as its decoder does inside it.

* `FailsOnlyAt.bind`, `FailsOnlyAt.bind_advances`, `framedFn_failsOnlyAt` — the calculus;
* `detailedDescriptor_failsOnlyAt` — a descriptor slot fails past the end of the frame, on a
  display descriptor's identifier, or on a range-limits padding;
* `decodeEDID_errors` — **every error of `decodeEDID`** is a read that runs past the end of the
  buffer, or one of its three assertions: it never panics, never seeks before the buffer,
  never reads a negative length;
* `decodeEDID_rejectedSlot` — a record with the magic fails at its first rejected descriptor
  slot, on the identifier or on the padding;
* `decodeEDID_truncated` — an accepted base record whose buffer ends before its last extension
  fails at the first extension window the buffer does not hold.

The host's unique-name rule never fails here: no struct of the base record repeats a name
(`baseStructs_unique`, `descriptorSlots_unique`), so `fieldStruct_failsOnlyAt` carries the
failures of a struct's decoder up unchanged.
-/

set_option autoImplicit false

namespace Edid

open D Decode

variable {α β : Type} {P : DecodeError → Prop}

/-- Every failure of the run of `m` on `fr` from `c` is one `P` allows. -/
def FailsOnlyAt (P : DecodeError → Prop) (m : Decode α) (fr : Frame) (c : Cursor) : Prop :=
  ∀ err, m fr c = .error err → P err

/-- The failures `decodeEDID` reports on a buffer of `limit` bits: a read that runs past its
end, or one of its three assertions — the magic, a display descriptor's identifier, and the
padding of a range-limits descriptor. -/
def EdidError (limit : Nat) (err : DecodeError) : Prop :=
  (∃ p n, err = .outOfBounds p n ∧ limit < p + n) ∨
    err = .mapper "identifier" "failed to validate raw" ∨
    err = .mapper "identifer" "failed to validate raw" ∨
    err = .mapper "padding" "failed to validate raw"

theorem edidError_outOfBounds {limit p n : Nat} (h : limit < p + n) :
    EdidError limit (.outOfBounds p n) :=
  .inl ⟨p, n, rfl, h⟩

/-- The host's sequencing fails where its first step fails, or where the rest fails after it. -/
theorem andThen_eq_error {o : Outcome α} {k : α → Cursor → Outcome β} {err : DecodeError}
    (h : andThen o k = .error err) :
    o = .error err ∨ ∃ a c w, o = .ok (a, c, w) ∧ k a c = .error err := by
  rcases o with err' | ⟨a, c, w⟩
  · rw [andThen_error] at h
    exact .inl (congrArg _ (Except.error.inj h))
  · refine .inr ⟨a, c, w, rfl, ?_⟩
    rw [andThen_ok] at h
    rcases hk : k a c with _ | ⟨b, c', w'⟩ <;> rw [hk] at h <;> cases h
    rfl

/-- A frame that does not fit in its parent fails at once. -/
theorem framedFn_outOfBounds {n : Nat} {m : Decode α} {fr : Frame} {c : Cursor}
    (h : fr.limit < c.pos + n) : framedFn n m fr c = .error (.outOfBounds c.pos n) :=
  if_neg (by omega)

/-! ## The calculus -/

namespace FailsOnlyAt

variable {m : Decode α} {fr : Frame} {c : Cursor}

theorem of_ok {r : α × Cursor × List Field} (h : m fr c = .ok r) : FailsOnlyAt P m fr c :=
  fun _ h' => by cases h.symm.trans h'

theorem of_completesAt {n : Nat} (h : CompletesAt m fr c n) : FailsOnlyAt P m fr c :=
  let ⟨_, _, hr⟩ := h
  of_ok hr

theorem of_error {err : DecodeError} (h : m fr c = .error err) (hp : P err) :
    FailsOnlyAt P m fr c :=
  fun _ h' => by cases h.symm.trans h'; exact hp

theorem bind {f : α → Decode β} (hm : FailsOnlyAt P m fr c)
    (hf : ∀ a c' w, m fr c = .ok (a, c', w) → FailsOnlyAt P (f a) fr c') :
    FailsOnlyAt P (m >>= f) fr c := by
  intro err h
  rcases andThen_eq_error h with h | ⟨a, c', w, hr, hk⟩
  · exact hm err h
  · exact hf a c' w hr err hk

/-- A first step that ends `n` bits on: the rest runs from there. -/
theorem bind_advances {f : α → Decode β} {n : Nat} (hm : FailsOnlyAt P m fr c) (hn : Advances m n)
    (hf : ∀ a, FailsOnlyAt P (f a) fr ⟨c.pos + n, c.endian⟩) : FailsOnlyAt P (m >>= f) fr c :=
  hm.bind fun a c' w h => hn fr c a c' w h ▸ hf a

end FailsOnlyAt

/-- A struct fails as its decoder does, where no run of the decoder repeats a name. -/
theorem fieldStruct_failsOnlyAt (name : String) {m : Decode α} {fr : Frame} {c : Cursor}
    (hu : ∀ a c' w, m fr c = .ok (a, c', w) → (w.map Field.name).Nodup)
    (hm : FailsOnlyAt P m fr c) : FailsOnlyAt P (fieldStruct name m) fr c := by
  intro err h
  unfold fieldStruct at h
  split at h
  · rw [firstRepeat_nil_eq_none.mpr (hu _ _ _ ‹_›)] at h
    cases h
  · cases h
    exact hm _ ‹_›

theorem fieldArray_failsOnlyAt (name : String) {m : Decode α} {fr : Frame} {c : Cursor}
    (hm : FailsOnlyAt P m fr c) : FailsOnlyAt P (fieldArray name m) fr c := by
  intro err h
  unfold fieldArray at h
  split at h <;> cases h
  exact hm _ ‹_›

/-- A frame fails past the end of its parent, or as its decoder fails inside it. -/
theorem framedFn_failsOnlyAt {n : Nat} {m : Decode α} {fr : Frame} {c : Cursor}
    (hp : fr.limit < c.pos + n → P (.outOfBounds c.pos n))
    (hm : c.pos + n ≤ fr.limit →
      FailsOnlyAt P m ⟨fr.buf.take ((c.pos + n + 7) / 8), c.pos + n⟩ c) :
    FailsOnlyAt P (framedFn n m) fr c := by
  intro err h
  by_cases hb : c.pos + n ≤ fr.limit
  · unfold framedFn at h
    rw [if_pos hb] at h
    split at h <;> cases h
    exact hm hb _ ‹_›
  · cases (framedFn_outOfBounds (by omega)).symm.trans h
    exact hp (by omega)

/-! ## The reads of the host

On a frame `fr` whose reads past the end `P` allows. -/

section Reads

variable {fr : Frame} (hP : ∀ p n, fr.limit < p + n → P (.outOfBounds p n))
include hP

/-- A frame around a decoder that completes inside it fails only past the end of its parent. -/
theorem framedFn_failsOnlyAt_of_completes {k n : Nat} {m : Decode α} (hm : Completes m k)
    (hk : k ≤ n) (c : Cursor) : FailsOnlyAt P (framedFn n m) fr c :=
  framedFn_failsOnlyAt (hP _ _) fun _ => .of_completesAt (hm _ c (by dsimp only; omega))

theorem peekUintBits_failsOnlyAt (n : Nat) (c : Cursor) : FailsOnlyAt P (peekUintBits n) fr c := by
  intro err h
  by_cases hb : c.pos + n ≤ fr.limit
  · cases (peekUintBits_ok hb).symm.trans h
  · simp only [peekUintBits, uE, if_neg hb, Except.error.injEq] at h
    exact h ▸ hP _ _ (by omega)

/-- A read whose mappers never fail fails only past the end of the frame. -/
theorem fieldU_failsOnlyAt (name : String) (n : Nat) {ms : List UintMapper}
    (hm : ∀ s, (mapUint ms s).2 = none) (c : Cursor) : FailsOnlyAt P (fieldU name n ms) fr c := by
  intro err h
  unfold fieldU fieldUE at h
  split at h
  · simp only [hm, reduceCtorEq] at h
  · cases h
    exact hP _ _ (by omega)

theorem fieldChecksum_failsOnlyAt (firstBit nBytes : Nat) (c : Cursor) :
    FailsOnlyAt P (fieldChecksum firstBit nBytes) fr c := by
  refine FailsOnlyAt.bind_advances (fun err h => ?_) (bytesRange_advances _ _) fun _ =>
    (fieldU_failsOnlyAt hP _ _ (by intro; rfl) _).bind fun _ _ _ _ => .of_ok rfl
  unfold bytesRange at h
  split at h <;> cases h
  exact hP _ _ (by omega)

/-- The extension loop from window `k` fails only past the end of the frame. -/
theorem rep_extensionWindow_failsOnlyAt (e : Endian) :
    ∀ n k, FailsOnlyAt P (rep extensionWindow n) fr ⟨8 * (128 * k), e⟩
  | 0, _ => .of_ok rfl
  | n + 1, k => by
    refine FailsOnlyAt.bind_advances ?_ (framedFn_advances _ _) fun _ => ?_
    · by_cases h : 8 * (128 * (k + 1)) ≤ fr.limit
      · exact .of_ok (extensionWindow_run e h)
      · exact .of_error (framedFn_outOfBounds (by dsimp only; omega)) (hP _ _ (by dsimp only; omega))
    · rw [show 8 * (128 * k) + 128 * 8 = 8 * (128 * (k + 1)) by omega]
      exact rep_extensionWindow_failsOnlyAt e n (k + 1)

end Reads

/-! ## The base record -/

/-- A header without the magic fails on it. -/
theorem decodeFileHeader_badMagic (ec : EdidContext) {fr : Frame} {i : Nat} (e : Endian)
    (hl : 8 * i + 64 ≤ fr.limit) (hm : bytesAt fr.buf (8 * i) 8 ≠ edidMagic) :
    decodeFileHeader ec fr ⟨8 * i, e⟩ = .error (.mapper "identifier" "failed to validate raw") := by
  have h₁ := fieldRawLen_assert_error "identifier" edidMagic e (by simp [edidMagic]; omega) hm
  rw [decodeFileHeader, run_bind]
  exact (congrArg (andThen · _) h₁).trans (andThen_error _ _)

/-- Inside its frame, the header fails only on its magic. -/
theorem decodeFileHeader_error {ec : EdidContext} {fr : Frame} {i : Nat} {e : Endian}
    {err : DecodeError} (hl : 8 * i + 160 ≤ fr.limit)
    (h : decodeFileHeader ec fr ⟨8 * i, e⟩ = .error err) :
    err = .mapper "identifier" "failed to validate raw" := by
  by_cases hm : bytesAt fr.buf (8 * i) 8 = edidMagic
  · obtain ⟨_, _, hok⟩ := decodeFileHeader_ok ec e hl hm
    cases hok.symm.trans h
  · cases (decodeFileHeader_badMagic ec e (by omega) hm).symm.trans h
    rfl

/-- **A rejected slot fails on its identifier, or else on its padding**: a display descriptor
with a third byte other than zero fails on the field `identifer`, one of tag `0xfd` with a bad
padding on the field `padding`. -/
theorem detailedDescriptor_rejected (name : String) (blockNo : Nat) {fr : Frame} {i : Nat}
    (e : Endian) (hl : 8 * i + 144 ≤ fr.limit) (hs : ¬ slotAccepted fr.buf i) :
    detailedDescriptor name blockNo fr ⟨8 * i, e⟩ = .error (.mapper
      (if byteAt fr.buf (i + 2) = 0 then "padding" else "identifer") "failed to validate raw") := by
  obtain ⟨h0, hs⟩ := Classical.not_imp.mp hs
  obtain ⟨h1, hs⟩ := Classical.not_imp.mp hs
  by_cases h2 : byteAt fr.buf (i + 2) = 0
  · obtain ⟨ht, hpad⟩ := Classical.not_imp.mp fun hp => hs ⟨h2, hp⟩
    rw [if_pos h2, detailedDescriptor_rangeLimits_padding name blockNo e hl h0 h1 h2 ht hpad]
  · have hid : bytesAt (fr.buf.take (i + 18)) (8 * i) 3 ≠ [0, 0, 0] := fun he =>
      h2 ((bytesAt_identifier (by omega)).mp he).2.2
    rw [if_neg h2, detailedDescriptor_display name blockNo e hl h0 h1, @displayDescriptor_identifier
      ⟨fr.buf.take (i + 18), 8 * i + 144⟩ i e (by dsimp only; omega) hid]

/-- A descriptor slot at byte `i` fails past the end of the frame, on a display descriptor's
identifier, or on the padding of a range-limits descriptor. -/
theorem detailedDescriptor_failsOnlyAt (name : String) (blockNo : Nat) (fr : Frame) (i : Nat)
    (e : Endian) : FailsOnlyAt (EdidError fr.limit) (detailedDescriptor name blockNo) fr ⟨8 * i, e⟩ := by
  by_cases hl : 8 * i + 144 ≤ fr.limit
  · by_cases hs : slotAccepted fr.buf i
    · exact .of_completesAt (detailedDescriptor_ok name blockNo e hl hs)
    · refine .of_error (detailedDescriptor_rejected name blockNo e hl hs) ?_
      split
      · exact .inr (.inr (.inr rfl))
      · exact .inr (.inr (.inl rfl))
  · exact (peekUintBits_failsOnlyAt (fun _ _ => edidError_outOfBounds) 16 _).bind_advances
      (peekUintBits_advances 16) fun _ => .of_error
        (fieldStruct_error _ (framedFn_outOfBounds (by dsimp only; omega)))
        (edidError_outOfBounds (by dsimp only; omega))

theorem descriptorSlots_failsOnlyAt (fr : Frame) (i : Nat) (e : Endian) :
    FailsOnlyAt (EdidError fr.limit) descriptorSlots fr ⟨8 * i, e⟩ := by
  refine (detailedDescriptor_failsOnlyAt _ _ fr i e).bind_advances (detailedDescriptor_advances _ _)
    fun _ => ?_
  rw [show 8 * i + 144 = 8 * (i + 18) by omega]
  refine (detailedDescriptor_failsOnlyAt _ _ fr _ e).bind_advances (detailedDescriptor_advances _ _)
    fun _ => ?_
  rw [show 8 * (i + 18) + 144 = 8 * (i + 36) by omega]
  refine (detailedDescriptor_failsOnlyAt _ _ fr _ e).bind_advances (detailedDescriptor_advances _ _)
    fun _ => ?_
  rw [show 8 * (i + 36) + 144 = 8 * (i + 54) by omega]
  exact detailedDescriptor_failsOnlyAt _ _ fr _ e

theorem baseRecordSections_failsOnlyAt (fr : Frame) :
    FailsOnlyAt (EdidError fr.limit) baseRecordSections fr ⟨0, .little⟩ := by
  have hP : ∀ p n, fr.limit < p + n → EdidError fr.limit (.outOfBounds p n) :=
    fun _ _ => edidError_outOfBounds
  rw [baseRecordSections]
  refine FailsOnlyAt.bind_advances (framedFn_failsOnlyAt (hP _ _) fun hb =>
    fieldStruct_failsOnlyAt _ ((baseStructs_unique _).1 _ _) fun _ h =>
      .inr (.inl (@decodeFileHeader_error _ _ 0 _ _ (Nat.le_refl _) h)))
    (framedFn_advances _ _) fun ec => ?_
  have hs := baseSections_complete ec
  have hu := baseStructs_unique ec
  refine FailsOnlyAt.bind_advances (framedFn_failsOnlyAt_of_completes hP
    (fieldStruct_completes _ hs.1 hu.2.1) (Nat.le_refl _) _) (framedFn_advances _ _) fun _ => ?_
  refine FailsOnlyAt.bind_advances (framedFn_failsOnlyAt_of_completes hP
    (fieldStruct_completes _ hs.2.1 hu.2.2) (Nat.le_refl _) _) (framedFn_advances _ _) fun _ => ?_
  refine FailsOnlyAt.bind_advances (framedFn_failsOnlyAt_of_completes hP
    (fieldArray_completes _ hs.2.2.1) (Nat.le_refl _) _) (framedFn_advances _ _) fun _ => ?_
  refine FailsOnlyAt.bind_advances (framedFn_failsOnlyAt_of_completes hP
    (fieldArray_completes _ hs.2.2.2) (Nat.le_refl _) _) (framedFn_advances _ _) fun _ => ?_
  exact fieldStruct_failsOnlyAt _ (descriptorSlots_unique _ _) (descriptorSlots_failsOnlyAt fr 54 .little)

/-! ## The first rejected slot -/

theorem run_bind_error {m : Decode α} {f : α → Decode β} {fr : Frame} {c : Cursor}
    {err : DecodeError} (hm : m fr c = .error err) : (m >>= f) fr c = .error err := by
  rw [run_bind, hm, andThen_error]

/-- A first step that completes, then a rest that fails. -/
theorem CompletesAt.bind_error {m : Decode α} {f : α → Decode β} {fr : Frame} {c : Cursor}
    {n : Nat} {err : DecodeError} (hm : CompletesAt m fr c n)
    (hf : ∀ a, f a fr ⟨c.pos + n, c.endian⟩ = .error err) : (m >>= f) fr c = .error err := by
  obtain ⟨a, w, hr⟩ := hm
  rw [run_bind, hr, andThen_ok, hf a, prepend_error]

/-- The four slots fail at the first rejected one: the slots before it complete. -/
theorem descriptorSlots_rejected {fr : Frame} (e : Endian) (h : 8 * 54 + 576 ≤ fr.limit) {k : Nat}
    (hk : k < 4) (hprev : ∀ j, j < k → slotAccepted fr.buf (54 + 18 * j))
    (hs : ¬ slotAccepted fr.buf (54 + 18 * k)) :
    descriptorSlots fr ⟨8 * 54, e⟩ = .error (.mapper
      (if byteAt fr.buf (56 + 18 * k) = 0 then "padding" else "identifer")
      "failed to validate raw") := by
  have hok (j : Nat) (hj : j < k) (name : String) (blockNo : Nat) :=
    @detailedDescriptor_ok name blockNo fr (54 + 18 * j) e (by omega) (hprev j hj)
  obtain rfl | rfl | rfl | rfl : k = 0 ∨ k = 1 ∨ k = 2 ∨ k = 3 := by omega
  · exact run_bind_error (detailedDescriptor_rejected _ _ e (by omega) hs)
  · exact (hok 0 (by decide) _ _).bind_error fun _ =>
      run_bind_error (@detailedDescriptor_rejected _ _ fr 72 e (by omega) hs)
  · exact (hok 0 (by decide) _ _).bind_error fun _ => (hok 1 (by decide) _ _).bind_error fun _ =>
      run_bind_error (@detailedDescriptor_rejected _ _ fr 90 e (by omega) hs)
  · exact (hok 0 (by decide) _ _).bind_error fun _ => (hok 1 (by decide) _ _).bind_error fun _ =>
      (hok 2 (by decide) _ _).bind_error fun _ => @detailedDescriptor_rejected _ _ fr 108 e (by omega) hs

/-- Past the magic, the sections of the base record fail only as its descriptor slots do. -/
theorem baseRecordSections_slots_error {buf : List UInt8} (hl : 128 ≤ buf.length)
    (hm : bytesAt buf 0 8 = edidMagic) {err : DecodeError}
    (hd : descriptorSlots (root buf) ⟨8 * 54, .little⟩ = .error err) :
    baseRecordSections (root buf) ⟨0, .little⟩ = .error err := by
  have hlim : 8 * 128 ≤ (root buf).limit := by simp only [root_limit]; omega
  have hmag : bytesAt (buf.take ((0 + 20 * 8 + 7) / 8)) (8 * 0) 8 = edidMagic :=
    (bytesAt_take buf (by decide)).trans hm
  rw [baseRecordSections]
  refine CompletesAt.bind_error (CompletesAt.framedFn (CompletesAt.fieldStruct _
    (@decodeFileHeader_ok _ ⟨buf.take ((0 + 20 * 8 + 7) / 8), 0 + 20 * 8⟩ 0 .little (Nat.le_refl _)
      hmag) ((baseStructs_unique _).1 _ _)) (by omega)) fun ec => ?_
  have hs := baseSections_complete ec
  have hu := baseStructs_unique ec
  refine CompletesAt.bind_error (framedFn_completes (fieldStruct_completes _ hs.1 hu.2.1)
    (Nat.le_refl _) _ _ (by dsimp only; omega)) fun _ => ?_
  refine CompletesAt.bind_error (framedFn_completes (fieldStruct_completes _ hs.2.1 hu.2.2)
    (Nat.le_refl _) _ _ (by dsimp only; omega)) fun _ => ?_
  refine CompletesAt.bind_error (framedFn_completes (fieldArray_completes _ hs.2.2.1) (Nat.le_refl _)
    _ _ (by dsimp only; omega)) fun _ => ?_
  refine CompletesAt.bind_error (framedFn_completes (fieldArray_completes _ hs.2.2.2) (Nat.le_refl _)
    _ _ (by dsimp only; omega)) fun _ => ?_
  exact fieldStruct_error _ hd

/-- **The first rejected descriptor slot decides the error**: a buffer of at least 128 bytes with
the magic, whose slots before slot `k` are accepted and slot `k` is not, fails on slot `k`'s
identifier (field `identifer`) when its third byte is not zero, and otherwise on its padding. -/
theorem decodeEDID_rejectedSlot {buf : List UInt8} (hl : 128 ≤ buf.length)
    (hm : bytesAt buf 0 8 = edidMagic) {k : Nat} (hk : k < 4)
    (hprev : ∀ j, j < k → slotAccepted buf (54 + 18 * j)) (hs : ¬ slotAccepted buf (54 + 18 * k)) :
    decodeEDID (root buf) start = .error (.mapper
      (if byteAt buf (56 + 18 * k) = 0 then "padding" else "identifer")
      "failed to validate raw") := by
  have hb := baseRecordSections_slots_error hl hm
    (descriptorSlots_rejected .little (by simp only [root_limit]; omega) hk hprev hs)
  simp only [decodeEDID, decodeBaseRecord, run_bind, start, setEndian_run, andThen_ok, prepend_nil,
    hb, andThen_error, root_buf]

/-- A base record of the magic and zeros whose second slot is a Display Range Limits descriptor
(byte 75 = `0xfd`) with a zero padding. -/
def badPaddingRecord : List UInt8 := edidMagic ++ List.replicate 67 0 ++ [0xfd] ++ List.replicate 52 0

set_option maxRecDepth 4000 in
theorem badPaddingRecord_error : 128 ≤ badPaddingRecord.length ∧
    bytesAt badPaddingRecord 0 8 = edidMagic ∧ slotAccepted badPaddingRecord 54 ∧
    ¬ slotAccepted badPaddingRecord 72 ∧
    decodeEDID (root badPaddingRecord) start = .error (.mapper "padding" "failed to validate raw") :=
  ⟨by decide, by decide, by decide, by decide, @decodeEDID_rejectedSlot _ (by decide) (by decide) 1
    (by decide) (fun j hj => by rw [show j = 0 by omega]; decide) (by decide)⟩

/-! ## The whole decode -/

/-- The extension loop from window `k`, on a frame that ends before window `k + n`: it fails at
the first window the frame does not hold. -/
theorem rep_extensionWindow_error (fr : Frame) (e : Endian) :
    ∀ n k, 8 * (128 * k) ≤ fr.limit → fr.limit < 8 * (128 * (k + n)) →
      rep extensionWindow n fr ⟨8 * (128 * k), e⟩ =
        .error (.outOfBounds (8 * (128 * (fr.limit / 1024))) 1024)
  | 0, k, h₁, h₂ => by omega
  | n + 1, k, h₁, h₂ => by
    rw [rep, run_bind]
    by_cases h : 8 * (128 * (k + 1)) ≤ fr.limit
    · rw [extensionWindow_run e h, andThen_ok,
        rep_extensionWindow_error fr e n (k + 1) h (by omega), prepend_error]
    · have hw : extensionWindow fr ⟨8 * (128 * k), e⟩ = .error (.outOfBounds (8 * (128 * k)) 1024) :=
        framedFn_outOfBounds (by dsimp only; omega)
      rw [hw, andThen_error, show fr.limit / 1024 = k by omega]

/-- **Every error of `decodeEDID`** is a read that runs past the end of the buffer, the
assertion of the magic, of a display descriptor's identifier, or of a range-limits padding. -/
theorem decodeEDID_errors {buf : List UInt8} {err : DecodeError}
    (h : decodeEDID (root buf) start = .error err) :
    (∃ p n, err = .outOfBounds p n ∧ 8 * buf.length < p + n) ∨
      err = .mapper "identifier" "failed to validate raw" ∨
      err = .mapper "identifer" "failed to validate raw" ∨
      err = .mapper "padding" "failed to validate raw" := by
  have hP : ∀ p n, (root buf).limit < p + n → EdidError (root buf).limit (.outOfBounds p n) :=
    fun _ _ => edidError_outOfBounds
  refine (FailsOnlyAt.bind ?_ fun N c _ hb => ?_ : FailsOnlyAt (EdidError (root buf).limit)
    decodeEDID (root buf) start) err h
  · refine FailsOnlyAt.bind (.of_ok rfl) fun _ c _ he => ?_
    cases he
    refine (baseRecordSections_failsOnlyAt _).bind_advances baseRecordSections_advances fun _ => ?_
    refine (fieldU_failsOnlyAt hP _ _ (by intro; rfl) _).bind_advances (fieldU_advances _ _ _)
      fun _ => ?_
    exact (fieldChecksum_failsOnlyAt hP _ _ _).bind fun _ _ _ _ => .of_ok rfl
  · obtain ⟨hl, -⟩ := recordAccepted_of_ok hb
    obtain ⟨-, rfl⟩ := decodeBaseRecord_ok hl hb
    split
    · exact fieldArray_failsOnlyAt _ (rep_extensionWindow_failsOnlyAt hP .little N 1)
    · exact .of_ok rfl

theorem headerOnly_errors : decodeEDID (root (List.replicate 20 0)) start =
      .error (.mapper "identifier" "failed to validate raw") ∧
    ((∃ p n, DecodeError.mapper "identifier" "failed to validate raw" = .outOfBounds p n ∧
      8 * (List.replicate 20 (0 : UInt8)).length < p + n) ∨
      DecodeError.mapper "identifier" "failed to validate raw" =
        .mapper "identifier" "failed to validate raw" ∨
      DecodeError.mapper "identifier" "failed to validate raw" =
        .mapper "identifer" "failed to validate raw" ∨
      DecodeError.mapper "identifier" "failed to validate raw" =
        .mapper "padding" "failed to validate raw") :=
  have h : decodeEDID (root (List.replicate 20 0)) start =
      .error (.mapper "identifier" "failed to validate raw") := rfl
  ⟨h, decodeEDID_errors h⟩

/-- **A truncated buffer fails at its first missing extension**: when the base record is accepted
but the buffer ends before the last of its `N` extensions (`N` from byte 126), `decodeEDID`
fails reading the 128-byte window that starts at the last whole block of the buffer. -/
theorem decodeEDID_truncated {buf : List UInt8} (hl : 128 ≤ buf.length) (ha : recordAccepted buf)
    (hN : buf.length < 128 * (1 + byteAt buf 126)) :
    decodeEDID (root buf) start = .error (.outOfBounds (8 * (128 * (buf.length / 128))) 1024) := by
  obtain ⟨⟨N, c, ws⟩, hb⟩ := decodeBaseRecord_complete hl ha
  obtain ⟨rfl, rfl⟩ := decodeBaseRecord_ok hl hb
  have hr := rep_extensionWindow_error (root buf) .little (byteAt buf 126) 1
    (by simp only [root_limit]; omega) (by simp only [root_limit]; omega)
  rw [root_limit, show 8 * buf.length / 1024 = buf.length / 128 by omega] at hr
  simp only [decodeEDID, run_bind, hb, andThen_ok, ite_run, if_pos (show byteAt buf 126 > 0 by omega),
    fieldArray, Nat.mul_one] at hr ⊢
  rw [hr]
  rfl

/-- A base record of the magic and zeros that announces one extension (byte 126), with nothing
after it. -/
def truncatedRecord : List UInt8 := edidMagic ++ List.replicate 118 0 ++ [0x01, 0x00]

set_option maxRecDepth 4000 in
theorem truncatedRecord_error : 128 ≤ truncatedRecord.length ∧ recordAccepted truncatedRecord ∧
    truncatedRecord.length < 128 * (1 + byteAt truncatedRecord 126) ∧
    decodeEDID (root truncatedRecord) start = .error (.outOfBounds 1024 1024) :=
  ⟨by decide, by decide, by decide, decodeEDID_truncated (by decide) (by decide) (by decide)⟩

end Edid
