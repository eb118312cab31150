import Edid.Decoder

/-!
# Where a decoder ends, and what it reads

Two properties of decoders that the results on `decodeEDID` rest on:

* `Advances m n` — whenever `m` completes, it has moved the cursor exactly `n` bits and kept
  its byte order;
* `LocalAt k m p` — started at bit `p`, `m` runs the same on any two frames that hold the same
  first `k` bytes and both reach at least that far (`Agree k`).

Both are closed under `bind` (`Advances.bind`, `LocalAt.bind`), so a straight-line decoder
gets them from its steps. A frame (`D.framedFn`) advances by its size whatever it decodes,
and one that lies in the first `k` bytes is local whatever it decodes: the reader it gives its
decoder is the same list on both sides (`framedFn_local`).
-/

set_option autoImplicit false

namespace Edid

open D

variable {α β : Type}

/-- Whenever `m` completes, it has moved the cursor `n` bits and kept the byte order. -/
def Advances (m : Decode α) (n : Nat) : Prop :=
  ∀ fr c a c' w, m fr c = .ok (a, c', w) → c' = ⟨c.pos + n, c.endian⟩

/-- Two frames that hold the same first `k` bytes and both reach at least bit `8 * k`. -/
def Agree (k : Nat) (fr fr' : Frame) : Prop :=
  fr.buf.take k = fr'.buf.take k ∧ 8 * k ≤ fr.limit ∧ 8 * k ≤ fr'.limit

/-- Started at bit `p`, `m` runs the same on frames that agree on their first `k` bytes. -/
def LocalAt (k : Nat) (m : Decode α) (p : Nat) : Prop :=
  ∀ fr fr' e, Agree k fr fr' → m fr ⟨p, e⟩ = m fr' ⟨p, e⟩

/-! ## Advancing -/

namespace Advances

theorem pure (a : α) : Advances (pure a : Decode α) 0 := by
  intro fr c a' c' w h
  cases h
  rfl

theorem bind {m : Decode α} {f : α → Decode β} {n k : Nat} (hm : Advances m n)
    (hf : ∀ a, Advances (f a) k) : Advances (m >>= f) (n + k) := by
  intro fr c b c'' w h
  obtain ⟨a, c₁, w₁, w₂, h₁, h₂, -⟩ := Decode.andThen_eq_ok h
  rw [hf a fr c₁ b c'' w₂ h₂, hm fr c a c₁ w₁ h₁, Nat.add_assoc]

/-- `m` advances `n` of the `t` bits, and the continuation the rest. -/
theorem bind_sub {m : Decode α} {f : α → Decode β} {n t : Nat} (hm : Advances m n)
    (hf : ∀ a, Advances (f a) (t - n)) (h : n ≤ t) : Advances (m >>= f) t := by
  have := hm.bind hf
  rwa [Nat.add_sub_cancel' h] at this

/-- A completed run of `m >>= f`: `f` started where `m` ends. -/
theorem bind_ok {m : Decode α} {f : α → Decode β} {n : Nat} (hm : Advances m n) {fr : Frame}
    {c c' : Cursor} {b : β} {w : List Field} (h : (m >>= f) fr c = .ok (b, c', w)) :
    ∃ a w₁ w₂, m fr c = .ok (a, ⟨c.pos + n, c.endian⟩, w₁) ∧
      f a fr ⟨c.pos + n, c.endian⟩ = .ok (b, c', w₂) ∧ w = w₁ ++ w₂ := by
  obtain ⟨a, c₁, w₁, w₂, h₁, h₂, rfl⟩ := Decode.andThen_eq_ok h
  obtain rfl := hm fr c a c₁ w₁ h₁
  exact ⟨a, w₁, w₂, h₁, h₂, rfl⟩

end Advances

theorem framedFn_advances (n : Nat) (m : Decode α) : Advances (framedFn n m) n := by
  intro fr c a c' w h
  unfold framedFn at h
  split at h
  · split at h <;> cases h
    rfl
  · cases h

/-- A completed struct: its decoder completed, with children that repeat no name. -/
theorem fieldStruct_eq_ok {name : String} {m : Decode α} {fr : Frame} {c c' : Cursor} {a : α}
    {w : List Field} (h : fieldStruct name m fr c = .ok (a, c', w)) :
    ∃ c'' w', m fr c = .ok (a, c'', w') ∧ (w'.map Field.name).Nodup ∧
      c' = { c'' with endian := c.endian } ∧ w = [.struct name w'] := by
  unfold fieldStruct at h
  split at h
  · rename_i a₁ c₁ w₁ hr
    split at h
    · cases h
      exact ⟨c₁, w₁, hr, firstRepeat_nil_eq_none.mp ‹_›, rfl, rfl⟩
    · cases h
  · cases h

theorem fieldStruct_advances (name : String) {m : Decode α} {n : Nat} (hm : Advances m n) :
    Advances (fieldStruct name m) n := by
  intro fr c a c' w h
  obtain ⟨c₁, w₁, hr, -, rfl, -⟩ := fieldStruct_eq_ok h
  rw [hm fr c a c₁ w₁ hr]

theorem peekUintBits_advances (n : Nat) : Advances (peekUintBits n) 0 := by
  intro fr c a c' w h
  unfold peekUintBits at h
  split at h <;> cases h
  rfl

theorem bytesRange_advances (firstBit n : Nat) : Advances (bytesRange firstBit n) 0 := by
  intro fr c a c' w h
  unfold bytesRange at h
  split at h <;> cases h
  rfl

theorem uE_advances (n : Nat) (e : Endian) : Advances (uE n e) n := by
  intro fr c a c' w h
  unfold uE at h
  split at h <;> cases h
  rfl

theorem fieldUE_advances (name : String) (n : Nat) (e : Endian) (ms : List UintMapper) :
    Advances (fieldUE name n e ms) n := by
  intro fr c a c' w h
  unfold fieldUE at h
  split at h
  · dsimp only at h
    split at h <;> cases h
    rfl
  · cases h

theorem fieldU_advances (name : String) (n : Nat) (ms : List UintMapper) :
    Advances (fieldU name n ms) n :=
  fun fr c => fieldUE_advances name n c.endian ms fr c

theorem fieldRawLen_advances (name : String) (n : Nat) (ms : List BitBufMapper) :
    Advances (fieldRawLen name n ms) n := by
  intro fr c a c' w h
  simp only [fieldRawLen] at h
  split at h
  · split at h <;> cases h
    rfl
  · cases h

/-- A completed struct holds the fields of a completed run of its decoder. -/
theorem fieldStruct_ok_inv {name : String} {m : Decode α} {fr : Frame} {c c' : Cursor} {a : α}
    {w : List Field} (h : fieldStruct name m fr c = .ok (a, c', w)) :
    ∃ c'' w', m fr c = .ok (a, c'', w') ∧ w = [.struct name w'] := by
  obtain ⟨c₁, w₁, hr, -, -, rfl⟩ := fieldStruct_eq_ok h
  exact ⟨c₁, w₁, hr, rfl⟩

/-- A raw field of a computed length completes only on a length that is not negative. -/
theorem fieldRawLen_ok_inv {name : String} {n : Int} {ms : List BitBufMapper} {fr : Frame}
    {c c' : Cursor} {w : List Field} (h : fieldRawLen name n ms fr c = .ok ((), c', w)) :
    ∃ k : Nat, n = k ∧ c' = ⟨c.pos + k, c.endian⟩ := by
  unfold fieldRawLen at h
  split at h
  · cases h
  · split at h
    · split at h <;> cases h
      exact ⟨_, rfl, rfl⟩
    · cases h

/-! ## Locality -/

theorem Agree.byteAt_eq {k : Nat} {fr fr' : Frame} (h : Agree k fr fr') {i : Nat} (hi : i < k) :
    byteAt fr.buf i = byteAt fr'.buf i := by
  rw [← byteAt_take fr.buf hi, h.1, byteAt_take fr'.buf hi]

theorem Agree.readBits_eq {k : Nat} {fr fr' : Frame} (h : Agree k fr fr') {p n : Nat}
    (hp : p + n ≤ 8 * k) : readBits fr.buf p n = readBits fr'.buf p n :=
  readBits_congr fun _ hi => h.byteAt_eq (by omega)

theorem Agree.bytesAt_eq {k : Nat} {fr fr' : Frame} (h : Agree k fr fr') :
    ∀ {p n : Nat}, p + 8 * n ≤ 8 * k → bytesAt fr.buf p n = bytesAt fr'.buf p n
  | _, 0, _ => rfl
  | p, n + 1, hp => by
    simp only [bytesAt, h.readBits_eq (show p + 8 ≤ 8 * k by omega),
      h.bytesAt_eq (show p + 8 + 8 * n ≤ 8 * k by omega)]

namespace LocalAt

theorem bind {k p n : Nat} {m : Decode α} {f : α → Decode β} (hm : LocalAt k m p)
    (ha : Advances m n) (hf : ∀ a, LocalAt k (f a) (p + n)) : LocalAt k (m >>= f) p := by
  intro fr fr' e h
  simp only [Decode.run_bind, hm fr fr' e h]
  match hr : m fr' ⟨p, e⟩ with
  | .ok (a, c', w) =>
    obtain rfl := ha fr' ⟨p, e⟩ a c' w hr
    simp only [Decode.andThen_ok, hf a fr fr' e h]
  | .error _ => rfl

theorem pure (k p : Nat) (a : α) : LocalAt k (pure a : Decode α) p := fun _ _ _ _ => rfl

/-- A change of byte order reads nothing. -/
theorem setEndian_bind {k p : Nat} {e' : Endian} {f : Unit → Decode β}
    (hf : LocalAt k (f ()) p) : LocalAt k (setEndian e' >>= f) p := by
  intro fr fr' e h
  simp only [Decode.run_bind, setEndian_run, Decode.andThen_ok, Decode.prepend_nil, hf fr fr' e' h]

end LocalAt

theorem uE_local {k p n : Nat} (e' : Endian) (hp : p + n ≤ 8 * k) : LocalAt k (uE n e') p := by
  intro fr fr' e h
  simp only [uE, h.readBits_eq hp, if_pos (Nat.le_trans hp h.2.1), if_pos (Nat.le_trans hp h.2.2)]

theorem peekUintBits_local {k p n : Nat} (hp : p + n ≤ 8 * k) : LocalAt k (peekUintBits n) p := by
  intro fr fr' e h
  simp only [peekUintBits, uE_local .big hp fr fr' e h]

theorem fieldUE_local (name : String) {k p n : Nat} (e' : Endian) (ms : List UintMapper)
    (hp : p + n ≤ 8 * k) : LocalAt k (fieldUE name n e' ms) p := by
  intro fr fr' e h
  simp only [fieldUE, h.readBits_eq hp, if_pos (Nat.le_trans hp h.2.1),
    if_pos (Nat.le_trans hp h.2.2)]

theorem fieldU_local (name : String) {k p n : Nat} (ms : List UintMapper) (hp : p + n ≤ 8 * k) :
    LocalAt k (fieldU name n ms) p :=
  fun fr fr' e => fieldUE_local name e ms hp fr fr' e

theorem bytesRange_local {k p firstBit n : Nat} (hp : firstBit + 8 * n ≤ 8 * k) :
    LocalAt k (bytesRange firstBit n) p := by
  intro fr fr' e h
  simp only [bytesRange, h.bytesAt_eq hp, if_pos (Nat.le_trans hp h.2.1),
    if_pos (Nat.le_trans hp h.2.2)]

/-- **A frame inside the agreeing bytes is local**, whatever it decodes. -/
theorem framedFn_local {k p n : Nat} (m : Decode α) (hp : p + n ≤ 8 * k) :
    LocalAt k (framedFn n m) p := by
  intro fr fr' e h
  have ht : fr.buf.take ((p + n + 7) / 8) = fr'.buf.take ((p + n + 7) / 8) := by
    rw [← Nat.min_eq_left (show (p + n + 7) / 8 ≤ k by omega), ← List.take_take, h.1,
      List.take_take]
  simp only [framedFn, ht, if_pos (Nat.le_trans hp h.2.1), if_pos (Nat.le_trans hp h.2.2)]

theorem fieldStruct_local (name : String) {k p : Nat} {m : Decode α} (hm : LocalAt k m p) :
    LocalAt k (fieldStruct name m) p := by
  intro fr fr' e h
  simp only [fieldStruct, hm fr fr' e h]

end Edid
