import Mathlib.Data.List.Basic
import Mathlib.Algebra.Group.Nat.Basic
import Mathlib.Algebra.Group.Int

/-!
# Bits and bytes of a decode buffer

The byte-level primitives that the host's bit reader (`bitio`) gives the EDID decoders, and
`CalcSum` of `edid.go`:

* `readBits buf pos n` — the `n` bits at bit offset `pos`, first bit most significant;
* `reverseBytes` — `bitio.ReverseBytes64`, the byte swap behind a little-endian read;
* `bytesAt` — the bytes that `D.BytesRange` returns;
* `calcSum` — the `uint8` running sum of `CalcSum`.

Principal lemmas: `readBits_within` (a field inside one byte is a shift and a mask of that
byte), `readBits_bytes` (a byte-aligned read of whole bytes is `beBytes`),
`reverseBytes_beBytes` (reversing a big-endian read gives the little-endian value),
`byteAt_bytesAt` and `calcSum_bytesAt` (a checksum is the byte sum mod 256).
-/

set_option autoImplicit false

namespace Edid

/-- Byte `i` of a buffer as a number; a byte past the end reads as zero. -/
def byteAt (buf : List UInt8) (i : Nat) : Nat := (buf.getD i 0).toNat

theorem byteAt_lt (buf : List UInt8) (i : Nat) : byteAt buf i < 256 := UInt8.toNat_lt_size _

@[simp] theorem byteAt_drop (buf : List UInt8) (i j : Nat) :
    byteAt (buf.drop i) j = byteAt buf (i + j) := by
  simp [byteAt, List.getD_eq_getElem?_getD, List.getElem?_drop]

theorem byteAt_take (buf : List UInt8) {i k : Nat} (h : i < k) :
    byteAt (buf.take k) i = byteAt buf i := by
  simp [byteAt, List.getD_eq_getElem?_getD, List.getElem?_take, h]

/-- Big-endian value of the first `k` bytes of `bs`. -/
def beBytes (bs : List UInt8) : Nat → Nat
  | 0 => 0
  | k + 1 => beBytes bs k * 256 + byteAt bs k

/-- Little-endian value of the first `k` bytes of `bs`. -/
def leBytes (bs : List UInt8) : Nat → Nat
  | 0 => 0
  | k + 1 => leBytes bs k + byteAt bs k * 256 ^ k

theorem beBytes_lt (bs : List UInt8) : ∀ k, beBytes bs k < 256 ^ k
  | 0 => by simp [beBytes]
  | k + 1 => by
    have := beBytes_lt bs k
    have := byteAt_lt bs k
    rw [beBytes, Nat.pow_succ]
    omega

theorem leBytes_lt (bs : List UInt8) : ∀ k, leBytes bs k < 256 ^ k
  | 0 => by simp [leBytes]
  | k + 1 => by
    have := leBytes_lt bs k
    have := Nat.mul_le_mul_right (256 ^ k) (Nat.le_of_lt_succ (byteAt_lt bs k))
    rw [leBytes, Nat.pow_succ]
    omega

theorem beBytes_congr {bs bs' : List UInt8} {k : Nat}
    (h : ∀ i < k, byteAt bs i = byteAt bs' i) : beBytes bs k = beBytes bs' k := by
  induction k with
  | zero => rfl
  | succ k ih =>
    simp only [beBytes, ih fun i hi => h i (by omega), h k (by omega)]

theorem beBytes_eq_zero {bs : List UInt8} : ∀ {k : Nat}, (∀ j < k, byteAt bs j = 0) →
    beBytes bs k = 0
  | 0, _ => rfl
  | k + 1, h => by rw [beBytes, beBytes_eq_zero fun j hj => h j (by omega), h k (by omega)]

/-- `bitio` reads most significant bit first: the `nBits` bits at bit offset `pos`, taken
from the bytes that hold them. -/
def readBits (buf : List UInt8) (pos nBits : Nat) : Nat :=
  beBytes (buf.drop (pos / 8)) ((pos % 8 + nBits + 7) / 8) /
    2 ^ ((pos % 8 + nBits + 7) / 8 * 8 - pos % 8 - nBits) % 2 ^ nBits

/-- Bits `[off, off + n)` of a byte, counted from its most significant bit. -/
def bitsOf (b off n : Nat) : Nat := b / 2 ^ (8 - off - n) % 2 ^ n

/-- Bits read from zero bytes are zero. -/
theorem readBits_eq_zero {buf : List UInt8} {pos n : Nat}
    (h : ∀ j < (pos % 8 + n + 7) / 8, byteAt buf (pos / 8 + j) = 0) : readBits buf pos n = 0 := by
  rw [readBits, beBytes_eq_zero fun j hj => by rw [byteAt_drop, h j hj], Nat.zero_div,
    Nat.zero_mod]

/-- A field that lies inside one byte is bits of that byte. -/
theorem readBits_within (buf : List UInt8) {pos n : Nat} (hn : 0 < n) (h : pos % 8 + n ≤ 8) :
    readBits buf pos n = bitsOf (byteAt buf (pos / 8)) (pos % 8) n := by
  have hk : (pos % 8 + n + 7) / 8 = 1 := by omega
  simp [readBits, hk, beBytes, bitsOf]

/-- `readBits_within` at bit `k` of a slot that starts at byte `i`. -/
theorem readBits_slot (buf : List UInt8) (i : Nat) {k n : Nat} (hn : 0 < n) (h : k % 8 + n ≤ 8) :
    readBits buf (8 * i + k) n = bitsOf (byteAt buf (i + k / 8)) (k % 8) n := by
  have hd : (8 * i + k) / 8 = i + k / 8 := by omega
  have hm : (8 * i + k) % 8 = k % 8 := by omega
  rw [readBits_within buf hn (by omega), hd, hm]

/-- A byte-aligned read of whole bytes is their big-endian value. -/
theorem readBits_bytes (buf : List UInt8) {pos : Nat} (k : Nat) (h : pos % 8 = 0) :
    readBits buf pos (8 * k) = beBytes (buf.drop (pos / 8)) k := by
  have hk : (pos % 8 + 8 * k + 7) / 8 = k := by omega
  have hlt : beBytes (buf.drop (pos / 8)) k < 2 ^ (8 * k) := by
    rw [Nat.pow_mul]; exact beBytes_lt _ k
  unfold readBits
  rw [hk, h, show k * 8 - 0 - 8 * k = 0 by omega, Nat.pow_zero, Nat.div_one, Nat.mod_eq_of_lt hlt]

theorem readBits_byte (buf : List UInt8) (i : Nat) : readBits buf (8 * i) 8 = byteAt buf i := by
  simpa [beBytes] using @readBits_bytes buf (8 * i) 1 (by omega)

theorem readBits_byte_of_mod (buf : List UInt8) {p : Nat} (h : p % 8 = 0) :
    readBits buf p 8 = byteAt buf (p / 8) := by
  rw [← readBits_byte, Nat.mul_div_cancel' (Nat.dvd_of_mod_eq_zero h)]

/-- A whole byte at byte `k / 8` of a slot that starts at byte `i`. -/
theorem readBits_slot_byte (buf : List UInt8) (i : Nat) {k : Nat} (h : k % 8 = 0) :
    readBits buf (8 * i + k) 8 = byteAt buf (i + k / 8) := by
  rw [show 8 * i + k = 8 * (i + k / 8) by omega, readBits_byte]

/-- Two whole bytes, the first one most significant. -/
theorem readBits_word (buf : List UInt8) (i : Nat) :
    readBits buf (8 * i) 16 = byteAt buf i * 256 + byteAt buf (i + 1) := by
  rw [@readBits_bytes buf (8 * i) 2 (by omega)]
  simp [beBytes, Nat.mul_div_cancel_left]

/-- `readBits_word` at byte `k / 8` of a slot that starts at byte `i`. -/
theorem readBits_slot_word (buf : List UInt8) (i : Nat) {k : Nat} (h : k % 8 = 0) :
    readBits buf (8 * i + k) 16 = byteAt buf (i + k / 8) * 256 + byteAt buf (i + k / 8 + 1) := by
  rw [show 8 * i + k = 8 * (i + k / 8) by omega, readBits_word]

/-- A read depends only on the bytes that hold it. -/
theorem readBits_congr {buf buf' : List UInt8} {pos n : Nat}
    (h : ∀ i < (pos + n + 7) / 8, byteAt buf i = byteAt buf' i) :
    readBits buf pos n = readBits buf' pos n := by
  unfold readBits
  rw [@beBytes_congr _ (buf'.drop (pos / 8)) _ fun i hi => by
    simpa using h (pos / 8 + i) (by omega)]

/-- `bitio.ReverseBytes64`: the low `k` bytes of `n` in the opposite order. -/
def reverseBytes (n : Nat) : Nat → Nat
  | 0 => 0
  | k + 1 => n % 256 * 256 ^ k + reverseBytes (n / 256) k

theorem reverseBytes_beBytes (bs : List UInt8) : ∀ k, reverseBytes (beBytes bs k) k = leBytes bs k
  | 0 => rfl
  | k + 1 => by
    have := byteAt_lt bs k
    have hm : (beBytes bs k * 256 + byteAt bs k) % 256 = byteAt bs k := by omega
    have hd : (beBytes bs k * 256 + byteAt bs k) / 256 = beBytes bs k := by omega
    rw [beBytes, reverseBytes, hm, hd, reverseBytes_beBytes bs k, leBytes, Nat.add_comm]

/-- `D.BytesRange`: `nBytes` whole bytes read from bit offset `firstBit`. -/
def bytesAt (buf : List UInt8) (firstBit : Nat) : Nat → List UInt8
  | 0 => []
  | n + 1 => UInt8.ofNat (readBits buf firstBit 8) :: bytesAt buf (firstBit + 8) n

@[simp] theorem bytesAt_length (buf : List UInt8) : ∀ firstBit n, (bytesAt buf firstBit n).length = n
  | _, 0 => rfl
  | _, n + 1 => by simp [bytesAt, bytesAt_length]

/-- Byte `j` of a byte-aligned `BytesRange` is byte `i + j` of the buffer. -/
theorem byteAt_bytesAt (buf : List UInt8) (i : Nat) :
    ∀ n j, j < n → byteAt (bytesAt buf (8 * i) n) j = byteAt buf (i + j)
  | 0, _, h => absurd h (Nat.not_lt_zero _)
  | n + 1, 0, _ => by
    show (UInt8.ofNat (readBits buf (8 * i) 8)).toNat = byteAt buf (i + 0)
    rw [readBits_byte, UInt8.toNat_ofNat_of_lt (byteAt_lt buf i), Nat.add_zero]
  | n + 1, j + 1, h => by
    have e : 8 * i + 8 = 8 * (i + 1) := by omega
    simp only [bytesAt, e]
    rw [show byteAt (_ :: bytesAt buf (8 * (i + 1)) n) (j + 1)
        = byteAt (bytesAt buf (8 * (i + 1)) n) j from rfl,
      byteAt_bytesAt buf (i + 1) n j (by omega), Nat.add_right_comm, Nat.add_assoc]

theorem bytesAt_congr {buf buf' : List UInt8} :
    ∀ {firstBit n : Nat}, (∀ i < (firstBit + 8 * n + 7) / 8, byteAt buf i = byteAt buf' i) →
      bytesAt buf firstBit n = bytesAt buf' firstBit n
  | _, 0, _ => rfl
  | firstBit, n + 1, h => by
    simp only [bytesAt, @readBits_congr buf buf' firstBit 8 fun i hi => h i (by omega),
      @bytesAt_congr buf buf' (firstBit + 8) n fun i hi => h i (by omega)]

/-- A `BytesRange` inside the first `j` bytes reads the same from their prefix. -/
theorem bytesAt_take (buf : List UInt8) {firstBit n j : Nat} (h : firstBit + 8 * n ≤ 8 * j) :
    bytesAt (buf.take j) firstBit n = bytesAt buf firstBit n :=
  bytesAt_congr fun _ hi => byteAt_take buf (by omega)

/-- `CalcSum`: the bytes added up in a `uint8`, wrapping mod 256. -/
def calcSum (bytes : List UInt8) : UInt8 :=
  bytes.foldl (· + ·) 0

/-- `Σ j < n, byteAt buf (i + j)`. -/
def byteSum (buf : List UInt8) (i : Nat) : Nat → Nat
  | 0 => 0
  | n + 1 => byteAt buf i + byteSum buf (i + 1) n

theorem UInt8.toNat_add' (a b : UInt8) : (a + b).toNat = (a.toNat + b.toNat) % 256 := by
  simp [UInt8.add_def, UInt8.toNat, BitVec.toNat_add]

theorem UInt8.toNat_sub' (a b : UInt8) : (a - b).toNat = (256 - b.toNat + a.toNat) % 256 := by
  simp [UInt8.sub_def, UInt8.toNat, BitVec.toNat_sub]

theorem foldl_add_toNat (buf : List UInt8) (i : Nat) :
    ∀ n (acc : UInt8), ((bytesAt buf (8 * i) n).foldl (· + ·) acc).toNat
      = (acc.toNat + byteSum buf i n) % 256
  | 0, acc => by simp [bytesAt, byteSum, Nat.mod_eq_of_lt (UInt8.toNat_lt_size acc)]
  | n + 1, acc => by
    have e : 8 * i + 8 = 8 * (i + 1) := by omega
    simp only [bytesAt, List.foldl_cons, e, foldl_add_toNat buf (i + 1) n, UInt8.toNat_add',
      readBits_byte, byteSum, UInt8.toNat_ofNat_of_lt (byteAt_lt buf i)]
    omega

/-- A checksum over a byte-aligned range is the byte sum mod 256. -/
theorem calcSum_bytesAt (buf : List UInt8) (i n : Nat) :
    (calcSum (bytesAt buf (8 * i) n)).toNat = byteSum buf i n % 256 := by
  simpa using foldl_add_toNat buf i n 0

theorem byteSum_succ (buf : List UInt8) (i : Nat) :
    ∀ n, byteSum buf i (n + 1) = byteSum buf i n + byteAt buf (i + n)
  | 0 => by simp [byteSum]
  | n + 1 => by
    rw [byteSum, byteSum_succ buf (i + 1) n, byteSum]
    rw [show i + 1 + n = i + (n + 1) by omega]
    omega

theorem byteSum_congr {buf buf' : List UInt8} {i i' : Nat} :
    ∀ {n}, (∀ j < n, byteAt buf (i + j) = byteAt buf' (i' + j)) →
      byteSum buf i n = byteSum buf' i' n
  | 0, _ => rfl
  | n + 1, h => by
    rw [byteSum_succ, byteSum_succ, byteSum_congr fun j hj => h j (by omega), h n (by omega)]

theorem byteSum_eq_zero {buf : List UInt8} : ∀ {i n : Nat}, (∀ j < n, byteAt buf (i + j) = 0) →
    byteSum buf i n = 0
  | _, 0, _ => rfl
  | i, n + 1, h => by
    have h₀ : byteAt buf i = 0 := h 0 (by omega)
    rw [byteSum, h₀, byteSum_eq_zero fun j hj => by
      rw [show i + 1 + j = i + (j + 1) by omega]; exact h _ (by omega)]

/-- Setting byte `i` changes `byteAt` at `i` only. -/
theorem byteAt_set (buf : List UInt8) {i : Nat} (b : UInt8) (hi : i < buf.length) (j : Nat) :
    byteAt (buf.set i b) j = if i = j then b.toNat else byteAt buf j := by
  simp only [byteAt, List.getD_eq_getElem?_getD, List.getElem?_set, hi, if_true]
  split <;> rfl

/-- A byte sum over a range that holds byte `i` moves by the change of that byte. -/
theorem byteSum_set (buf : List UInt8) {i : Nat} (b : UInt8) (hi : i < buf.length) :
    ∀ n j, j ≤ i → i < j + n → byteSum (buf.set i b) j n + byteAt buf i = byteSum buf j n + b.toNat
  | 0, _, _, h => absurd h (by omega)
  | n + 1, j, hj, hn => by
    rcases Nat.eq_or_lt_of_le hj with rfl | hlt
    · have hrest : byteSum (buf.set j b) (j + 1) n = byteSum buf (j + 1) n :=
        byteSum_congr fun k _ => by rw [byteAt_set buf b hi, if_neg (by omega)]
      rw [byteSum, byteSum, byteAt_set buf b hi, if_pos rfl, hrest]
      omega
    · have ih := byteSum_set buf b hi n (j + 1) (by omega) (by omega)
      rw [byteSum, byteSum, byteAt_set buf b hi, if_neg (by omega)]
      omega

/-- Lists that reach `k` and agree on their first `k` bytes have the same prefix. -/
theorem take_eq_of_byteAt {l l' : List UInt8} {k : Nat} (hl : k ≤ l.length) (hl' : k ≤ l'.length)
    (h : ∀ i < k, byteAt l i = byteAt l' i) : l.take k = l'.take k := by
  apply List.ext_getElem (by simp only [List.length_take]; omega)
  intro i h₁ h₂
  have hi : i < k := by simp only [List.length_take] at h₁; omega
  have := h i hi
  simp only [byteAt, List.getD_eq_getElem?_getD, List.getElem?_eq_getElem (show i < l.length by omega),
    List.getElem?_eq_getElem (show i < l'.length by omega), Option.getD_some] at this
  simp only [List.getElem_take, UInt8.toNat.inj this]

/-- A byte-aligned `BytesRange` depends on its own bytes only. -/
theorem bytesAt_eq_of_window {buf buf' : List UInt8} :
    ∀ {i i' n : Nat}, (∀ j < n, byteAt buf (i + j) = byteAt buf' (i' + j)) →
      bytesAt buf (8 * i) n = bytesAt buf' (8 * i') n
  | _, _, 0, _ => rfl
  | i, i', n + 1, h => by
    have e : ∀ m, 8 * m + 8 = 8 * (m + 1) := fun m => by omega
    have h0 : byteAt buf i = byteAt buf' i' := h 0 (by omega)
    simp only [bytesAt, readBits_byte, e, h0,
      @bytesAt_eq_of_window buf buf' (i + 1) (i' + 1) n fun j hj => by
        simpa only [Nat.add_right_comm, Nat.add_assoc, Nat.add_comm 1 j] using h (j + 1) (by omega)]

theorem readBits_take (buf : List UInt8) {j p n : Nat} (h : p + n ≤ 8 * j) :
    readBits (buf.take j) p n = readBits buf p n :=
  readBits_congr fun _ _ => byteAt_take buf (by omega)

/-- The bits of a `BytesRange`, read from its start, are the bits it was read from. -/
theorem readBits_bytesAt (buf : List UInt8) (i n : Nat) :
    readBits (bytesAt buf (8 * i) n) 0 (8 * n) = readBits buf (8 * i) (8 * n) := by
  rw [@readBits_bytes _ 0 n rfl, @readBits_bytes buf (8 * i) n (by omega), Nat.mul_div_cancel_left i
    (by omega : 0 < 8)]
  exact beBytes_congr fun j hj => by
    rw [byteAt_drop, byteAt_drop, Nat.zero_div, Nat.zero_add, byteAt_bytesAt buf i n j hj]

/-- Byte `j` of the first `k` is a base-256 digit of their big-endian value. -/
theorem byteAt_eq_digit (bs : List UInt8) : ∀ {k j : Nat}, j < k →
    byteAt bs j = beBytes bs k / 256 ^ (k - 1 - j) % 256
  | k + 1, j, h => by
    have hb := byteAt_lt bs k
    rcases Nat.lt_succ_iff_lt_or_eq.1 h with hj | rfl
    · rw [byteAt_eq_digit bs hj, beBytes, show k + 1 - 1 - j = k - 1 - j + 1 by omega,
        Nat.pow_succ', ← Nat.div_div_eq_div_mul,
        show (beBytes bs k * 256 + byteAt bs k) / 256 = beBytes bs k by omega]
    · simp only [beBytes, Nat.add_sub_cancel, Nat.sub_self, Nat.pow_zero, Nat.div_one]
      omega

/-- Byte `j` of the first `k` is the base-256 digit `j` of their little-endian value. -/
theorem byteAt_eq_le_digit (bs : List UInt8) : ∀ {k j : Nat}, j < k →
    byteAt bs j = leBytes bs k / 256 ^ j % 256
  | k + 1, j, h => by
    have hL := leBytes_lt bs k
    have hP : 0 < 256 ^ j := Nat.pos_pow_of_pos j (by decide)
    rcases Nat.lt_succ_iff_lt_or_eq.1 h with hj | rfl
    · obtain ⟨d, rfl⟩ : ∃ d, k = j + 1 + d := ⟨k - j - 1, by omega⟩
      have hs : leBytes bs (j + 1 + d) + byteAt bs (j + 1 + d) * 256 ^ (j + 1 + d) =
          leBytes bs (j + 1 + d) + 256 ^ j * (256 * (byteAt bs (j + 1 + d) * 256 ^ d)) := by
        simp only [Nat.pow_add, Nat.pow_one, Nat.mul_comm, Nat.mul_left_comm, Nat.mul_assoc]
      rw [byteAt_eq_le_digit bs hj, leBytes, hs, Nat.add_mul_div_left _ _ hP,
        Nat.add_mul_mod_self_left]
    · rw [leBytes, Nat.add_mul_div_right _ _ hP, Nat.div_eq_of_lt hL, Nat.zero_add,
        Nat.mod_eq_of_lt (byteAt_lt bs j)]

/-- Lists of `k` bytes with the same big-endian value are equal. -/
theorem beBytes_inj {l l' : List UInt8} {k : Nat} (hl : l.length = k) (hl' : l'.length = k)
    (h : beBytes l k = beBytes l' k) : l = l' := by
  have := @take_eq_of_byteAt l l' k (by omega) (by omega) fun j hj => by
    rw [byteAt_eq_digit l hj, byteAt_eq_digit l' hj, h]
  rwa [List.take_of_length_le (by omega), List.take_of_length_le (by omega)] at this

end Edid
