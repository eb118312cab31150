import Edid.ChildNames

/-!
# Decoders that complete

`CompletesAt m fr c n`: on frame `fr` from cursor `c`, `m` completes `n` bits on, in the byte
order it started with. `Completes m n`: it does so on every frame that holds those `n` bits.
These are the positive half of every acceptance result: a decoder that `Completes` fails only
when its frame is too short, and one that only `CompletesAt` some frames fails because of what
they hold.

* `CompletesAt.bind_ok`, `CompletesAt.bind`, `CompletesAt.bind_rest` — a first step that
  completed (an assertion that held, a value read), then a rest that completes from there;
* `Completes` is closed under `bind`, where the continuation gets the bits that are left
  (`Completes.bind`), under `if`, under `List.forM` of steps that read nothing, and under `rep`;
* the reads whose mappers cannot fail, the synthetic fields, `fieldStruct` of a decoder whose
  children repeat no name, `fieldArray`, `orPanic` of a value that is there, and `framedFn` of
  a decoder that completes inside its frame.
-/

set_option autoImplicit false

namespace Edid

open D Decode

variable {α β γ : Type}

/-- On frame `fr` from cursor `c`, `m` completes `n` bits on, in the byte order it started with. -/
def CompletesAt (m : Decode α) (fr : Frame) (c : Cursor) (n : Nat) : Prop :=
  ∃ a w, m fr c = .ok (a, ⟨c.pos + n, c.endian⟩, w)

/-- Whenever the frame holds the next `n` bits, `m` completes `n` bits on. -/
def Completes (m : Decode α) (n : Nat) : Prop :=
  ∀ fr c, c.pos + n ≤ fr.limit → CompletesAt m fr c n

/-- A first step that completed `n` bits on, then a rest that completes in the other `t - n`. -/
theorem CompletesAt.bind_ok {m : Decode α} {f : α → Decode β} {fr : Frame} {c : Cursor} {a : α}
    {w : List Field} {n t : Nat} (hm : m fr c = .ok (a, ⟨c.pos + n, c.endian⟩, w))
    (hf : CompletesAt (f a) fr ⟨c.pos + n, c.endian⟩ (t - n)) (h : n ≤ t) :
    CompletesAt (m >>= f) fr c t := by
  obtain ⟨b, w', hr⟩ := hf
  refine ⟨b, w ++ w', ?_⟩
  rw [run_bind, hm, andThen_ok, hr, prepend_ok, Nat.add_assoc, Nat.add_sub_cancel' h]

/-- Two steps that complete on this frame, one after the other. -/
theorem CompletesAt.bind {m : Decode α} {f : α → Decode β} {fr : Frame} {c : Cursor} {n t : Nat}
    (hm : CompletesAt m fr c n) (hf : ∀ a, CompletesAt (f a) fr ⟨c.pos + n, c.endian⟩ (t - n))
    (h : n ≤ t) : CompletesAt (m >>= f) fr c t := by
  obtain ⟨a, w, hr⟩ := hm
  exact CompletesAt.bind_ok hr (hf a) h

/-- A first step that completed `n` bits on, then a rest that completes wherever it fits. -/
theorem CompletesAt.bind_rest {m : Decode α} {f : α → Decode β} {fr : Frame} {c : Cursor} {a : α}
    {w : List Field} {n t : Nat} (hm : m fr c = .ok (a, ⟨c.pos + n, c.endian⟩, w))
    (hf : Completes (f a) (t - n)) (h : n ≤ t) (hb : c.pos + t ≤ fr.limit) :
    CompletesAt (m >>= f) fr c t :=
  CompletesAt.bind_ok hm (hf fr _ (by dsimp only; omega)) h

/-- A struct around a decoder that completes here with children that repeat no name. -/
theorem CompletesAt.fieldStruct (name : String) {m : Decode α} {fr : Frame} {c : Cursor} {n : Nat}
    (h : CompletesAt m fr c n) (hu : ∀ a c' w, m fr c = .ok (a, c', w) → (w.map Field.name).Nodup) :
    CompletesAt (fieldStruct name m) fr c n := by
  obtain ⟨a, w, hr⟩ := h
  exact ⟨a, _, fieldStruct_ok name hr (hu _ _ _ hr)⟩

/-- A frame of `n` bits around a decoder that completes in `k ≤ n` of them on this frame. -/
theorem CompletesAt.framedFn {m : Decode α} {fr : Frame} {p k n : Nat} {e : Endian}
    (hm : CompletesAt m ⟨fr.buf.take ((p + n + 7) / 8), p + n⟩ ⟨p, e⟩ k) (h : p + n ≤ fr.limit) :
    CompletesAt (framedFn n m) fr ⟨p, e⟩ n := by
  obtain ⟨a, w, hr⟩ := hm
  exact ⟨a, w ++ [], by rw [framedFn_ok h, hr, andThen_ok, prepend_ok]⟩

/-- `fieldRawLen name (← bitsLeft) []`: the `n` bits left in the frame, as raw bits. -/
theorem bitsLeft_fieldRawLen (name : String) {fr : Frame} {p n : Nat} {e : Endian}
    (h : p + n = fr.limit) :
    CompletesAt (bitsLeft >>= fun k => fieldRawLen name k []) fr ⟨p, e⟩ n := by
  unfold CompletesAt
  rw [run_bind, bitsLeft_then, show (fr.limit : Int) - p = ((n : Nat) : Int) by omega,
    fieldRawLen_ok name (by omega) List.findSome?_nil]
  exact ⟨_, _, rfl⟩

namespace Completes

theorem pure (a : α) : Completes (Pure.pure a : Decode α) 0 := fun _ _ _ => ⟨a, [], rfl⟩

/-- `m` takes `n` of the `t` bits and the continuation the rest. -/
theorem bind {m : Decode α} {f : α → Decode β} {n t : Nat} (hm : Completes m n)
    (hf : ∀ a, Completes (f a) (t - n)) (h : n ≤ t) : Completes (m >>= f) t := by
  intro fr c hc
  obtain ⟨a, w, hr⟩ := hm fr c (by omega)
  exact CompletesAt.bind_ok hr (hf a fr _ (by dsimp only; omega)) h

theorem ite {P : Prop} [Decidable P] {m₁ m₂ : Decode α} {n : Nat} (h₁ : Completes m₁ n)
    (h₂ : Completes m₂ n) : Completes (if P then m₁ else m₂) n := by
  split
  · exact h₁
  · exact h₂

/-- Go's `if c { m₁ } else { m₂ }` before a shared rest `f` (the join point of a `do` block):
the rest is proved once. -/
theorem ite_bind {P : Prop} [Decidable P] {m₁ m₂ : Decode α} {f : α → Decode β} {n t : Nat}
    (h₁ : Completes m₁ n) (h₂ : Completes m₂ n) (hf : ∀ a, Completes (f a) (t - n)) (h : n ≤ t) :
    Completes (if P then m₁ >>= f else m₂ >>= f) t :=
  Completes.ite (h₁.bind hf h) (h₂.bind hf h)

/-- A loop over a list whose steps read nothing. -/
theorem forM {f : γ → Decode Unit} (hf : ∀ x, Completes (f x) 0) :
    ∀ l : List γ, Completes (l.forM f) 0
  | [] => Completes.pure _
  | x :: l => (hf x).bind (fun _ => Completes.forM hf l) (Nat.le_refl 0)

theorem rep {m : Decode Unit} {n : Nat} (hm : Completes m n) : ∀ k, Completes (D.rep m k) (k * n)
  | 0 => by simpa using Completes.pure ()
  | k + 1 => hm.bind (fun _ => by rw [Nat.succ_mul, Nat.add_sub_cancel]; exact Completes.rep hm k)
      (by rw [Nat.succ_mul]; omega)

end Completes

/-! ## The steps of the host -/

theorem pos_completes : Completes pos 0 := fun _ _ _ => ⟨_, [], rfl⟩

theorem u_completes (n : Nat) : Completes (u n) n := by
  rintro fr ⟨p, e⟩ h
  exact ⟨_, _, uE_ok e h⟩

/-- A read whose mappers cannot fail. -/
theorem fieldUE_completes (name : String) (n : Nat) (e' : Endian) {ms : List UintMapper}
    (hm : ∀ s, (mapUint ms s).2 = none) : Completes (fieldUE name n e' ms) n := by
  rintro fr ⟨p, e⟩ h
  exact ⟨_, _, fieldUE_ok name e' h (hm _)⟩

theorem fieldU_completes (name : String) (n : Nat) {ms : List UintMapper}
    (hm : ∀ s, (mapUint ms s).2 = none) : Completes (fieldU name n ms) n :=
  fun fr c => fieldUE_completes name n c.endian hm fr c

theorem fieldBool_completes (name : String) : Completes (fieldBool name) 1 := by
  rintro fr ⟨p, e⟩ h
  exact ⟨_, _, fieldBool_ok name h⟩

/-- A raw field of a length given as a natural number, with no mappers. -/
theorem fieldRawLen_completes (name : String) (n : Nat) : Completes (fieldRawLen name n []) n := by
  rintro fr ⟨p, e⟩ h
  exact ⟨_, _, fieldRawLen_ok name h List.findSome?_nil⟩

theorem fieldStr_completes (name : String) (n : Nat) (sm : List UInt8 → List UInt8) :
    Completes (fieldStr name n sm) (8 * n) := by
  rintro fr ⟨p, e⟩ h
  exact ⟨_, _, fieldStr_ok name sm h⟩

theorem fieldValueStr_completes (name s : String) : Completes (fieldValueStr name s) 0 :=
  fun _ _ _ => ⟨_, _, rfl⟩

theorem fieldValueBool_completes (name : String) (b : Bool) : Completes (fieldValueBool name b) 0 :=
  fun _ _ _ => ⟨_, _, rfl⟩

theorem fieldValueUintAddr_completes (name : String) (a firstBit nBits : Nat)
    (sms : List UintMapper) : Completes (fieldValueUintAddr name a firstBit nBits sms) 0 :=
  fun _ _ _ => ⟨_, _, rfl⟩

theorem fieldValueFltAddr_completes (name : String) (a : Float) (firstBit nBits : Nat) :
    Completes (fieldValueFltAddr name a firstBit nBits) 0 :=
  fun _ _ _ => ⟨_, _, rfl⟩

/-- Go's panic does not happen when the value is there. -/
theorem orPanic_completes {o : Option α} (h : o.isSome) : Completes (orPanic o) 0 := by
  obtain ⟨a, rfl⟩ := Option.isSome_iff_exists.mp h
  exact Completes.pure a

/-- A struct around a decoder that completes, and whose fields repeat no name. -/
theorem fieldStruct_completes (name : String) {m : Decode α} {n : Nat} (hm : Completes m n)
    (hu : UniqueNames m) : Completes (fieldStruct name m) n :=
  fun fr c h => (hm fr c h).fieldStruct name (hu fr c)

theorem fieldArray_completes (name : String) {m : Decode α} {n : Nat} (hm : Completes m n) :
    Completes (fieldArray name m) n := by
  intro fr c h
  obtain ⟨a, w, hr⟩ := hm fr c h
  exact ⟨a, _, by rw [fieldArray, hr]⟩

/-- A frame of `n` bits around a decoder that completes in `k ≤ n` of them. -/
theorem framedFn_completes {m : Decode α} {k n : Nat} (hm : Completes m k) (hk : k ≤ n) :
    Completes (framedFn n m) n := by
  rintro fr ⟨p, e⟩ h
  exact (hm _ _ (by dsimp only; omega)).framedFn h

/-- `mapTimings` reads nothing: it only names the set bits of a byte already read. -/
theorem mapTimings_completes (flags firstBit : Nat) (sms : List UintMapper) :
    Completes (mapTimings flags firstBit sms) 0 :=
  Completes.forM (fun _ => Completes.ite (fieldValueUintAddr_completes _ _ _ _ _)
    (Completes.pure ())) _

end Edid
