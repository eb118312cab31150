import Edid.Scalar

/-!
# The decoder: a cursor over a framed buffer

Modelled from the spec: the host's decoder `decode.D` (spec §4.1 and §6), which is not under
`src/`. A decoder reads a bit-addressable buffer through a cursor (a bit position and a byte
order), may not read past the end of its frame, and emits named fields; an out-of-bounds read
or a failing assertion aborts it.

* `Decode α` — a decoder returning `α`: `Frame → Cursor → Except DecodeError (α × Cursor ×
  fields)`; sequencing appends the emitted fields in order.
* Reads: `D.uE` / `D.u` (`D.UE`, `D.U8` …), `D.peekUintBits`; fields: `D.fieldUE` / `D.fieldU`
  (`D.FieldU8` …), `D.fieldBool`, `D.fieldRawLen`, `D.fieldStr`, `D.fieldRange`
  (`D.FieldRangeFn`), `D.fieldValueStr`, `D.fieldValueBool`.
* Structure: `D.fieldStruct`, `D.fieldArray`, `D.framedFn` (a frame is a reader over bits
  `[0, pos + nBits)`, after which the cursor moves past the frame whatever was consumed),
  `D.tryFieldFormat` (a group of sub-formats run as root decoders on the rest of the frame;
  a failing sub-decode leaves no field), `D.seekRel`, `D.bytesRange`, `D.bitsLeft`.
* The host's rule for the children of a struct, and of a format's root value: no two may have
  one name (`%q already exist in struct %s`); array children may. The host checks each child as
  it is added; `D.fieldStruct` and `D.decodeGroup` check the children once they are all there
  (`firstRepeat`), which keeps and refuses the same runs; only the error reported can differ,
  when a later step of the same struct would fail too.

Each primitive has its run lemma (`…_ok`) for the in-bounds case, and the monad laws are
`run_bind`, `andThen_ok`, `prepend_ok`, so a straight-line decoder is executed by `simp`.
-/

set_option autoImplicit false

namespace Edid

/-- Byte order of multi-byte reads (`decode.Endian`). -/
inductive Endian where
  | big
  | little
  deriving DecidableEq, Repr

/-- The view a decoder reads: the buffer and the end of its frame, in bits. -/
structure Frame where
  buf : List UInt8
  limit : Nat

/-- The decoder's state: its bit position and its byte order. -/
structure Cursor where
  pos : Nat
  endian : Endian
  deriving DecidableEq, Repr

/-- Why a decode aborts. -/
inductive DecodeError where
  /-- a read of `nBits` at `pos` past the frame end -/
  | outOfBounds (pos nBits : Nat)
  /-- a mapper of the field `name` failed (`UintAssert`, `AssertBitBuf`) -/
  | mapper (name msg : String)
  /-- a raw field of negative length -/
  | negativeLength (name : String) (nBits : Int)
  /-- a seek before the start of the buffer -/
  | seek (pos : Int)
  /-- a Go runtime panic, such as an integer division by zero -/
  | panic (msg : String)
  /-- the iteration bound of a loop of the model ran out (proved unreachable) -/
  | fuel
  /-- a struct child whose name a sibling has: the child's name, then the struct's -/
  | repeatedName (child struct : String)
  deriving DecidableEq, Repr

/-- What a decoder run ends with. -/
abbrev Outcome (α : Type) := Except DecodeError (α × Cursor × List Field)

/-- The actual values of the uint fields named `name` that a completed run emitted. -/
def Outcome.uintsNamed {α : Type} (name : String) : Outcome α → Option (List Nat)
  | .ok (_, _, w) => some (Field.uintsNamedList name w)
  | .error _ => none

/-- A decoder (`func(d *decode.D)`). -/
def Decode (α : Type) : Type := Frame → Cursor → Outcome α

namespace Decode

variable {α β : Type}

/-- Fields emitted earlier come first. -/
def prepend (w : List Field) : Outcome β → Outcome β
  | .ok (b, c, w') => .ok (b, c, w ++ w')
  | .error e => .error e

/-- Runs the continuation on the value and cursor of a successful run. -/
def andThen : Outcome α → (α → Cursor → Outcome β) → Outcome β
  | .ok (a, c, w), k => prepend w (k a c)
  | .error e, _ => .error e

instance : Monad Decode where
  pure a := fun _ c => .ok (a, c, [])
  bind m f := fun fr c => andThen (m fr c) fun a c' => f a fr c'

@[simp] theorem run_pure (a : α) (fr : Frame) (c : Cursor) :
    (pure a : Decode α) fr c = .ok (a, c, []) := rfl

@[simp] theorem run_bind (m : Decode α) (f : α → Decode β) (fr : Frame) (c : Cursor) :
    (m >>= f) fr c = andThen (m fr c) fun a c' => f a fr c' := rfl

@[simp] theorem andThen_ok (a : α) (c : Cursor) (w : List Field) (k : α → Cursor → Outcome β) :
    andThen (.ok (a, c, w)) k = prepend w (k a c) := rfl

@[simp] theorem andThen_error (e : DecodeError) (k : α → Cursor → Outcome β) :
    andThen (.error e) k = .error e := rfl

@[simp] theorem prepend_ok (w w' : List Field) (b : β) (c : Cursor) :
    prepend w (.ok (b, c, w')) = .ok (b, c, w ++ w') := rfl

@[simp] theorem prepend_error (w : List Field) (e : DecodeError) :
    prepend w (.error e : Outcome β) = .error e := rfl

@[simp] theorem prepend_nil (o : Outcome β) : prepend [] o = o := by
  cases o with
  | error => rfl
  | ok r => rfl

theorem prepend_prepend (w w' : List Field) (o : Outcome β) :
    prepend w (prepend w' o) = prepend (w ++ w') o := by
  cases o with
  | error => rfl
  | ok r => simp [prepend]

theorem andThen_eq_ok {o : Outcome α} {k : α → Cursor → Outcome β} {b : β} {c : Cursor}
    {w : List Field} (h : andThen o k = .ok (b, c, w)) :
    ∃ a c₁ w₁ w₂, o = .ok (a, c₁, w₁) ∧ k a c₁ = .ok (b, c, w₂) ∧ w = w₁ ++ w₂ := by
  match o, h with
  | .ok (a, c₁, w₁), h =>
    simp only [andThen_ok] at h
    match hk : k a c₁, h with
    | .ok (b', c', w₂), h =>
      simp only [hk, prepend_ok, Except.ok.injEq, Prod.mk.injEq] at h
      obtain ⟨rfl, rfl, rfl⟩ := h
      exact ⟨a, c₁, w₁, w₂, rfl, hk, rfl⟩

end Decode

namespace D

variable {α : Type}

/-- Aborts the decode. -/
def fail (e : DecodeError) : Decode α := fun _ _ => .error e

/-- A Go value that may be a runtime panic: the panic aborts the decode. -/
def orPanic : Option α → Decode α
  | some a => pure a
  | none => fail (.panic "integer divide by zero")

/-- `D.Pos`. -/
def pos : Decode Nat := fun _ c => .ok (c.pos, c, [])

/-- `D.BitsLeft`. -/
def bitsLeft : Decode Int := fun fr c => .ok ((fr.limit : Int) - c.pos, c, [])

/-- `d.Endian = e`. -/
def setEndian (e : Endian) : Decode Unit := fun _ c => .ok ((), { c with endian := e }, [])

/-- The value of an `nBits` read in byte order `e`: a little-endian read of more than 8 bits
is byte-swapped (`bitio.ReverseBytes64`). -/
def endianValue (e : Endian) (nBits v : Nat) : Nat :=
  match e with
  | .big => v
  | .little => if nBits ≤ 8 then v else reverseBytes v ((nBits + 7) / 8)

theorem endianValue_of_le {n : Nat} (e : Endian) (v : Nat) (h : n ≤ 8) : endianValue e n v = v := by
  cases e <;> simp [endianValue, h]

/-- `D.UE`: reads `nBits` in byte order `e`; fails past the frame end. -/
def uE (nBits : Nat) (e : Endian) : Decode Nat := fun fr c =>
  if c.pos + nBits ≤ fr.limit then
    .ok (endianValue e nBits (readBits fr.buf c.pos nBits), { c with pos := c.pos + nBits }, [])
  else .error (.outOfBounds c.pos nBits)

/-- `D.U1` … `D.U64`: a read in the decoder's byte order. -/
def u (nBits : Nat) : Decode Nat := fun fr c => uE nBits c.endian fr c

/-- `D.PeekUintBits`: a big-endian read that leaves the cursor where it is. -/
def peekUintBits (nBits : Nat) : Decode Nat := fun fr c =>
  match uE nBits .big fr c with
  | .ok (v, _, _) => .ok (v, c, [])
  | .error e => .error e

/-- The uint field `name` over bits `[firstBit, firstBit + nBits)`: actual `a` through the
mappers `ms`. -/
def uintField (name : String) (firstBit nBits a : Nat) (ms : List UintMapper) : Field :=
  .scalar name firstBit nBits (.uint (mapUint ms { actual := a }).1)

@[simp] theorem uintField_name (name : String) (firstBit nBits a : Nat) (ms : List UintMapper) :
    (uintField name firstBit nBits a ms).name = name := rfl

/-- `D.FieldScalarUintFn` over a read: the mapped scalar becomes a field over the bits read and
a failing mapper aborts the decode; the mapped actual value is returned. -/
def fieldUE (name : String) (nBits : Nat) (e : Endian) (ms : List UintMapper) : Decode Nat :=
  fun fr c =>
  if c.pos + nBits ≤ fr.limit then
    let v := endianValue e nBits (readBits fr.buf c.pos nBits)
    match (mapUint ms { actual := v }).2 with
    | none => .ok ((mapUint ms { actual := v }).1.actual, { c with pos := c.pos + nBits },
        [uintField name c.pos nBits v ms])
    | some err => .error (.mapper name err)
  else .error (.outOfBounds c.pos nBits)

/-- `D.FieldU1` … `D.FieldU64`: a uint field in the decoder's byte order. -/
def fieldU (name : String) (nBits : Nat) (ms : List UintMapper) : Decode Nat := fun fr c =>
  fieldUE name nBits c.endian ms fr c

/-- `D.FieldBool`: a one-bit field. -/
def fieldBool (name : String) : Decode Bool := fun fr c =>
  if c.pos + 1 ≤ fr.limit then
    .ok (readBits fr.buf c.pos 1 = 1, { c with pos := c.pos + 1 },
      [.scalar name c.pos 1 (.bool (readBits fr.buf c.pos 1 = 1))])
  else .error (.outOfBounds c.pos 1)

/-- `D.FieldRawLen`: the next `nBits` bits as raw data, checked by the mappers. -/
def fieldRawLen (name : String) (nBits : Int) (ms : List BitBufMapper) : Decode Unit :=
  fun fr c =>
  match nBits with
  | .negSucc _ => .error (.negativeLength name nBits)
  | .ofNat n =>
    if c.pos + n ≤ fr.limit then
      match ms.findSome? (fun m => m (readBits fr.buf c.pos n) n) with
      | none => .ok ((), { c with pos := c.pos + n }, [.scalar name c.pos n (.raw (readBits fr.buf c.pos n))])
      | some err => .error (.mapper name err)
    else .error (.outOfBounds c.pos n)

/-- `D.FieldStr` with `encoding.Nop`: `nBytes` bytes as a string, transformed by the mapper. -/
def fieldStr (name : String) (nBytes : Nat) (sm : List UInt8 → List UInt8) : Decode Unit :=
  fun fr c =>
  if c.pos + 8 * nBytes ≤ fr.limit then
    .ok ((), { c with pos := c.pos + 8 * nBytes },
      [.scalar name c.pos (8 * nBytes) (.str (sm (bytesAt fr.buf c.pos nBytes)))])
  else .error (.outOfBounds c.pos (8 * nBytes))

/-- `D.FieldRangeFn`: a field over an explicit range, read from nothing. -/
def fieldRange (name : String) (firstBit nBits : Nat) (s : Scalar) : Decode Unit := fun _ c =>
  .ok ((), c, [.scalar name firstBit nBits s])

/-- `D.FieldValueStr`: a synthetic string field at the cursor. -/
def fieldValueStr (name : String) (s : String) : Decode Unit := fun _ c =>
  .ok ((), c, [.scalar name c.pos 0 (.str s.toUTF8.toList)])

/-- `D.FieldValueBool`: a synthetic boolean field at the cursor. -/
def fieldValueBool (name : String) (b : Bool) : Decode Unit := fun _ c =>
  .ok ((), c, [.scalar name c.pos 0 (.bool b)])

/-- `D.FieldStruct`: the fields of `m` become the children of one struct, which may not repeat a
name. The child decoder shares the parent's reader, so the position carries over, but has its
own byte order. -/
def fieldStruct (name : String) (m : Decode α) : Decode α := fun fr c =>
  match m fr c with
  | .ok (a, c', w) =>
    match firstRepeat [] (w.map Field.name) with
    | none => .ok (a, { c' with endian := c.endian }, [.struct name w])
    | some n => .error (.repeatedName n name)
  | .error e => .error e

/-- `D.FieldArray`. -/
def fieldArray (name : String) (m : Decode α) : Decode α := fun fr c =>
  match m fr c with
  | .ok (a, c', w) => .ok (a, { c' with endian := c.endian }, [.array name w])
  | .error e => .error e

/-- `D.FramedFn`: `m` decodes in a frame that ends `nBits` after the cursor (a reader over
bits `[0, pos + nBits)`); the cursor then moves past the frame, whatever `m` consumed. -/
def framedFn (nBits : Nat) (m : Decode α) : Decode α := fun fr c =>
  if c.pos + nBits ≤ fr.limit then
    match m ⟨fr.buf.take ((c.pos + nBits + 7) / 8), c.pos + nBits⟩ c with
    | .ok (a, _, w) => .ok (a, { c with pos := c.pos + nBits }, w)
    | .error e => .error e
  else .error (.outOfBounds c.pos nBits)

/-- `D.SeekRel`. -/
def seekRel (delta : Int) : Decode Unit := fun _ c =>
  match (c.pos : Int) + delta with
  | .ofNat p => .ok ((), { c with pos := p }, [])
  | .negSucc _ => .error (.seek (c.pos + delta))

/-- `D.BytesRange`: `nBytes` bytes from bit offset `firstBit`, cursor unchanged. -/
def bytesRange (firstBit nBytes : Nat) : Decode (List UInt8) := fun fr c =>
  if firstBit + 8 * nBytes ≤ fr.limit then .ok (bytesAt fr.buf firstBit nBytes, c, [])
  else .error (.outOfBounds firstBit (8 * nBytes))

/-- A registered format (`decode.Format`), known by its `Description`, and its `DecodeFn`. -/
structure Format where
  description : String
  decodeFn : Decode Unit

/-- `decode` over a group: the first format whose decoder completes, run as a root decoder
(position 0, big endian) on the given view, with a root value that repeats no name. -/
def decodeGroup (fr : Frame) : List Format → Option (Format × Cursor × List Field)
  | [] => none
  | f :: fs =>
    match f.decodeFn fr ⟨0, .big⟩ with
    | .ok (_, c, w) =>
      match firstRepeat [] (w.map Field.name) with
      | none => some (f, c, w)
      | some _ => decodeGroup fr fs
    | .error _ => decodeGroup fr fs

/-- The format `decodeGroup` picks is one of the group, and completed with what it returns. -/
theorem decodeGroup_some {fr : Frame} :
    ∀ {fs : List Format} {f : Format} {c : Cursor} {w : List Field},
      decodeGroup fr fs = some (f, c, w) → f ∈ fs ∧ ∃ a, f.decodeFn fr ⟨0, .big⟩ = .ok (a, c, w)
  | [], _, _, _, h => by cases h
  | g :: gs, f, c, w, h => by
    unfold decodeGroup at h
    split at h
    · split at h
      · cases h
        exact ⟨List.mem_cons_self _ _, _, ‹_›⟩
      · obtain ⟨hm, hr⟩ := decodeGroup_some h
        exact ⟨List.mem_cons_of_mem _ hm, hr⟩
    · obtain ⟨hm, hr⟩ := decodeGroup_some h
      exact ⟨List.mem_cons_of_mem _ hm, hr⟩

/-- `D.TryFieldFormat`: decodes the rest of the frame with the group's formats, over a reader
of exactly those bits; a failure emits nothing and leaves the cursor. Returns whether a
format completed (`dv != nil`). -/
def tryFieldFormat (name : String) (group : List Format) : Decode Bool := fun fr c =>
  match decodeGroup ⟨bytesAt fr.buf c.pos ((fr.limit - c.pos + 7) / 8), fr.limit - c.pos⟩ group with
  | some (f, c', w) => .ok (true, { c with pos := c.pos + c'.pos }, [.format name f.description c.pos w])
  | none => .ok (false, c, [])

/-- `for range n { m }`. -/
def rep (m : Decode Unit) : Nat → Decode Unit
  | 0 => pure ()
  | n + 1 => do m; rep m n

/-! ## Run lemmas

Stated for a cursor `⟨p, e⟩`, so that `simp` can discharge the bounds with `omega`. -/

variable {fr : Frame} {p : Nat} {e : Endian}

@[simp] theorem ite_run {P : Prop} [Decidable P] (m₁ m₂ : Decode α) (c : Cursor) :
    (if P then m₁ else m₂) fr c = if P then m₁ fr c else m₂ fr c := by
  split <;> rfl

@[simp] theorem fail_run (err : DecodeError) (c : Cursor) : (fail err : Decode α) fr c = .error err := rfl

@[simp] theorem orPanic_some (a : α) : orPanic (some a) = pure a := rfl

@[simp] theorem pos_run : pos fr ⟨p, e⟩ = .ok (p, ⟨p, e⟩, []) := rfl

@[simp] theorem bitsLeft_run : bitsLeft fr ⟨p, e⟩ = .ok ((fr.limit : Int) - p, ⟨p, e⟩, []) := rfl

@[simp] theorem setEndian_run (e' : Endian) : setEndian e' fr ⟨p, e⟩ = .ok ((), ⟨p, e'⟩, []) := rfl

@[simp] theorem u_run (n : Nat) : u n fr ⟨p, e⟩ = uE n e fr ⟨p, e⟩ := rfl

@[simp] theorem fieldU_run (name : String) (n : Nat) (ms : List UintMapper) :
    fieldU name n ms fr ⟨p, e⟩ = fieldUE name n e ms fr ⟨p, e⟩ := rfl

theorem uE_ok {n : Nat} (e' : Endian) (h : p + n ≤ fr.limit) :
    uE n e' fr ⟨p, e⟩ = .ok (endianValue e' n (readBits fr.buf p n), ⟨p + n, e⟩, []) := by
  simp [uE, h]

theorem peekUintBits_ok {n : Nat} (h : p + n ≤ fr.limit) :
    peekUintBits n fr ⟨p, e⟩ = .ok (readBits fr.buf p n, ⟨p, e⟩, []) := by
  simp [peekUintBits, uE_ok .big h, endianValue]

theorem fieldUE_ok (name : String) {n : Nat} (e' : Endian) {ms : List UintMapper}
    (h : p + n ≤ fr.limit)
    (hm : (mapUint ms { actual := endianValue e' n (readBits fr.buf p n) }).2 = none) :
    fieldUE name n e' ms fr ⟨p, e⟩ =
      .ok ((mapUint ms { actual := endianValue e' n (readBits fr.buf p n) }).1.actual,
        ⟨p + n, e⟩, [uintField name p n (endianValue e' n (readBits fr.buf p n)) ms]) := by
  simp [fieldUE, h, hm]

theorem fieldBool_ok (name : String) (h : p + 1 ≤ fr.limit) :
    fieldBool name fr ⟨p, e⟩ = .ok (readBits fr.buf p 1 = 1, ⟨p + 1, e⟩,
      [.scalar name p 1 (.bool (readBits fr.buf p 1 = 1))]) := by
  simp [fieldBool, h]

theorem fieldRawLen_ok (name : String) {n : Nat} {ms : List BitBufMapper}
    (h : p + n ≤ fr.limit) (hm : ms.findSome? (fun m => m (readBits fr.buf p n) n) = none) :
    fieldRawLen name n ms fr ⟨p, e⟩ =
      .ok ((), ⟨p + n, e⟩, [.scalar name p n (.raw (readBits fr.buf p n))]) := by
  simp [fieldRawLen, h, hm]

theorem fieldStr_ok (name : String) {n : Nat} (sm : List UInt8 → List UInt8)
    (h : p + 8 * n ≤ fr.limit) :
    fieldStr name n sm fr ⟨p, e⟩ = .ok ((), ⟨p + 8 * n, e⟩,
      [.scalar name p (8 * n) (.str (sm (bytesAt fr.buf p n)))]) := by
  simp [fieldStr, h]

@[simp] theorem fieldRange_run (name : String) (firstBit n : Nat) (s : Scalar) (c : Cursor) :
    fieldRange name firstBit n s fr c = .ok ((), c, [.scalar name firstBit n s]) := rfl

@[simp] theorem fieldValueStr_run (name s : String) :
    fieldValueStr name s fr ⟨p, e⟩ = .ok ((), ⟨p, e⟩, [.scalar name p 0 (.str s.toUTF8.toList)]) := rfl

@[simp] theorem fieldValueBool_run (name : String) (b : Bool) :
    fieldValueBool name b fr ⟨p, e⟩ = .ok ((), ⟨p, e⟩, [.scalar name p 0 (.bool b)]) := rfl

theorem seekRel_ok {delta : Int} {q : Nat} (h : (p : Int) + delta = q) :
    seekRel delta fr ⟨p, e⟩ = .ok ((), ⟨q, e⟩, []) := by
  simp [seekRel, h]

theorem bytesRange_ok {firstBit n : Nat} (h : firstBit + 8 * n ≤ fr.limit) (c : Cursor) :
    bytesRange firstBit n fr c = .ok (bytesAt fr.buf firstBit n, c, []) := by
  simp [bytesRange, h]

/-- A struct whose decoder completed with children of distinct names. -/
theorem fieldStruct_ok (name : String) {m : Decode α} {c c' : Cursor} {a : α} {w : List Field}
    (hm : m fr c = .ok (a, c', w)) (hw : (w.map Field.name).Nodup) :
    fieldStruct name m fr c = .ok (a, { c' with endian := c.endian }, [.struct name w]) := by
  rw [fieldStruct, hm]
  simp only [firstRepeat_nil_eq_none.mpr hw]

theorem fieldStruct_error (name : String) {m : Decode α} {c : Cursor} {err : DecodeError}
    (hm : m fr c = .error err) : fieldStruct name m fr c = .error err := by
  rw [fieldStruct, hm]

theorem framedFn_ok {n : Nat} {m : Decode α} (h : p + n ≤ fr.limit) :
    framedFn n m fr ⟨p, e⟩ = Decode.andThen (m ⟨fr.buf.take ((p + n + 7) / 8), p + n⟩ ⟨p, e⟩)
      fun a _ => .ok (a, ⟨p + n, e⟩, []) := by
  unfold framedFn
  rw [if_pos h]
  rcases m _ _ with err | ⟨a, c', w⟩ <;> simp [Decode.andThen, Decode.prepend]

/-! ## Continuation lemmas

A read followed by the rest of a decoder: the form in which `simp` executes a straight-line
decoder after `run_bind` has turned its binds into `andThen`. -/

variable {β : Type} {k : Nat → Cursor → Outcome β}

theorem pos_then : Decode.andThen (pos fr ⟨p, e⟩) k = k p ⟨p, e⟩ := by
  simp

theorem bitsLeft_then {k : Int → Cursor → Outcome β} :
    Decode.andThen (bitsLeft fr ⟨p, e⟩) k = k ((fr.limit : Int) - p) ⟨p, e⟩ := by
  simp

theorem uE_then {n : Nat} (e' : Endian) (h : p + n ≤ fr.limit) :
    Decode.andThen (uE n e' fr ⟨p, e⟩) k = k (endianValue e' n (readBits fr.buf p n)) ⟨p + n, e⟩ := by
  simp [uE_ok e' h]

theorem peekUintBits_then {n : Nat} (h : p + n ≤ fr.limit) :
    Decode.andThen (peekUintBits n fr ⟨p, e⟩) k = k (readBits fr.buf p n) ⟨p, e⟩ := by
  simp [peekUintBits_ok h]

theorem fieldUE_then (name : String) {n : Nat} (e' : Endian) {ms : List UintMapper}
    (h : p + n ≤ fr.limit)
    (hm : (mapUint ms { actual := endianValue e' n (readBits fr.buf p n) }).2 = none) :
    Decode.andThen (fieldUE name n e' ms fr ⟨p, e⟩) k =
      Decode.prepend [uintField name p n (endianValue e' n (readBits fr.buf p n)) ms]
        (k (mapUint ms { actual := endianValue e' n (readBits fr.buf p n) }).1.actual ⟨p + n, e⟩) := by
  simp [fieldUE_ok name e' h hm]

theorem fieldBool_then (name : String) {k : Bool → Cursor → Outcome β} (h : p + 1 ≤ fr.limit) :
    Decode.andThen (fieldBool name fr ⟨p, e⟩) k =
      Decode.prepend [.scalar name p 1 (.bool (readBits fr.buf p 1 = 1))]
        (k (readBits fr.buf p 1 = 1) ⟨p + 1, e⟩) := by
  simp [fieldBool_ok name h]

theorem fieldRawLen_then (name : String) {n : Nat} {ms : List BitBufMapper}
    {k : Unit → Cursor → Outcome β} (h : p + n ≤ fr.limit)
    (hm : ms.findSome? (fun m => m (readBits fr.buf p n) n) = none) :
    Decode.andThen (fieldRawLen name n ms fr ⟨p, e⟩) k =
      Decode.prepend [.scalar name p n (.raw (readBits fr.buf p n))] (k () ⟨p + n, e⟩) := by
  simp [fieldRawLen_ok name h hm]

theorem seekRel_then (delta : Int) {k : Unit → Cursor → Outcome β} (h : (-delta).toNat ≤ p) :
    Decode.andThen (seekRel delta fr ⟨p, e⟩) k = k () ⟨p + delta.toNat - (-delta).toNat, e⟩ := by
  rw [@seekRel_ok fr p e delta (p + delta.toNat - (-delta).toNat) (by omega), Decode.andThen_ok,
    Decode.prepend_nil]

theorem bytesRange_then {firstBit n : Nat} {k : List UInt8 → Cursor → Outcome β}
    (h : firstBit + 8 * n ≤ fr.limit) :
    Decode.andThen (bytesRange firstBit n fr ⟨p, e⟩) k = k (bytesAt fr.buf firstBit n) ⟨p, e⟩ := by
  simp [bytesRange_ok h]

end D

end Edid
