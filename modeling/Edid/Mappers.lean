import Edid.Decoder

/-!
# Value mappers and lookup tables of `edid.go`

The mapper values, lookup tables and helper functions that `edid.go` declares before its
decoders, in source order: `FieldValueUintAddr` / `FieldValueFltAddr` (fields over an explicit
bit range), `fiveBitLetter` and `manufacturerMapper`, the established-timing tables,
`interfaceMapper`, `bitDepthMapper`, `yearMapper`, `mapTimings`, `greatest_common_divisor`,
`aspectRatioDenominator`, `aspectRatio`, the small mapper constructors (`descUintMapper`,
`multiUintMapper`, `addUintMapper`) and `stereoMapper`.

Go's integer division panics on a zero divisor; `aspectRatioDenominator` returns `none`
there, and a decoder that meets it aborts with `DecodeError.panic`.
-/

set_option autoImplicit false

namespace Edid

open D

/-- `FieldValueUintAddr`: a uint field with an explicit source range; the mappers run in order
and the first failing one ends the mapping, keeping the scalar it returned. -/
def fieldValueUintAddr (name : String) (a firstBit nBits : Nat) (sms : List UintMapper) :
    Decode Unit := fun _ c =>
  .ok ((), c, [uintField name firstBit nBits a sms])

@[simp] theorem fieldValueUintAddr_run (name : String) (a firstBit nBits : Nat)
    (sms : List UintMapper) (fr : Frame) (c : Cursor) :
    fieldValueUintAddr name a firstBit nBits sms fr c = .ok ((), c, [uintField name firstBit nBits a sms]) :=
  rfl

theorem fieldValueUintAddr_then {β : Type} {k : Unit → Cursor → Outcome β} (name : String)
    (a firstBit nBits : Nat) (sms : List UintMapper) (fr : Frame) (c : Cursor) :
    Decode.andThen (fieldValueUintAddr name a firstBit nBits sms fr c) k =
      Decode.prepend [uintField name firstBit nBits a sms] (k () c) := rfl

/-- The checksum idiom of the EDID decoders: `CalcSum` over `nBytes` bytes from bit `firstBit`,
then the `checksum` byte, described as valid when it equals `0 - sum`. -/
def fieldChecksum (firstBit nBytes : Nat) : Decode Unit := do
  let sum := calcSum (← bytesRange firstBit nBytes)
  let _ ← fieldU "checksum" 8 [uintValidate (0 - sum).toNat, uintHex]

/-- The field `fieldChecksum` emits for the byte `v` at bit `p` and the sum `sum`. -/
def checksumField (p v : Nat) (sum : UInt8) : Field :=
  uintField "checksum" p 8 v [uintValidate (0 - sum).toNat, uintHex]

theorem fieldChecksum_run {fr : Frame} {p : Nat} {e : Endian} {firstBit nBytes : Nat}
    (h : p + 8 ≤ fr.limit) (hs : firstBit + 8 * nBytes ≤ fr.limit) :
    fieldChecksum firstBit nBytes fr ⟨p, e⟩ = .ok ((), ⟨p + 8, e⟩,
      [checksumField p (readBits fr.buf p 8) (calcSum (bytesAt fr.buf firstBit nBytes))]) := by
  simp (disch := first | omega | with_unfolding_all rfl) only [fieldChecksum, Decode.run_bind,
    bytesRange_then hs, fieldU_run, fieldUE_then, endianValue_of_le, Decode.run_pure,
    Decode.prepend_ok, List.append_nil]
  rfl

theorem fieldChecksum_ok_inv {fr : Frame} {p : Nat} {e : Endian} {firstBit nBytes : Nat}
    {c : Cursor} {w : List Field} (hl : p + 8 ≤ fr.limit) (hs : firstBit + 8 * nBytes ≤ fr.limit)
    (h : fieldChecksum firstBit nBytes fr ⟨p, e⟩ = .ok ((), c, w)) :
    w = [checksumField p (readBits fr.buf p 8) (calcSum (bytesAt fr.buf firstBit nBytes))] := by
  rw [fieldChecksum_run hl hs] at h
  simp only [Except.ok.injEq, Prod.mk.injEq] at h
  exact h.2.2.symm

/-- The verdict of a checksum field: valid exactly when the byte equals `0 - sum`. -/
@[simp] theorem checksumField_description (p v : Nat) (sum : UInt8) :
    (checksumField p v sum).description? = some (if v = (0 - sum).toNat then "valid" else "invalid") :=
  rfl

/-- **The checksum verdict** over a byte-aligned range: valid exactly when the range and the
checksum byte sum to 0 mod 256. -/
theorem checksumField_verdict (p : Nat) (buf : List UInt8) (i n j : Nat) :
    (checksumField p (byteAt buf j) (calcSum (bytesAt buf (8 * i) n))).description? =
      some (if (byteSum buf i n + byteAt buf j) % 256 = 0 then "valid" else "invalid") := by
  have := byteAt_lt buf j
  rw [checksumField_description, UInt8.toNat_sub', calcSum_bytesAt,
    show (0 : UInt8).toNat = 0 from rfl]
  split_ifs <;> first | rfl | omega

/-- `FieldValueFltAddr` (called without mappers). -/
def fieldValueFltAddr (name : String) (a : Float) (firstBit nBits : Nat) : Decode Unit :=
  fieldRange name firstBit nBits (.flt a)

/-- `fiveBitLetter`: `rune(64 + code)`; the five-bit code of `A` is 1. -/
def fiveBitLetter (code : Nat) : String := String.singleton (Char.ofNat (64 + code))

/-- `manufacturerMapper`: three five-bit letters. -/
def manufacturerMapper : UintMapper := uintFn fun s =>
  { s with sym := some (.str (fiveBitLetter (s.actual >>> 10 &&& 0x1f) ++
      fiveBitLetter (s.actual >>> 5 &&& 0x1f) ++ fiveBitLetter (s.actual &&& 0x1f))) }

/-- `establishedTimingsIMapper` (maps a bit index of the flag byte). -/
def establishedTimingsIMapper : UintMapper := uintMapSymStr
  [(0, "800x600@60Hz"), (1, "800x600@56Hz"), (2, "640x480@75Hz"), (3, "640x480@72Hz"),
   (4, "640x480@67Hz"), (5, "640x480@60Hz"), (6, "720x400@88Hz"), (7, "720x400@70Hz")]

/-- `establishedTimingsIIMapper`. -/
def establishedTimingsIIMapper : UintMapper := uintMapSymStr
  [(0, "1280x1024@75Hz"), (1, "1024x768@75Hz"), (2, "1024x768@70Hz"), (3, "1024x768@60Hz"),
   (4, "1024x768@87Hz(I)"), (5, "832x624@75Hz"), (6, "800x600@75Hz"), (7, "800x600@72Hz")]

/-- `manufacturerTimingsMapper`. -/
def manufacturerTimingsMapper : UintMapper := uintMapSymStr
  [(0, "reserved"), (1, "reserved"), (2, "reserved"), (3, "reserved"), (4, "reserved"),
   (5, "reserved"), (6, "reserved"), (7, "1152x870@75Hz")]

/-- `interfaceMapper`. -/
def interfaceMapper : UintMapper := uintMapSymStr
  [(0, "undefined"), (1, "dvi"), (2, "hdmia"), (3, "hdmib"), (4, "mddi"), (5, "displayport")]

/-- `bitDepthMapper`. -/
def bitDepthMapper : UintMapper := uintMap
  [(0, (some (.str "undefined"), "")), (1, (some (.uint 6), "6 bits per color")),
   (2, (some (.uint 8), "8 bits per color")), (3, (some (.uint 10), "10 bits per color")),
   (4, (some (.uint 12), "12 bits per color")), (5, (some (.uint 14), "14 bits per color")),
   (6, (some (.uint 16), "16 bits per color")), (7, (some (.str "reserved"), ""))]

/-- `yearMapper`. -/
def yearMapper : UintMapper := uintFn fun s => { s with sym := some (.uint (s.actual + 1990)) }

/-- `mapTimings`: one `timing` field, named by its bit index, for every set bit of `flags`. -/
def mapTimings (flags firstBit : Nat) (sms : List UintMapper) : Decode Unit :=
  (List.range 8).forM fun i =>
    if flags >>> i &&& 0x1 = 1 then fieldValueUintAddr "timing" i firstBit 8 sms else pure ()

/-- `greatest_common_divisor`: Euclid's loop. -/
def greatestCommonDivisor (a b : Nat) : Nat :=
  if b = 0 then a else greatestCommonDivisor b (a % b)
termination_by b
decreasing_by exact Nat.mod_lt _ (Nat.pos_of_ne_zero ‹_›)

/-- `aspectRatioEdgeCase`. -/
def aspectRatioEdgeCase : List (String × String) :=
  [("8:5", "16:10"), ("5:8", "10:16"), ("7:3", "21:9"), ("3:7", "9:21")]

/-- Go's `a / b` on `uint64`: a zero divisor panics. -/
def goDiv (a b : Nat) : Option Nat := if b = 0 then none else some (a / b)

/-- Go's `a - b` on `uint64`, which wraps mod 2^64. -/
def sub64 (a b : Nat) : Nat := (((a : Int) - b) % 2 ^ 64).toNat

/-- `aspectRatioDenominator`: `none` where Go panics on a zero divisor. -/
def aspectRatioDenominator (width height : Nat) : Option String := do
  let gcd := greatestCommonDivisor width height
  let nWidth ← goDiv width gcd
  let nHeight ← goDiv height gcd
  let try_ := toString nWidth ++ ":" ++ toString nHeight
  match aspectRatioEdgeCase.lookup try_ with
  | some edge => some edge
  | none => some try_

/-- The loop of `aspectRatio` from denominator `n`, with `k` denominators left. -/
def aspectRatioFrom (aspect : Float) (n : Nat) : Nat → Option String
  | 0 => some (toString aspect)
  | k + 1 =>
    let m := (aspect * n.toFloat + 0.5).toUInt64.toNat
    if (aspect - m.toFloat / n.toFloat).abs < 0.01 then aspectRatioDenominator m n
    else aspectRatioFrom aspect (n + 1) k

/-- `aspectRatio`: the first denominator `n ≤ 20` within 0.01, else `%2f` of the ratio. -/
def aspectRatio (aspect : Float) : Option String := aspectRatioFrom aspect 1 20

/-- `horizontalAddressablePixelsMapper`. -/
def horizontalAddressablePixelsMapper : UintMapper :=
  uintFn fun s => { s with sym := some (.uint ((s.actual + 31) * 8)) }

/-- `descUintMapper`. -/
def descUintMapper (desc : String) : UintMapper := uintFn fun s => { s with description := desc }

/-- `multiUintMapper`. -/
def multiUintMapper (m : Nat) : UintMapper := uintFn fun s => { s with sym := some (.uint (s.actual * m)) }

/-- `addUintMapper`. -/
def addUintMapper (m : Nat) : UintMapper := uintFn fun s => { s with sym := some (.uint (s.actual + m)) }

/-- `pixelClockMapper`: the clock in MHz. -/
def pixelClockMapper : UintMapper :=
  uintFn fun s => { s with sym := some (.flt (s.actual.toFloat / (100 : Nat).toFloat)) }

/-- `refreshRateMapper`. -/
def refreshRateMapper : UintMapper := addUintMapper 60

/-- `stereoMapper`: the stereo mode of the masked bits `& 0x61`. -/
def stereoMapper : UintMapper := uintFn fun s =>
  match s.actual &&& 0x61 with
  | 0 | 1 => { s with sym := some (.str "normal") }
  | 32 => { s with sym := some (.str "field_seq_right") }
  | 33 => { s with sym := some (.str "2way_right") }
  | 64 => { s with sym := some (.str "field_seq_left") }
  | 65 => { s with sym := some (.str "2way_left") }
  | 96 => { s with sym := some (.str "4way") }
  | 97 => { s with sym := some (.str "side_by_side") }
  | _ => s

end Edid
