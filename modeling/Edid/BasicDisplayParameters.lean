import Edid.BaseRecordFields

/-!
# The basic display parameters

`decodeBasicDisplayParameters` in closed form: bytes 20–24 of the base record, read bit by bit,
whose input type (bit 7 of byte 20) selects the digital or the analog reading of the rest of
that byte and of the display type, whose screen sizes (bytes 21 and 22) give the aspect ratio,
and whose revision (from the header) names bit 1 of byte 24.

The decoder's `do` block has four join points, one after each `if`; unfolded naively, its run
has thirty-two paths. The run lemmas below take each read together with the rest of the block
(`fieldU_small_bind`, `fieldBool_bind`, …), so that the branch of an `if` is decided by the
value just read, and the two `if`s whose branches differ only in a value
(`aspectRatio_bind`, `ite_fieldBool_bind`) are merged into one read.

* `screenAspectRatio` — the aspect ratio of the screen sizes: `undefined`, portrait, landscape
  or their quotient;
* `basicDisplayParameterFields` and `decodeBasicDisplayParameters_run` — **the closed form** on
  every five bytes in the frame, and the continuous-frequency bit it returns in the context;
* `decodeEDID_basicDisplayParameters` — **the basic display parameters of every decoded
  buffer**, with the revision of its header.
-/

set_option autoImplicit false

namespace Edid

open D Decode

variable {α β : Type} {fr : Frame} {p : Nat} {e : Endian}

/-! ## A read and the rest of the block -/

/-- A read of at most eight bits through a mapper that keeps the actual value, followed by `f`:
the field, then `f` on the bits read. -/
theorem fieldU_small_bind (name : String) {n : Nat} {m : UintMapper} {f : Nat → Decode β}
    (hn : n ≤ 8) (hk : KeepsActual m) (h : p + n ≤ fr.limit) :
    (fieldU name n [m] >>= f) fr ⟨p, e⟩ =
      prepend [uintField name p n (readBits fr.buf p n) [m]] (f (readBits fr.buf p n) fr ⟨p + n, e⟩) := by
  have hk' := @mapUint_keepsActual [m] (fun m' hm' => List.mem_singleton.mp hm' ▸ hk)
    { actual := endianValue e n (readBits fr.buf p n) }
  rw [run_bind, fieldU_run, fieldUE_then _ _ h hk'.2, hk'.1, endianValue_of_le _ _ hn]

theorem fieldBool_bind (name : String) {f : Bool → Decode β} (h : p + 1 ≤ fr.limit) :
    (fieldBool name >>= f) fr ⟨p, e⟩ = prepend [.scalar name p 1 (.bool (readBits fr.buf p 1 = 1))]
      (f (readBits fr.buf p 1 = 1) fr ⟨p + 1, e⟩) := by
  rw [run_bind, fieldBool_then name h]

theorem fieldValueStr_bind (name s : String) {f : Unit → Decode β} :
    (fieldValueStr name s >>= f) fr ⟨p, e⟩ =
      prepend [.scalar name p 0 (.str s.toUTF8.toList)] (f () fr ⟨p, e⟩) := rfl

theorem pure_bind_run {c : Cursor} (a : α) {f : α → Decode β} : (pure a >>= f) fr c = f a fr c := by
  rw [run_bind, run_pure, andThen_ok, prepend_nil]

/-- A Go value that is never a panic. -/
theorem orPanic_bind {c : Cursor} {o : Option α} {f : α → Decode β} (h : o.isSome) :
    (orPanic o >>= f) fr c = f (o.get h) fr c := by
  cases o with
  | some a => exact pure_bind_run a
  | none => cases h

/-- Go's `if c { d.FieldBool(a) } else { d.FieldBool(b) }` before the same rest: one read,
named by the branch. -/
theorem ite_fieldBool_bind {P : Prop} [Decidable P] (a b : String) {f : Bool → Decode β}
    (h : p + 1 ≤ fr.limit) :
    (if P then (fieldBool a >>= f) fr ⟨p, e⟩ else (fieldBool b >>= f) fr ⟨p, e⟩) =
      prepend [.scalar (if P then a else b) p 1 (.bool (readBits fr.buf p 1 = 1))]
        (f (readBits fr.buf p 1 = 1) fr ⟨p + 1, e⟩) := by
  split <;> exact fieldBool_bind _ h

/-! ## The aspect ratio -/

/-- The aspect ratio `decodeBasicDisplayParameters` gives the screen sizes `hs` and `vs` (in cm):
`undefined` when both are zero, the portrait ratio `100 / (vs + 99)` when only the width is, the
landscape ratio `(hs + 99) / 100` when only the height is, and `hs / vs` otherwise, each named
by `aspectRatio`, which always names one. -/
def screenAspectRatio (hs vs : Nat) : String :=
  if hs = 0 ∧ vs = 0 then "undefined"
  else (aspectRatio (if hs = 0 then 100 / (vs + 99).toFloat
    else if vs = 0 then (hs + 99).toFloat / 100 else hs.toFloat / vs.toFloat)).get (aspectRatio_isSome _)

/-- The four branches of the aspect ratio before the same rest: one field. -/
theorem aspectRatio_bind (hs vs : Nat) {f : Unit → Decode β} :
    (if hs = 0 ∧ vs = 0 then (fieldValueStr "aspect_ratio" "undefined" >>= f) fr ⟨p, e⟩
      else (if hs = 0 then orPanic (aspectRatio (100 / (vs + 99).toFloat)) >>= fun l =>
          fieldValueStr "aspect_ratio" l >>= f
        else if vs = 0 then orPanic (aspectRatio ((hs + 99).toFloat / 100)) >>= fun l =>
          fieldValueStr "aspect_ratio" l >>= f
        else orPanic (aspectRatio (hs.toFloat / vs.toFloat)) >>= fun l =>
          fieldValueStr "aspect_ratio" l >>= f) fr ⟨p, e⟩) =
      prepend [.scalar "aspect_ratio" p 0 (.str (screenAspectRatio hs vs).toUTF8.toList)]
        (f () fr ⟨p, e⟩) := by
  unfold screenAspectRatio
  split_ifs <;> simp only [fieldValueStr_bind, orPanic_bind (aspectRatio_isSome _)]

/-! ## The closed form -/

/-- The fields of `decodeBasicDisplayParameters` over bytes `i … i + 4` for the header's
`revision`: the input type is bit 7 of byte `i` (bit offsets count from the top), and when it is
`1` (digital) the rest of the byte is the bit depth and the video interface, otherwise five sync
bits; bytes `i + 1` and `i + 2` are the screen sizes and their aspect ratio, byte `i + 3` the
gamma, and byte `i + 4` the feature bits, whose display type is read through the table of the
input type and whose bit 1 is named by the revision. -/
def basicDisplayParameterFields (buf : List UInt8) (revision i : Nat) : List Field :=
  let b := byteAt buf i
  let f := byteAt buf (i + 4)
  uintField "input_type" (8 * i) 1 (bitsOf b 0 1) [uintMapSymStr [(0, "analog"), (1, "digital")]] ::
  ((if bitsOf b 0 1 = 1 then
    [uintField "bit_depth" (8 * i + 1) 3 (bitsOf b 1 3) [bitDepthMapper],
     uintField "video_interface" (8 * i + 4) 4 (bitsOf b 4 4) [interfaceMapper]]
  else
    [uintField "white_sync_leves_relative_to_blank" (8 * i + 1) 2 (bitsOf b 1 2) [uintMapDescription
      [(0, "+0.7/−0.3 V"), (1, "+0.714/−0.286 V"), (2, "+1.0/−0.4 V"), (3, "+0.7/0 V (EVC)")]],
     .scalar "blank_to_black_setup_expected" (8 * i + 3) 1 (.bool (bitsOf b 3 1 = 1)),
     .scalar "separate_sync_supported" (8 * i + 4) 1 (.bool (bitsOf b 4 1 = 1)),
     .scalar "composite_sync_on_hsync_supported" (8 * i + 5) 1 (.bool (bitsOf b 5 1 = 1)),
     .scalar "sync_on_green_supported" (8 * i + 6) 1 (.bool (bitsOf b 6 1 = 1)),
     .scalar "serration_on_vsync_supported" (8 * i + 7) 1 (.bool (bitsOf b 7 1 = 1))]) ++
  [uintField "horizontal_screen_size" (8 * i + 8) 8 (byteAt buf (i + 1)) [descUintMapper "cm"],
   uintField "vertical_screen_size" (8 * i + 16) 8 (byteAt buf (i + 2)) [descUintMapper "cm"],
   .scalar "aspect_ratio" (8 * i + 24) 0
     (.str (screenAspectRatio (byteAt buf (i + 1)) (byteAt buf (i + 2))).toUTF8.toList),
   uintField "gamma" (8 * i + 24) 8 (byteAt buf (i + 3))
     [uintFn fun s => { s with sym := some (.flt (s.actual.toFloat / 100 + 1)) }],
   .scalar "dpms_standby_supported" (8 * i + 32) 1 (.bool (bitsOf f 0 1 = 1)),
   .scalar "dpms_suspend_supported" (8 * i + 33) 1 (.bool (bitsOf f 1 1 = 1)),
   .scalar "dpms_active_off_supported" (8 * i + 34) 1 (.bool (bitsOf f 2 1 = 1)),
   uintField "display_type" (8 * i + 35) 2 (bitsOf f 3 2)
     [if bitsOf b 0 1 = 1 then uintMapDescription [(0, "RGB 4:4:4"), (1, "RGB 4:4:4 + YCrCb 4:4:4"),
        (2, "RGB 4:4:4 + YCrCb 4:2:2"), (3, "RGB 4:4:4 + YCrCb 4:4:4 + YCrCb 4:2:2")]
      else uintMapDescription [(0, "Monochrome or Grayscale"), (1, "RGB color"),
        (2, "Non-RGB color"), (3, "undefined")]],
   .scalar "standard_srgb_color_space" (8 * i + 37) 1 (.bool (bitsOf f 5 1 = 1)),
   .scalar (if revision = 3 ∨ revision = 4 then "preferred_timing_block_includes_npf_rr"
     else "preferred_timing_mode_in_block_1") (8 * i + 38) 1 (.bool (bitsOf f 6 1 = 1)),
   .scalar "continuous_frequency_supported" (8 * i + 39) 1 (.bool (bitsOf f 7 1 = 1))])

/-- **The closed form of `decodeBasicDisplayParameters`** on the five bytes at byte `i`, in
either byte order: the fields of `basicDisplayParameterFields`, and the context with the
continuous-frequency bit (bit 0 of byte `i + 4`). The input type is decided first; the aspect
ratio and the revision-named bit are each one read whatever their branch. -/
theorem decodeBasicDisplayParameters_run (ec : EdidContext) {i : Nat} (e : Endian)
    (h : 8 * (i + 5) ≤ fr.limit) :
    decodeBasicDisplayParameters ec fr ⟨8 * i, e⟩ =
      .ok ({ ec with contFreq := bitsOf (byteAt fr.buf (i + 4)) 7 1 = 1 }, ⟨8 * i + 40, e⟩,
        basicDisplayParameterFields fr.buf ec.revision i) := by
  have h0 : readBits fr.buf (8 * i) 1 = bitsOf (byteAt fr.buf i) 0 1 := by
    simpa using @readBits_slot fr.buf i 0 1 (by omega) (by omega)
  have k₁ : KeepsActual bitDepthMapper := uintMap_keepsActual _
  have k₂ : KeepsActual interfaceMapper := uintMapSymStr_keepsActual _
  have k₃ : KeepsActual (descUintMapper "cm") := uintFn_keepsActual fun _ => rfl
  by_cases ht : bitsOf (byteAt fr.buf i) 0 1 = 1 <;>
  simp (disch := first | omega | assumption | exact uintMapSymStr_keepsActual _ |
      exact uintMapDescription_keepsActual _ | exact uintFn_keepsActual fun _ => rfl) only
    [decodeBasicDisplayParameters, ↓fieldU_small_bind, ↓fieldBool_bind, ↓fieldValueStr_bind,
      ↓pure_bind_run, ↓ite_run, ↓reduceIte, ↓aspectRatio_bind, ↓ite_fieldBool_bind, run_pure,
      prepend_ok, Nat.add_assoc, Nat.reduceAdd, h0, ht, readBits_slot_byte, Nat.reduceDiv] <;>
  simp (disch := omega) only [readBits_slot, Nat.reduceDiv, Nat.reduceMod, Nat.add_zero,
    basicDisplayParameterFields, ht, if_true, if_false, List.singleton_append, List.cons_append,
    List.nil_append, List.append_nil]

/-- The basic display parameters read their five bytes only. -/
theorem basicDisplayParameterFields_take (buf : List UInt8) (revision : Nat) {i k : Nat}
    (hk : i + 5 ≤ k) :
    basicDisplayParameterFields (buf.take k) revision i = basicDisplayParameterFields buf revision i := by
  simp (disch := omega) only [basicDisplayParameterFields, byteAt_take]

/-! ## Every decoded buffer -/

/-- **The basic display parameters of every decoded buffer**: the struct
`basic_display_parameters` holds the fields of `basicDisplayParameterFields` over bytes 20–24,
with the revision the header read (byte 19). -/
theorem decodeEDID_basicDisplayParameters {buf : List UInt8} {c : Cursor} {ws : List Field}
    (h : decodeEDID (root buf) start = .ok ((), c, ws)) :
    .struct "basic_display_parameters" (basicDisplayParameterFields buf (byteAt buf 19) 20) ∈ ws := by
  obtain ⟨_, _, _, hs, rfl, -⟩ := decodeEDID_fields h
  obtain ⟨w₂, _, rfl, _, _, hb⟩ := baseRecordSections_fields hs
  rw [decodeBasicDisplayParameters_run _ .little (Nat.le_refl _)] at hb
  simp only [Except.ok.injEq, Prod.mk.injEq] at hb
  obtain ⟨-, -, rfl⟩ := hb
  rw [basicDisplayParameterFields_take _ _ (Nat.le_refl _)]
  simp

/-- The sample record is digital (byte 20 is `80`), has no screen size, gamma `78` (2.2) and
feature byte `EA`, and its header is of revision 4. -/
theorem sampleHeaderRecord_basicDisplayParameters : ∃ c ws,
    decodeEDID (root sampleHeaderRecord) start = .ok ((), c, ws) ∧
      .struct "basic_display_parameters" (basicDisplayParameterFields sampleHeaderRecord 4 20) ∈ ws ∧
      (basicDisplayParameterFields sampleHeaderRecord 4 20).map Field.namedValue? =
        [some ("input_type", 1), some ("bit_depth", 0), some ("video_interface", 0),
          some ("horizontal_screen_size", 0), some ("vertical_screen_size", 0), none,
          some ("gamma", 120), some ("dpms_standby_supported", 1),
          some ("dpms_suspend_supported", 1), some ("dpms_active_off_supported", 1),
          some ("display_type", 1), some ("standard_srgb_color_space", 0),
          some ("preferred_timing_block_includes_npf_rr", 1),
          some ("continuous_frequency_supported", 0)] := by
  obtain ⟨c, ws, h⟩ := sampleHeaderRecord_run
  exact ⟨c, ws, h, decodeEDID_basicDisplayParameters h, rfl⟩

end Edid
