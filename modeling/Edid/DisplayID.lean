import Edid.Descriptor

/-!
# The DisplayID extension

`decodeDisplayIDExtension` and the DisplayID section decoder `decodeDisplayID`, with its data
block list and the Type I detailed timing block `decodeTagTimingIDetailed`.

* `decodeDisplayID` runs in a 126-byte frame after the window's tag: version, byte count `N`,
  product type and extension count, then the `data_blocks` loop while the position is below
  window byte `5 + N` (a zero tag ends the list unless it is the first block), padding up to
  the frame's last byte, and a section checksum over the header and the `N` data bytes.
* The loop is `dataBlocks` with an iteration bound (`fuel`), which `decodeDisplayID` sets to
  `N + 1`; every block consumes at least three bytes, so the bound is never reached.
* `fmt.Printf` of `decodeDisplayID` writes to standard output only and is left out.
-/

set_option autoImplicit false

namespace Edid

open D

/-- `tagMap`. -/
def tagMap : UintMapper := uintMapDescription
  [(0x00, "Product Identification Data Block"), (0x01, "Display Parameters Data Block"),
   (0x02, "Color Characteristics"), (0x03, "Type I Timing - Detailed"),
   (0x04, "Type II Timing - Detailed"), (0x05, "Type III Timing - Short"),
   (0x06, "Type IV Timing - DMT ID Code"), (0x07, "VESA Timing Standard"),
   (0x08, "CEA Timing Standard"), (0x09, "Video Timing Range Limits"),
   (0x0a, "Product Serial Number"), (0x0b, "General Purpose ASCII String"),
   (0x0c, "Display Device Data"), (0x0d, "Interface Power Sequencing Data Block"),
   (0x0e, "Transfer Characteristics Data Block"), (0x0f, "Display Interface Data Block"),
   (0x10, "Stereo Display Interface Data Block"), (0x11, "Type V Timing - Short"),
   (0x12, "Tiled Display Topology Data Block"), (0x13, "Type VI Timing - Detailed"),
   (0x7f, "Vendor Specific Data Block")]

/-- The mappers of the `tag` field of a data block keep the value read. -/
theorem tagMappers_keepsActual : ∀ m ∈ [tagMap, uintHex], KeepsActual m := by
  simp only [List.mem_cons, List.mem_singleton, List.not_mem_nil, or_false, forall_eq_or_imp,
    forall_eq]
  exact ⟨uintMapDescription_keepsActual _, uintHex_keepsActual⟩

/-- `aspectMap`. -/
def aspectMap : UintMapper := uintMapSymStr
  [(0, "1:1"), (1, "5:4"), (2, "4:3"), (3, "15:9"), (4, "16:9"), (5, "16:10"), (6, "64:27"),
   (7, "256:135"), (8, "undefined")]

/-- One iteration of the timing loop of `decodeTagTimingIDetailed`: a 20-byte descriptor. -/
def typeITiming : Decode Unit := do
  let clkStart ← pos
  let clk1 ← u 8
  let clk2 ← u 8
  let clk3 ← u 8
  let clkLen := (← pos) - clkStart
  let pixelClock := clk1 + (clk2 <<< 8) + (clk3 <<< 16)
  fieldValueUintAddr "pixel_clock" pixelClock clkStart clkLen
    [uintActualAdd 1, pixelClockMapper, descUintMapper "MHz"]
  let _ ← fieldBool "preferred_timing"
  let _ ← fieldU "3d_stereo_support" 2
    [uintMapSymStr [(0, "no_stereo"), (1, "always_stereo"), (2, "switchable_stereo")]]
  let _ ← fieldU "scan_type" 1 [uintMapSymStr [(0, "progressive"), (1, "interlaced")]]
  let _ ← fieldU "aspect_ratio" 4 [aspectMap]
  let _ ← fieldUE "horizontal_active_image_pixels" 16 .little [uintActualAdd 1]
  let _ ← fieldUE "horizontal_blank_pixels" 16 .little [uintActualAdd 1]
  let hfpStart ← pos
  let hfp1 ← u 8
  let _ ← fieldU "horizontal_sync_polarity" 1 [uintMapSymStr [(0, "negative"), (1, "positive")]]
  let hfp2 ← u 7
  let hfp := hfp1 + (hfp2 <<< 8)
  fieldValueUintAddr "horizontal_front_porch" hfp hfpStart 16
    [uintActualAdd 1, descUintMapper "pixels"]
  let _ ← fieldUE "horizontal_sync_width" 16 .little [uintActualAdd 1, descUintMapper "pixels"]
  let _ ← fieldUE "vertical_active_image_lines" 16 .little [uintActualAdd 1]
  let _ ← fieldUE "vertical_blank_lines" 16 .little [uintActualAdd 1]
  let vfpStart ← pos
  let vfp1 ← u 8
  let _ ← fieldU "vertical_sync_polarity" 1 [uintMapSymStr [(0, "negative"), (1, "positive")]]
  let vfp2 ← u 7
  let vfp := vfp1 + (vfp2 <<< 8)
  fieldValueUintAddr "vertical_front_porch" vfp vfpStart 16
    [uintActualAdd 1, descUintMapper "lines"]
  let _ ← fieldUE "vertical_sync_width" 16 .little [uintActualAdd 1, descUintMapper "lines"]

/-- `decodeTagTimingIDetailed`: `payload_bytes / 20` timing descriptors. -/
def decodeTagTimingIDetailed : Decode Unit := do
  let _ ← fieldU "revision" 8 []
  let pBytes ← fieldU "payload_bytes" 8 []
  rep typeITiming (pBytes / 20)

/-- The body of the `data_block` struct of `decodeDisplayID`: the tag, then tag `0x03` or the
generic header and payload. -/
def dataBlock : Decode Unit := do
  let tag ← fieldU "tag" 8 [tagMap, uintHex]
  match tag with
  | 0x03 => decodeTagTimingIDetailed
  | _ => do
    let _ ← fieldU "block_header" 5 []
    let _ ← fieldU "revision" 3 []
    let pBytes ← fieldU "payload_bytes" 8 []
    fieldRawLen "payload" ((pBytes : Int) * 8) []

/-- The `data_blocks` loop of `decodeDisplayID`, with at most `fuel` iterations. -/
def dataBlocks (byteCount dataStart : Nat) : Nat → Decode Unit
  | 0 => fail .fuel
  | fuel + 1 => do
    let p ← pos
    if p < (5 + byteCount) * 8 then
      let tag ← peekUintBits 8
      if tag = 0 ∧ dataStart ≠ p then pure ()
      else
        fieldStruct "data_block" dataBlock
        dataBlocks byteCount dataStart fuel
    else pure ()

/-- `decodeDisplayID`. -/
def decodeDisplayID : Decode Unit := do
  let _ ← fieldU "display_id_version" 4 []
  let _ ← fieldU "display_id_revision" 4 []
  let byteCount ← fieldU "bytes_of_data" 8 []
  let id ← fieldU "display_product_type_identifier" 8 []
  let ext ← fieldU "extension_count" 8 []
  if id = 0 ∧ ext = 0 then fieldValueBool "is_an_extension" true
  fieldArray "data_blocks" do
    let dataStart ← pos
    dataBlocks byteCount dataStart (byteCount + 1)
  let left ← bitsLeft
  if left - 8 > 0 then fieldRawLen "padding" (left - 8) []
  fieldChecksum 8 (4 + byteCount)

/-- `decodeDisplayIDExtension`. -/
def decodeDisplayIDExtension : Decode Unit := do
  let _ ← fieldU "tag" 8 [uintHex, uintAssert 0x70]
  fieldStruct "data" (framedFn (126 * 8) decodeDisplayID)
  fieldChecksum 0 127

end Edid
