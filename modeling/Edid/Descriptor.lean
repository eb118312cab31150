import Edid.BaseRecord

/-!
# Descriptor slots

`DetailedDescriptor` and `DetailedTimingDescriptor` of `edid.go`, the decoder of one 18-byte
slot, shared by the base record and the CEA-861 extension:

* `detailedDescriptor` — peeks 16 bits at the slot; zero selects the display-descriptor
  branch (`displayDescriptor`, whose tag `0xfd` case is `rangeLimits`), anything else the
  detailed timing descriptor; both run in an 18-byte frame inside one struct;
* `detailedTimingDescriptor` — the pixel clock in the decoder's byte order, then ten values
  split over a low byte and high bits of a shared byte, the two back porches derived as
  `blank - front porch - sync width` in `uint64`, and the sync byte re-read by `SeekRel(-5)`.
-/

set_option autoImplicit false

namespace Edid

open D

/-- The `0xfd` (Display Range Limits) case of `DetailedDescriptor`. -/
def rangeLimits (maybeFlags : Nat) : Decode Unit := do
  let minVertOffset : Int := if maybeFlags &&& 0x3 = 0x3 then 255 else 0
  let _ ← fieldU "min_vertical_refresh" 8 [uintActualAdd minVertOffset, descUintMapper "Hz"]
  let maxVertOffset : Int := if maybeFlags &&& 0x2 = 0x2 then 255 else 0
  let _ ← fieldU "max_vertical_refresh" 8 [uintActualAdd maxVertOffset, descUintMapper "Hz"]
  let minHoriOffset : Int := if maybeFlags >>> 2 &&& 0x3 = 0x3 then 255 else 0
  let _ ← fieldU "min_horizontal_refresh" 8 [uintActualAdd minHoriOffset, descUintMapper "kHz"]
  let maxHoriOffset : Int := if maybeFlags >>> 2 &&& 0x2 = 0x2 then 255 else 0
  let _ ← fieldU "max_horizontal_refresh" 8 [uintActualAdd maxHoriOffset, descUintMapper "kHz"]
  let _ ← fieldU "max_pixel_clock" 8 [multiUintMapper 10, descUintMapper "MHz"]
  let vtFlags ← fieldU "video_timing_support_flags" 8 []
  if vtFlags &&& 0x1 = 0x1 ∨ vtFlags &&& 0x1 = 0x0 then
    fieldRawLen "padding" (7 * 8) [assertBitBuf [0x0a, 0x20, 0x20, 0x20, 0x20, 0x20, 0x20]]
  else do
    let _ ← fieldU "video_timing_data1" 8 []
    let _ ← fieldU "video_timing_data2" 8 []
    let _ ← fieldU "video_timing_data3" 8 []
    let _ ← fieldU "video_timing_data4" 8 []
    let _ ← fieldU "video_timing_data5" 8 []
    let _ ← fieldU "video_timing_data6" 8 []
    let _ ← fieldU "video_timing_data7" 8 []

/-- The display-descriptor branch of `DetailedDescriptor` (`blockType == 0`). -/
def displayDescriptor : Decode Unit := do
  fieldRawLen "identifer" (3 * 8) [assertBitBuf [0x00, 0x00, 0x00]]
  let tag ← fieldU "tag" 8 [uintMapDescription
    [(0xff, "Display Product Serial Number"), (0xfe, "Alphanumeric Data String (ASCII)"),
     (0xfd, "Display Range Limits"), (0xfc, "Display Product Name"), (0xfb, "Color Point Data"),
     (0xfa, "Standard Timing Identifications"), (0xf9, "Display Color Management (DCM) Data"),
     (0xf8, "CVT 3 Byte Timing Codes"), (0xf7, "Established Timings III"),
     (0x10, "Dummy Descriptor")], uintHex]
  let maybeFlags ← fieldU "reserved" 8 []
  match tag with
  | 0xfc | 0xfe | 0xff => fieldStr "value" 13 (strActualTrim [0x0a, 0x20])
  | 0xfd => fieldStruct "data" (rangeLimits maybeFlags)
  | 0xfa => fieldRawLen "standard_timing_identifiers" (← bitsLeft) []
  | 0xfb => fieldRawLen "color_point" (← bitsLeft) []
  | _ => fieldRawLen "manufacturer_tag" (← bitsLeft) []

/-- `DetailedTimingDescriptor`. -/
def detailedTimingDescriptor : Decode Unit := do
  let _ ← fieldU "pixel_clock" 16 [pixelClockMapper, descUintMapper "MHz"]
  let hStart ← pos
  let hav0 ← u 8
  let hblank0 ← u 8
  let hav1 ← u 4
  let hblank1 ← u 4
  let hLen := (← pos) - hStart
  let hblank := hblank0 + (hblank1 <<< 8)
  fieldValueUintAddr "horizontal_addressable_video" (hav0 + (hav1 <<< 8)) hStart hLen
    [descUintMapper "pixels"]
  fieldValueUintAddr "horizontal_blanking" hblank hStart hLen [descUintMapper "pixels"]
  let vStart ← pos
  let vav0 ← u 8
  let vblank0 ← u 8
  let vav1 ← u 4
  let vblank1 ← u 4
  let vLen := (← pos) - vStart
  let vblank := vblank0 + (vblank1 <<< 8)
  fieldValueUintAddr "vertical_addressable_video" (vav0 + (vav1 <<< 8)) vStart vLen
    [descUintMapper "lines"]
  fieldValueUintAddr "vertical_blanking" vblank vStart vLen [descUintMapper "lines"]
  let pStart ← pos
  let hfp0 ← u 8
  let hspw0 ← u 8
  let vfp0 ← u 4
  let vspw0 ← u 4
  let hfp1 ← u 2
  let hspw1 ← u 2
  let vfp1 ← u 2
  let vspw1 ← u 2
  let pLen := (← pos) - pStart
  let hfp := hfp0 + (hfp1 <<< 8)
  let hspw := hspw0 + (hspw1 <<< 8)
  let vfp := vfp0 + (vfp1 <<< 8)
  let vspw := vspw0 + (vspw1 <<< 8)
  fieldValueUintAddr "horizontal_front_porch" hfp pStart pLen [descUintMapper "pixels"]
  fieldValueUintAddr "horizontal_sync_pulse_width" hspw pStart pLen [descUintMapper "pixels"]
  fieldValueUintAddr "horizontal_back_porch" (sub64 (sub64 hblank hfp) hspw) pStart pLen
    [descUintMapper "pixels"]
  fieldValueUintAddr "vertical_front_porch" vfp pStart pLen [descUintMapper "lines"]
  fieldValueUintAddr "vertical_sync_pulse_width" vspw pStart pLen [descUintMapper "lines"]
  fieldValueUintAddr "vertical_back_porch" (sub64 (sub64 vblank vfp) vspw) pStart pLen
    [descUintMapper "lines"]
  let iStart ← pos
  let havis0 ← u 8
  let vavis0 ← u 8
  let havis1 ← u 4
  let vavis1 ← u 4
  let iLen := (← pos) - iStart
  fieldValueUintAddr "horizontal_addressable_video_image_size" (havis0 + (havis1 <<< 8)) iStart
    iLen [descUintMapper "mm"]
  fieldValueUintAddr "vertical_addressable_video_image_size" (vavis0 + (vavis1 <<< 8)) iStart
    iLen [descUintMapper "mm"]
  let _ ← fieldU "horizontal_border_left_right" 8 [descUintMapper "mm"]
  let _ ← fieldU "vertical_border_left_right" 8 [descUintMapper "mm"]
  let _ ← fieldU "signal_interface_type" 1 [uintMapSymStr [(0, "non-interlaced"), (1, "interlaced")]]
  let _ ← fieldU "stereo_viewing_support" 7 [stereoMapper]
  seekRel (-5)
  let sStart ← pos
  let sync ← u 4
  let sLen := (← pos) - sStart
  seekRel 1
  let firstTwo := sync &&& 0xc
  fieldValueUintAddr "sync_signal" firstTwo sStart sLen [uintMapSymStr
    [(0b0000, "analog_composite"), (0b0100, "bipolar_analog_composite"),
     (0b1000, "digital_composite"), (0b1100, "digital_separate")]]
  let third := sync &&& 0x2
  let fourth := sync &&& 0x1
  if firstTwo = 0b1100 then
    fieldValueUintAddr "vsync_polarity" third sStart sLen [uintMapSymStr [(0, "negative"), (1, "positive")]]
  else
    fieldValueUintAddr "with_serrations" third sStart sLen [uintMapSymBool [(0, false), (1, true)]]
  if firstTwo = 0b1100 ∨ firstTwo = 0b1000 then
    fieldValueUintAddr "hsync_polarity" fourth sStart sLen [uintMapSymStr [(0, "negative"), (1, "positive")]]
  else
    fieldValueUintAddr "sync_on" fourth sStart sLen [uintMapSymStr [(0, "green_only"), (1, "rgb")]]

/-- `DetailedDescriptor`: one 18-byte slot, named by its kind and number. -/
def detailedDescriptor (name : String) (blockNo : Nat) : Decode Unit := do
  let blockType ← peekUintBits 16
  let blockName :=
    if blockType = 0 then "display_descriptor_" ++ toString (blockNo - 1)
    else if blockNo > 1 then name ++ "_" ++ toString blockNo
    else name
  fieldStruct blockName <| framedFn (18 * 8) do
    if blockType = 0 then displayDescriptor else detailedTimingDescriptor

end Edid
