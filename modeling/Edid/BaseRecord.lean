import Edid.Mappers

/-!
# The sections of the base record

Literal transcriptions of the section decoders of `edid.go` that `decodeEDID` frames before the
descriptor slots:

* `decodeFileHeader` — bytes 0–19: the asserted magic, manufacturer and product identifiers,
  week and year (a week of `0xff` makes the year a model year), version and revision;
* `decodeBasicDisplayParameters` — bytes 20–24: the analog/digital variant of byte 20, screen
  size and aspect ratio, gamma, DPMS flags, display type, and the revision-gated bit;
* `decodeChromaticityCoordinates` — bytes 25–34: eight 10-bit coordinates split 2 + 8;
* `decodeEstablishedTimings` — bytes 35–37: one field per set bit;
* `decodeStandardTimings` — bytes 38–53: two 64-bit reads in the decoder's byte order, four
  slots each, through the `timingBlock` closure.

`edidContext` is passed in and returned: `decodeFileHeader` sets `revision`, which
`decodeBasicDisplayParameters` reads.
-/

set_option autoImplicit false

namespace Edid

open D

/-- `edidContext`. -/
structure EdidContext where
  revision : Nat
  contFreq : Bool

/-- `decodeFileHeader`. -/
def decodeFileHeader (ec : EdidContext) : Decode EdidContext := do
  fieldRawLen "identifier" (8 * 8) [assertBitBuf [0x00, 0xff, 0xff, 0xff, 0xff, 0xff, 0xff, 0x00]]
  let _ ← fieldUE "manufacturer_id" 16 .big [manufacturerMapper]
  let _ ← fieldU "manufacturer_product_code" 16 []
  let _ ← fieldU "serial_number" 32 []
  let week ← fieldU "week_of_manufacture" 8 []
  let _ ← if week = 0xff then fieldU "year_of_model" 8 [yearMapper]
    else fieldU "year_of_manufacture" 8 [yearMapper]
  let _ ← fieldU "edid_version" 8 []
  let revision ← fieldU "edid_revision" 8 []
  pure { ec with revision }

/-- `decodeBasicDisplayParameters`. -/
def decodeBasicDisplayParameters (ec : EdidContext) : Decode EdidContext := do
  let inputType ← fieldU "input_type" 1 [uintMapSymStr [(0, "analog"), (1, "digital")]]
  if inputType = 1 then
    let _ ← fieldU "bit_depth" 3 [bitDepthMapper]
    let _ ← fieldU "video_interface" 4 [interfaceMapper]
  else
    let _ ← fieldU "white_sync_leves_relative_to_blank" 2 [uintMapDescription
      [(0, "+0.7/−0.3 V"), (1, "+0.714/−0.286 V"), (2, "+1.0/−0.4 V"), (3, "+0.7/0 V (EVC)")]]
    let _ ← fieldBool "blank_to_black_setup_expected"
    let _ ← fieldBool "separate_sync_supported"
    let _ ← fieldBool "composite_sync_on_hsync_supported"
    let _ ← fieldBool "sync_on_green_supported"
    let _ ← fieldBool "serration_on_vsync_supported"
  let hScreenSize ← fieldU "horizontal_screen_size" 8 [descUintMapper "cm"]
  let vScreenSize ← fieldU "vertical_screen_size" 8 [descUintMapper "cm"]
  if hScreenSize = 0 ∧ vScreenSize = 0 then
    fieldValueStr "aspect_ratio" "undefined"
  else if hScreenSize = 0 then
    fieldValueStr "aspect_ratio" (← orPanic (aspectRatio (100 / (vScreenSize + 99).toFloat)))
  else if vScreenSize = 0 then
    fieldValueStr "aspect_ratio" (← orPanic (aspectRatio ((hScreenSize + 99).toFloat / 100)))
  else
    fieldValueStr "aspect_ratio" (← orPanic (aspectRatio (hScreenSize.toFloat / vScreenSize.toFloat)))
  let _ ← fieldU "gamma" 8 [uintFn fun s => { s with sym := some (.flt (s.actual.toFloat / 100 + 1)) }]
  let _ ← fieldBool "dpms_standby_supported"
  let _ ← fieldBool "dpms_suspend_supported"
  let _ ← fieldBool "dpms_active_off_supported"
  let _ ← if inputType = 1 then
      fieldU "display_type" 2 [uintMapDescription [(0, "RGB 4:4:4"), (1, "RGB 4:4:4 + YCrCb 4:4:4"),
        (2, "RGB 4:4:4 + YCrCb 4:2:2"), (3, "RGB 4:4:4 + YCrCb 4:4:4 + YCrCb 4:2:2")]]
    else
      fieldU "display_type" 2 [uintMapDescription [(0, "Monochrome or Grayscale"), (1, "RGB color"),
        (2, "Non-RGB color"), (3, "undefined")]]
  let _ ← fieldBool "standard_srgb_color_space"
  let _ ← if ec.revision = 3 ∨ ec.revision = 4 then fieldBool "preferred_timing_block_includes_npf_rr"
    else fieldBool "preferred_timing_mode_in_block_1"
  let contFreq ← fieldBool "continuous_frequency_supported"
  pure { ec with contFreq }

/-- A chromaticity coordinate: `(float64(x0) + float64(x1<<2)) / float64(1024)`. -/
def chromaticity (x0 x1 : Nat) : Float := (x0.toFloat + (x1 <<< 2).toFloat) / (1024 : Nat).toFloat

/-- `decodeChromaticityCoordinates`. -/
def decodeChromaticityCoordinates : Decode Unit := do
  let ccStart ← pos
  let redX0 ← u 2
  let redY0 ← u 2
  let greenX0 ← u 2
  let greenY0 ← u 2
  let blueX0 ← u 2
  let blueY0 ← u 2
  let whiteX0 ← u 2
  let whiteY0 ← u 2
  let redX1 ← u 8
  let redY1 ← u 8
  let greenX1 ← u 8
  let greenY1 ← u 8
  let blueX1 ← u 8
  let blueY1 ← u 8
  let whiteX1 ← u 8
  let whiteY1 ← u 8
  let ccLen := (← pos) - ccStart
  fieldValueFltAddr "red_x" (chromaticity redX0 redX1) ccStart ccLen
  fieldValueFltAddr "red_y" (chromaticity redY0 redY1) ccStart ccLen
  fieldValueFltAddr "green_x" (chromaticity greenX0 greenX1) ccStart ccLen
  fieldValueFltAddr "green_y" (chromaticity greenY0 greenY1) ccStart ccLen
  fieldValueFltAddr "blue_x" (chromaticity blueX0 blueX1) ccStart ccLen
  fieldValueFltAddr "blue_y" (chromaticity blueY0 blueY1) ccStart ccLen
  fieldValueFltAddr "white_x" (chromaticity whiteX0 whiteX1) ccStart ccLen
  fieldValueFltAddr "white_y" (chromaticity whiteY0 whiteY1) ccStart ccLen

/-- `decodeEstablishedTimings`. -/
def decodeEstablishedTimings : Decode Unit := do
  let e1Start ← pos
  let establishedTimingsI ← u 8
  let e2Start ← pos
  let establishedTimingsII ← u 8
  let mStart ← pos
  let manufacturerTimings ← u 8
  mapTimings establishedTimingsI e1Start [establishedTimingsIMapper]
  mapTimings establishedTimingsII e2Start [establishedTimingsIIMapper]
  mapTimings manufacturerTimings mStart [manufacturerTimingsMapper]

/-- The `timingBlock` closure of `decodeStandardTimings`: slots `i = 3, 2, 1, 0` of one 64-bit
read, the slot of `blockIdx = 3 - i` attributed to bits `firstBit + 16 * blockIdx`. -/
def timingBlock (block firstBit : Nat) : Decode Unit :=
  [3, 2, 1, 0].forM fun i => do
    let blockIdx := 3 - i
    let fStart := firstBit + blockIdx * 16
    let sStart := fStart + 8
    let first := block >>> ((i <<< 1 + 1) <<< 3) &&& 0xf
    let second := block >>> ((i <<< 1) <<< 3) &&& 0xf
    if first ≠ 1 ∨ second ≠ 1 then
      fieldStruct "timing" do
        fieldValueUintAddr "horizontal_adressable_pixels" first fStart 8
          [horizontalAddressablePixelsMapper]
        let aspect := second >>> 6 &&& 0x3
        fieldValueUintAddr "aspect_ratio" aspect sStart 2
          [uintMapSymStr [(0, "16:10"), (1, "4:3"), (2, "5:4"), (3, "16:9")]]
        let refresh := second &&& 0x3f
        fieldValueUintAddr "refresh_rate" refresh (sStart + 2) 6 [refreshRateMapper]
    else pure ()

/-- `decodeStandardTimings`. -/
def decodeStandardTimings : Decode Unit := do
  let comboStart ← pos
  let timing1to4 ← u 64
  let timing5to8 ← u 64
  timingBlock timing1to4 comboStart
  timingBlock timing5to8 (comboStart + 64)

end Edid
