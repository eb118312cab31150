import Edid.Cea861
import Edid.DisplayID

/-!
# `decodeEDID`

The root decoder of `edid.go`. It switches to little endian, decodes the five framed sections
of the base record (20 + 5 + 10 + 3 + 16 bytes), the four descriptor slots (4 × 18 bytes), the
extension count at byte 126 and the checksum at byte 127, then one 128-byte framed window per
extension. Each window is offered to the registered extension formats
(`edidExtensionGroup`: CEA-861 and DisplayID, each asserting its own tag); a window no format
completes on is captured as the raw field `unknown_extension`.

`decodeEDID` is `decodeBaseRecord` (up to and including the base checksum, returning the
extension count) followed by the extension loop `rep extensionWindow`; `baseRecordSections` is
the part before the extension count, and `descriptorSlots` its four slots.
-/

set_option autoImplicit false

namespace Edid

open D

/-- The registered `EDID_Extension` group: the formats of `edid_ext_cea861.go` and of the
DisplayID extension, known by their descriptions. -/
def edidExtensionGroup : List Format :=
  [⟨"EDID CEA-861 Series Timing Extension", decodeCEAExtension⟩,
   ⟨"EDID DisplayID Extension", decodeDisplayIDExtension⟩]

/-- The four descriptor slots of the base record (bytes 54–125), as `decodeEDID` decodes them
inside the struct `detailed_timings`. -/
def descriptorSlots : Decode Unit := do
  detailedDescriptor "preferred_timing_mode" 1
  detailedDescriptor "detailed_timing_descriptor" 2
  detailedDescriptor "detailed_timing_descriptor" 3
  detailedDescriptor "detailed_timing_descriptor" 4

/-- The five framed sections and the four descriptor slots of the base record: its first
126 bytes. -/
def baseRecordSections : Decode Unit := do
  let ec ← framedFn (20 * 8) (fieldStruct "header" (decodeFileHeader ⟨0, false⟩))
  let _ ← framedFn (5 * 8) (fieldStruct "basic_display_parameters" (decodeBasicDisplayParameters ec))
  framedFn (10 * 8) (fieldStruct "chromaticity_coordinates" decodeChromaticityCoordinates)
  framedFn (3 * 8) (fieldArray "established_timings" decodeEstablishedTimings)
  framedFn (16 * 8) (fieldArray "standard_timings" decodeStandardTimings)
  fieldStruct "detailed_timings" descriptorSlots

/-- `decodeEDID` up to the base record's checksum; returns `extension_count`. -/
def decodeBaseRecord : Decode Nat := do
  setEndian .little
  baseRecordSections
  let ext ← fieldU "extension_count" 8 []
  fieldChecksum 0 127
  pure ext

/-- One iteration of the extension loop of `decodeEDID`: a 128-byte frame. -/
def extensionWindow : Decode Unit := framedFn (128 * 8) do
  let found ← tryFieldFormat "extension" edidExtensionGroup
  if !found then fieldRawLen "unknown_extension" (128 * 8) []

/-- `decodeEDID`. -/
def decodeEDID : Decode Unit := do
  let ext ← decodeBaseRecord
  if ext > 0 then fieldArray "extensions" (rep extensionWindow ext)

/-- The root decoder's view of an input buffer and its initial cursor (position 0, the host's
default big endian). -/
def root (buf : List UInt8) : Frame := ⟨buf, 8 * buf.length⟩

@[simp] theorem root_buf (buf : List UInt8) : (root buf).buf = buf := rfl

@[simp] theorem root_limit (buf : List UInt8) : (root buf).limit = 8 * buf.length := rfl

/-- The cursor a root decoder starts with. -/
def start : Cursor := ⟨0, .big⟩

end Edid
