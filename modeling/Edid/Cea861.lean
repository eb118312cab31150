import Edid.Descriptor

/-!
# The CEA-861 extension

`decodeCEAExtension` of `edid_ext_cea861.go`: a tag asserted to be `0x02`, the revision and
the offset of the detailed timing descriptors, padding up to that offset, two descriptor slots
decoded by `DetailedDescriptor`, the data up to byte 127 and the window checksum. It runs as a
root decoder on its 128-byte window, so in the host's default byte order.
-/

set_option autoImplicit false

namespace Edid

open D

/-- `decodeCEAExtension`. -/
def decodeCEAExtension : Decode Unit := do
  let _ ← fieldU "tag" 8 [uintHex, uintAssert 0x02]
  let _ ← fieldU "revision" 8 []
  let offset ← fieldU "offset" 8 []
  let _ ← fieldU "reserved" 8 []
  fieldRawLen "padding" (((offset : Int) - 4) * 8) []
  detailedDescriptor "third_timing_descriptor" 1
  detailedDescriptor "fourth_timing_descriptor" 1
  fieldRawLen "data" ((123 - 32 - (offset : Int)) * 8) []
  fieldChecksum 0 127

end Edid
