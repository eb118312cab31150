import Edid.Bits
import Edid.Scalar
import Edid.Decoder
import Edid.Framing
import Edid.Mappers
import Edid.ChildNames
import Edid.BaseRecord
import Edid.Descriptor
import Edid.TimingDescriptor
import Edid.Cea861
import Edid.DisplayID
import Edid.DecodeEDID
import Edid.BaseRecordRun
import Edid.StandardTimings
import Edid.ExtensionLoop
import Edid.DisplayIDSection
import Edid.AspectRatio
import Edid.TypeITimingRun
import Edid.Completes
import Edid.Acceptance
import Edid.ExtensionAcceptance
import Edid.BaseRecordFields
import Edid.BasicDisplayParameters
import Edid.DescriptorFields
import Edid.Failures
