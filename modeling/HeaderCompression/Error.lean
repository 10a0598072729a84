import HeaderCompression.HeaderField
import HeaderCompression.Json.Fault
import HeaderCompression.RuleCode
import HeaderCompression.Text.Hex
import HeaderCompression.Text.PositionNote

namespace HeaderCompression

inductive MessageFault where
  | shortHeader (length : Nat)
  | version (found : Nat)
  | longToken (length : Nat)
  | truncatedToken
  | truncatedOption
  | largeOptionField
  | reservedNibble
  | largeOptionNumber
  | truncatedValue (number : Nat)
  | emptyPayload
  deriving DecidableEq, Repr

def MessageFault.message : MessageFault → String
  | shortHeader length => s!"{length} bytes is shorter than the header"
  | version found => s!"unsupported version {found}"
  | longToken length => s!"token length {length} exceeds 8"
  | truncatedToken => "truncated token"
  | truncatedOption => "truncated option"
  | largeOptionField => "option field overflow"
  | reservedNibble => "reserved option nibble 15"
  | largeOptionNumber => "option number overflow"
  | truncatedValue number => s!"option {number} value truncated"
  | emptyPayload => "payload marker without payload"

inductive PacketFault where
  | coap (fault : MessageFault)
  | shortIpv6 (length : Nat)
  | ipVersion (found : Nat)
  | nextHeader (found : Nat)
  | shortUdp (length : Nat)
  | shortPacket (length : Nat)
  | largeLength (length : Nat)
  | unnamedOption (number : Nat)
  | wideOption (number length : Nat)
  | shortFrame (length linkHeader : Nat)
  deriving DecidableEq, Repr

def PacketFault.message : PacketFault → String
  | coap fault => "CoAP: " ++ fault.message
  | shortIpv6 length => s!"{length} bytes is too short for IPv6"
  | ipVersion found => s!"IP version {found} is not 6"
  | nextHeader found => s!"next header {found} is not UDP"
  | shortUdp length => s!"{length} bytes is too short for UDP"
  | shortPacket length => s!"{length} bytes is too short for IPv6/UDP"
  | largeLength length => s!"length {length} exceeds 16 bits"
  | unnamedOption number => s!"CoAP option {number} has no field id"
  | wideOption number length => s!"CoAP option {number} is {length} bytes, wider than a field"
  | shortFrame length linkHeader =>
    s!"frame of {length} bytes is shorter than its {linkHeader}-byte link header"

inductive CompressionFault where
  | unmapped (field : HeaderField)
  | lsbWithoutMsb (field : HeaderField)
  | noDeviceAddress
  | foreignInterfaceId
  | longValue (field : HeaderField) (length : Nat)
  | noFragmentBit
  deriving DecidableEq, Repr

def CompressionFault.message : CompressionFault → String
  | unmapped field => field.name ++ " has no mapping entry"
  | lsbWithoutMsb field => field.name ++ " uses LSB without MSB"
  | noDeviceAddress => "DevIID needs the device address"
  | foreignInterfaceId => "interface id differs from the device address"
  | longValue field length => field.name ++ s!" is {length} bytes, too long for a length prefix"
  | noFragmentBit => "only layered rule IDs carry a FRAG bit"

inductive DecompressionFault where
  | empty
  | wideRead (bits : Nat)
  | variableResidue (field : HeaderField)
  | noFixedLength (field : HeaderField)
  | missingField (field : HeaderField)
  | foreignField (field : HeaderField)
  | missingTokenLength
  | tokenLength (announced found : Nat)
  | noDeviceAddress
  | noTarget (field : HeaderField)
  | tokenBeforeLength
  | noMapping (field : HeaderField)
  | mappingIndex (field : HeaderField) (index entries : Nat)
  | lsbWithoutTarget (field : HeaderField)
  deriving DecidableEq, Repr

def DecompressionFault.message : DecompressionFault → String
  | empty => "Empty compressed data"
  | wideRead bits => s!"cannot read {bits} bits into a 64-bit word"
  | variableResidue field => field.name ++ " has no fixed length"
  | noFixedLength field => field.name ++ " needs a fixed length"
  | missingField field => field.name ++ " missing from decompressed fields"
  | foreignField field => field.name ++ " cannot appear in a CoAP header"
  | missingTokenLength => "COAP.TKL missing"
  | tokenLength announced found => s!"TKL {announced} disagrees with a {found}-byte token"
  | noDeviceAddress => "DevIID needs the device address"
  | noTarget field => field.name ++ " has no target value"
  | tokenBeforeLength => "token length needs COAP.TKL first"
  | noMapping field => field.name ++ " has no mapping"
  | mappingIndex field index entries =>
    field.name ++ s!": mapping index {index} out of range ({entries} entries)"
  | lsbWithoutTarget field => field.name ++ " uses LSB without an MSB target value"

/-- Why a field description cannot be executed. Values are kept as the text that shows them. -/
inductive FieldFault where
  | badLength (value : String)
  | otherLength (bits width : Nat)
  | variableHeaderField
  | partialBytes
  | foreignTokenLength
  | unknownDirection (name : String)
  | msbWithoutCount
  | msbWithoutWidth
  | msbTooLong (count bits : Nat)
  | unknownOperator (name : String)
  | unknownAction (name : String)
  | mappingSize (entries : Nat)
  | mappingWithoutList
  | notUnsigned (value : String)
  | badPrefix (text : String)
  | badInterfaceId (text : String)
  | badHex (text : String) (fault : Text.HexFault)
  | unsupportedTarget (value : String)
  | wideTarget (bits : Nat)
  | notSentWithoutTarget
  | mappingSentWithoutMapping
  | lsbWithoutMsb
  | lengthElsewhere
  | checksumElsewhere
  | devIidElsewhere
  | appIidElsewhere
  | operatorWithoutTarget
  | mappingWithoutTarget
  deriving DecidableEq, Repr

def FieldFault.message : FieldFault → String
  | badLength value => s!"bad field length {value}"
  | otherLength bits width => s!"length {bits} differs from the header's {width} bits"
  | variableHeaderField => "header field cannot have a variable length"
  | partialBytes => "option and token lengths must be whole bytes"
  | foreignTokenLength => "only COAP.TOKEN can take its length from TKL"
  | unknownDirection name => "unknown direction " ++ Text.quoted name
  | msbWithoutCount => "MSB requires MO.val"
  | msbWithoutWidth => "MSB requires a fixed field length"
  | msbTooLong count bits => s!"MO.val ({count}) exceeds field length ({bits} bits)"
  | unknownOperator name => "unknown MO " ++ Text.quoted name
  | unknownAction name => "unknown CDA " ++ Text.quoted name
  | mappingSize entries => s!"mapping needs 1 to 256 entries, got {entries}"
  | mappingWithoutList => "match-mapping requires an array TV"
  | notUnsigned value => s!"TV {value} is not an unsigned integer"
  | badPrefix text => "bad prefix " ++ Text.quoted text
  | badInterfaceId text => "bad interface id " ++ Text.quoted text
  | badHex text fault => "bad hex TV " ++ Text.quoted text ++ ": " ++ fault.message
  | unsupportedTarget value => s!"unsupported TV {value}"
  | wideTarget bits => s!"TV does not fit in {bits} bits"
  | notSentWithoutTarget => "not-sent requires a single TV"
  | mappingSentWithoutMapping => "mapping-sent requires match-mapping"
  | lsbWithoutMsb => "LSB requires MSB"
  | lengthElsewhere => "compute-length only applies to length fields"
  | checksumElsewhere => "compute-checksum only applies to UDP.CKSUM"
  | devIidElsewhere => "DevIID only applies to IPV6.DEV_IID"
  | appIidElsewhere => "AppIID only applies to IPV6.APP_IID"
  | operatorWithoutTarget => "equal and MSB require a single TV"
  | mappingWithoutTarget => "match-mapping requires a TV list"

inductive DeviceFault where
  | reservedRuleId (layer : Layer)
  | foreignField (layer : Layer) (rule : Nat) (field : HeaderField)
  | fieldOrder (layer : Layer) (rule : Nat) (direction : Direction)
  | largeRuleId (device : Nat) (layer : Layer) (rule max : Nat)
  | codeLength (device : Nat) (code : RuleCode)
  | uncompressedCodeLength (device : Nat) (code : RuleCode)
  | sharedPrefix (device : Nat) (a b : RuleCode)
  deriving DecidableEq, Repr

def DeviceFault.message : DeviceFault → String
  | reservedRuleId layer => layer.name ++ " rule ID 0 is reserved for uncompressed layers"
  | foreignField layer rule field =>
    layer.name ++ s!" rule {rule} contains " ++ field.layer.name ++ " field " ++ field.name
  | fieldOrder layer rule direction =>
    layer.name ++ s!" rule {rule} does not list every header field in order for " ++
      direction.name
  | largeRuleId device layer rule max =>
    s!"device {device}: " ++ layer.name ++
      s!" rule ID {rule} does not fit the layered rule ID (max {max})"
  | codeLength device code =>
    s!"device {device}: rule {code.id} has invalid RuleIDLength {code.length}"
  | uncompressedCodeLength device code =>
    s!"device {device}: invalid UncompressedRuleIDLength {code.length}"
  | sharedPrefix device a b =>
    s!"device {device}: rule ID " ++ a.text ++ " and rule ID " ++ b.text ++ " share a prefix"

def ruleValidation (text : String) : String :=
  "Rule validation error: " ++ text

inductive Rejection where
  | unknownField (name : String)
  | field (field : HeaderField) (fault : FieldFault)
  deriving DecidableEq, Repr

def Rejection.message : Rejection → String
  | unknownField name => Text.dropPositionNote ("unknown field id: " ++ name)
  | .field name fault => ruleValidation ("Field " ++ name.name ++ ": " ++ fault.message)

inductive Error where
  /-- A file cannot be read; the operating system's words. -/
  | file (text : String)
  | document (fault : Json.Fault Rejection)
  | packet (fault : PacketFault)
  | compression (fault : CompressionFault)
  | decompression (fault : DecompressionFault)
  | smallBuffer (needed capacity : Nat)
  | ruleNotFound (layer : Layer) (rule : Nat)
  | unknownCode
  | unknownDevice (device : Nat)
  | exhausted (needed position remaining : Nat)
  | outOfBounds (start stop length : Nat)
  | wideWord (bits : Nat)
  | lengthMismatch (a b : Nat)
  | appIid
  | device (fault : DeviceFault)
  deriving DecidableEq, Repr

def Json.Fault.message : Json.Fault Rejection → String
  | ended => "unexpected end of text"
  | malformed => "malformed text"
  | mismatch => "value of an unexpected shape"
  | rejected reason => reason.message

def Error.message : Error → String
  | file text => "IO error: " ++ text
  | document fault => "JSON parse error: " ++ fault.message
  | packet fault => "Invalid packet: " ++ fault.message
  | compression fault => "Compression error: " ++ fault.message
  | decompression fault => "Decompression error: " ++ fault.message
  | smallBuffer needed capacity =>
    s!"Compressed packet needs {needed} bytes, buffer holds {capacity}"
  | ruleNotFound layer rule => "No " ++ layer.name ++ s!" rule with ID {rule}"
  | unknownCode => "No matching rule ID found"
  | unknownDevice id => s!"Unknown device {id}"
  | exhausted needed position remaining =>
    s!"Compressed data exhausted: need {needed} bits at position {position}, {remaining} left"
  | outOfBounds start stop length =>
    s!"Bit range {start}..{stop} outside buffer of {length} bits"
  | wideWord bits => s!"Cannot read {bits} bits into a 32-bit word"
  | lengthMismatch a b => s!"Bit arrays differ in length: {a} vs {b}"
  | appIid => "Compression action AppIID is not supported"
  | device fault => ruleValidation fault.message

end HeaderCompression
