import HeaderCompression.Coap.NamedOption
import HeaderCompression.Layer

namespace HeaderCompression

inductive HeaderField where
  | ipv6Version
  | ipv6TrafficClass
  | ipv6FlowLabel
  | ipv6PayloadLength
  | ipv6NextHeader
  | ipv6HopLimit
  | ipv6DevicePrefix
  | ipv6DeviceIid
  | ipv6AppPrefix
  | ipv6AppIid
  | udpDevicePort
  | udpAppPort
  | udpLength
  | udpChecksum
  | coapVersion
  | coapType
  | coapTokenLength
  | coapCode
  | coapMessageId
  | coapToken
  | coapOption (option : NamedOption)
  | coapPayloadMarker
  deriving DecidableEq, Repr

namespace HeaderField

def all : List HeaderField :=
  [ipv6Version, ipv6TrafficClass, ipv6FlowLabel, ipv6PayloadLength, ipv6NextHeader, ipv6HopLimit,
    ipv6DevicePrefix, ipv6DeviceIid, ipv6AppPrefix, ipv6AppIid, udpDevicePort, udpAppPort,
    udpLength, udpChecksum, coapVersion, coapType, coapTokenLength, coapCode, coapMessageId,
    coapToken] ++ NamedOption.all.map coapOption ++ [coapPayloadMarker]

def name : HeaderField → String
  | ipv6Version => "IPV6.VER"
  | ipv6TrafficClass => "IPV6.TC"
  | ipv6FlowLabel => "IPV6.FL"
  | ipv6PayloadLength => "IPV6.LEN"
  | ipv6NextHeader => "IPV6.NXT"
  | ipv6HopLimit => "IPV6.HOP_LMT"
  | ipv6DevicePrefix => "IPV6.DEV_PREFIX"
  | ipv6DeviceIid => "IPV6.DEV_IID"
  | ipv6AppPrefix => "IPV6.APP_PREFIX"
  | ipv6AppIid => "IPV6.APP_IID"
  | udpDevicePort => "UDP.DEV_PORT"
  | udpAppPort => "UDP.APP_PORT"
  | udpLength => "UDP.LEN"
  | udpChecksum => "UDP.CKSUM"
  | coapVersion => "COAP.VER"
  | coapType => "COAP.TYPE"
  | coapTokenLength => "COAP.TKL"
  | coapCode => "COAP.CODE"
  | coapMessageId => "COAP.MID"
  | coapToken => "COAP.TOKEN"
  | coapOption o => "COAP." ++ o.name
  | coapPayloadMarker => "COAP.PAYLOAD_MARKER"

def width? : HeaderField → Option Nat
  | ipv6Version => some 4
  | ipv6TrafficClass => some 8
  | ipv6FlowLabel => some 20
  | ipv6PayloadLength => some 16
  | ipv6NextHeader => some 8
  | ipv6HopLimit => some 8
  | ipv6DevicePrefix => some 64
  | ipv6DeviceIid => some 64
  | ipv6AppPrefix => some 64
  | ipv6AppIid => some 64
  | udpDevicePort => some 16
  | udpAppPort => some 16
  | udpLength => some 16
  | udpChecksum => some 16
  | coapVersion => some 2
  | coapType => some 2
  | coapTokenLength => some 4
  | coapCode => some 8
  | coapMessageId => some 16
  | coapToken => none
  | coapOption _ => none
  | coapPayloadMarker => some 8

def layer : HeaderField → Layer
  | ipv6Version | ipv6TrafficClass | ipv6FlowLabel | ipv6PayloadLength | ipv6NextHeader
  | ipv6HopLimit | ipv6DevicePrefix | ipv6DeviceIid | ipv6AppPrefix | ipv6AppIid => .network
  | udpDevicePort | udpAppPort | udpLength | udpChecksum => .transport
  | coapVersion | coapType | coapTokenLength | coapCode | coapMessageId | coapToken
  | coapOption _ | coapPayloadMarker => .application

def ofName? (name : String) : Option HeaderField :=
  all.find? (·.name == name)

def option? : HeaderField → Option NamedOption
  | coapOption o => some o
  | _ => none

def isAddressPrefix : HeaderField → Bool
  | ipv6DevicePrefix | ipv6AppPrefix => true
  | _ => false

def isInterfaceId : HeaderField → Bool
  | ipv6DeviceIid | ipv6AppIid => true
  | _ => false

theorem mem_all (field : HeaderField) : field ∈ all := by
  cases field with
  | coapOption o => cases o <;> decide
  | _ => decide

theorem ofName?_name (field : HeaderField) : ofName? field.name = some field := by
  cases field with
  | coapOption o => cases o <;> decide +kernel
  | _ => decide +kernel

theorem name_of_ofName? {text : String} {field : HeaderField} (h : ofName? text = some field) :
    field.name = text := by
  have := List.find?_some h
  exact eq_of_beq this

end HeaderField

/-- The fields of a layer of fixed layout, in the order that its columns keep; none for CoAP. -/
def Layer.fieldOrder? : Layer → Option (List HeaderField)
  | .network =>
    some [.ipv6Version, .ipv6TrafficClass, .ipv6FlowLabel, .ipv6PayloadLength, .ipv6NextHeader,
      .ipv6HopLimit, .ipv6DevicePrefix, .ipv6DeviceIid, .ipv6AppPrefix, .ipv6AppIid]
  | .transport => some [.udpDevicePort, .udpAppPort, .udpLength, .udpChecksum]
  | .application => none

end HeaderCompression
