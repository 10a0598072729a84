import HeaderCompression.LayeredId
import HeaderCompression.Rule.Residue

namespace HeaderCompression

structure SentLayer where
  /-- The rule that the layer is sent under; none if it is sent as it is. -/
  rule? : Option Nat
  bytes : List UInt8
  /-- How many bytes of the layer these bytes stand for. -/
  consumed : Nat
  deriving DecidableEq, Repr

namespace SentLayer

def verbatim (data : List UInt8) : SentLayer :=
  ⟨none, data, data.length⟩

/-- Sends a layer under the first rule that accepts it. For CoAP, the data is the whole message and
what is sent stands for its header. -/
def ofData (device : Device) (layer : Layer) (data : List UInt8) (endpoint : Endpoint) :
    SentLayer × Endpoint :=
  let (length, endpoint) := endpoint.load layer data
  let sent :=
    match length with
    | .error _ => verbatim data
    | .ok length =>
      match Rule.select? (device.rules layer) endpoint.columns endpoint.direction with
      | none => verbatim data
      | some rule =>
        match rule.residue endpoint endpoint.columns with
        | .error _ => verbatim data
        | .ok bytes => ⟨some rule.id, bytes, length⟩
  (sent, endpoint)

end SentLayer

structure HeaderSizes where
  originalBits : Nat
  compressedBits : Nat
  deriving DecidableEq, Repr

namespace HeaderSizes

/-- The saving as a signed 64-bit number: sizes that are 2 ^ 64 apart save the same. -/
def savedBits (sizes : HeaderSizes) : Int :=
  ((sizes.originalBits : Int) - sizes.compressedBits).bmod UInt64.size

def savedBytes (sizes : HeaderSizes) : Float :=
  Float.ofInt sizes.savedBits / 8

end HeaderSizes

structure CompressedPacket where
  data : List UInt8
  code : RuleCode
  layered? : Option LayeredId
  sizes : HeaderSizes
  deriving DecidableEq, Repr

namespace CompressedPacket

def ofData (packet data : List UInt8) (code : RuleCode) (layered? : Option LayeredId)
    (payload : Nat) : CompressedPacket :=
  ⟨data, code, layered?, ⟨8 * (packet.length - payload), 8 * (data.length - payload)⟩⟩

def withFragmentBit (fragmented : Bool) (packet : CompressedPacket) :
    Except Error CompressedPacket :=
  match packet.layered?, packet.data with
  | some id, first :: rest =>
    .ok { packet with
      layered? := some { id with fragmented }
      data := LayeredId.markByte fragmented first :: rest }
  | _, _ => .error (.compression .noFragmentBit)

end CompressedPacket

def Endpoint.accept (endpoint : Endpoint) (packet : CompressedPacket) :
    Except Error CompressedPacket :=
  match endpoint.capacity? with
  | none => .ok packet
  | some capacity =>
    if packet.data.length > capacity then .error (.smallBuffer packet.data.length capacity)
    else .ok packet

def assemble (device : Device) (packet : List UInt8) (ipv6 udp coap : SentLayer)
    (payload : List UInt8) : CompressedPacket :=
  let body := ipv6.bytes ++ udp.bytes ++ coap.bytes ++ payload
  match device.mode with
  | .layered =>
    let id : LayeredId := ⟨false, UInt8.ofNat (ipv6.rule?.getD 0), UInt8.ofNat (udp.rule?.getD 0),
      UInt8.ofNat (coap.rule?.getD 0)⟩
    .ofData packet (id.toByte :: body) ⟨id.toByte.toNat, 8⟩ (some id) payload.length
  | .composite =>
    match device.compositeWith? ⟨ipv6.rule?, udp.rule?, coap.rule?⟩ with
    | some composite =>
      .ofData packet (composite.code.bytes ++ body) composite.code none payload.length
    | none => .ofData packet (device.uncompressed.bytes ++ packet) device.uncompressed none 0

/-- The rule id, the layers in their order and the payload. -/
def compress (device : Device) (packet : List UInt8) (endpoint : Endpoint) :
    Except Error CompressedPacket × Endpoint :=
  if packet.length < ipv6HeaderLength + udpHeaderLength then
    (.error (.packet (.shortPacket packet.length)), endpoint)
  else
    let (ip, rest) := packet.splitAt ipv6HeaderLength
    let (udp, coap) := rest.splitAt udpHeaderLength
    let (ipv6Layer, endpoint) := SentLayer.ofData device .network ip endpoint
    let (udpLayer, endpoint) := SentLayer.ofData device .transport udp endpoint
    let (coapLayer, endpoint) := SentLayer.ofData device .application coap endpoint
    let payload := coap.drop coapLayer.consumed
    (endpoint.accept (assemble device packet ipv6Layer udpLayer coapLayer payload), endpoint)

end HeaderCompression
