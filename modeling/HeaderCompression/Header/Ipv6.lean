import HeaderCompression.Header.Layout

namespace HeaderCompression

def ipv6HeaderLength : Nat := 40

def udpHeaderLength : Nat := 8

def udpProtocol : Nat := 17

namespace Ipv6Header

def columns (direction : Direction) (data : List UInt8) : Except Error (List Column) := do
  if data.length < ipv6HeaderLength then throw (.packet (.shortIpv6 data.length))
  let version := (data.getD 0 0).toNat / 16
  if version ≠ 6 then throw (.packet (.ipVersion version))
  let nextHeader := (data.getD 6 0).toNat
  if nextHeader ≠ udpProtocol then throw (.packet (.nextHeader nextHeader))
  return Layout.columns (Layout.ipv6 direction) (data.take ipv6HeaderLength)

/-- The source address begins at bit 64 and the destination at bit 192. -/
def ofColumns (direction : Direction) (columns : List Column) : Except Error (List UInt8) := do
  let place := Layout.place columns
  let header ← place (List.replicate ipv6HeaderLength 0) ⟨0, .ipv6Version⟩
  let header ← place header ⟨4, .ipv6TrafficClass⟩
  let header ← place header ⟨12, .ipv6FlowLabel⟩
  let header ← place header ⟨32, .ipv6PayloadLength⟩
  let header ← place header ⟨48, .ipv6NextHeader⟩
  let header ← place header ⟨56, .ipv6HopLimit⟩
  let (device, app) := match direction with
    | .up => (64, 192)
    | .down => (192, 64)
  let header ← place header ⟨device, .ipv6DevicePrefix⟩
  let header ← place header ⟨device + 64, .ipv6DeviceIid⟩
  let header ← place header ⟨app, .ipv6AppPrefix⟩
  place header ⟨app + 64, .ipv6AppIid⟩

end Ipv6Header

namespace UdpHeader

def columns (direction : Direction) (data : List UInt8) : Except Error (List Column) := do
  if data.length < udpHeaderLength then throw (.packet (.shortUdp data.length))
  return Layout.columns (Layout.udp direction) (data.take udpHeaderLength)

def ofColumns (direction : Direction) (columns : List Column) : Except Error (List UInt8) := do
  let place := Layout.place columns
  let (device, app) := match direction with
    | .up => (0, 16)
    | .down => (16, 0)
  let header ← place (List.replicate udpHeaderLength 0) ⟨device, .udpDevicePort⟩
  let header ← place header ⟨app, .udpAppPort⟩
  let header ← place header ⟨32, .udpLength⟩
  place header ⟨48, .udpChecksum⟩

end UdpHeader

end HeaderCompression
