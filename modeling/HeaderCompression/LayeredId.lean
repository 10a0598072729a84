import HeaderCompression.Layer

namespace HeaderCompression

/-- The ids of the layers in one byte: from the lowest bits on, two for IPv6, two for UDP and three
for CoAP, with the fragment bit on top. A layer of id 0 travels as it is. -/
structure LayeredId where
  fragmented : Bool
  network : UInt8
  transport : UInt8
  application : UInt8
  deriving DecidableEq, Repr

def Layer.maxLayeredId : Layer → Nat
  | .network => 3
  | .transport => 3
  | .application => 7

namespace LayeredId

def layer (id : LayeredId) : Layer → UInt8
  | .network => id.network
  | .transport => id.transport
  | .application => id.application

/-- Ids that do not fit their place lose their upper bits. -/
def toByte (id : LayeredId) : UInt8 :=
  UInt8.ofNat (128 * id.fragmented.toNat + 16 * (id.application.toNat % 8) +
    4 * (id.transport.toNat % 4) + id.network.toNat % 4)

def ofByte (byte : UInt8) : LayeredId where
  fragmented := byte.toNat / 128 == 1
  network := UInt8.ofNat (byte.toNat % 4)
  transport := UInt8.ofNat (byte.toNat / 4 % 4)
  application := UInt8.ofNat (byte.toNat / 16 % 8)

def markByte (fragmented : Bool) (byte : UInt8) : UInt8 :=
  UInt8.ofNat (128 * fragmented.toNat + byte.toNat % 128)

end LayeredId

end HeaderCompression
