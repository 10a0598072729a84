import HeaderCompression.Header.Ipv6

namespace HeaderCompression.Packet

structure Pending where
  length : Bool
  checksum : Bool
  deriving DecidableEq, Repr

def Pending.none : Pending := ⟨false, false⟩

/-- The sum of a byte string's 16-bit words; a last single byte counts as the upper half of one. -/
def wordSum (sum : Nat) : List UInt8 → Nat
  | high :: low :: rest => wordSum (sum + (256 * high.toNat + low.toNat)) rest
  | [high] => sum + 256 * high.toNat
  | [] => sum

/-- Adds what a sum carries over 16 bits to its lower half, until nothing is carried. -/
def foldCarries (sum : Nat) : Nat :=
  if sum < 65536 then sum else foldCarries (sum % 65536 + sum / 65536)
termination_by sum
decreasing_by omega

/-- The one's complement of a sum of words, which is kept in 32 bits. Zero is sent as its other
form, all ones. -/
def checksumOfSum (sum : Nat) : Nat :=
  let complement := 65535 - foldCarries (sum % UInt32.size)
  if complement = 0 then 65535 else complement

/-- The checksum of a datagram, whose own checksum field does not count. The pseudo header has the
addresses from bytes 8 to 40 of the IPv6 header, the length and the protocol. -/
def udpChecksum (ipHeader : List UInt8) (length : Nat) (datagram : List UInt8) : Nat :=
  let addresses := wordSum 0 ((ipHeader.take ipv6HeaderLength).drop 8)
  let start := wordSum (addresses + length + udpProtocol) (datagram.take 6)
  checksumOfSum (wordSum start (datagram.drop 8))

/-- Writes a 16-bit number over the bytes at `position` if both of them are zero. -/
def fillWord (position n : Nat) (packet : List UInt8) : List UInt8 :=
  if (packet.drop position).take 2 = [0, 0] then
    packet.take position ++ bytesOfNat 2 n ++ packet.drop (position + 2)
  else packet

def requireHeaders (packet : List UInt8) : Except Error Unit :=
  if packet.length < ipv6HeaderLength + udpHeaderLength then
    .error (.packet (.shortPacket packet.length))
  else .ok ()

def payloadLength (packet : List UInt8) : Except Error Nat :=
  let length := packet.length - ipv6HeaderLength
  if length < 65536 then .ok length else .error (.packet (.largeLength length))

def completeLength : EStateM Error (List UInt8) Unit := do
  let packet ← get
  ofExcept (requireHeaders packet)
  let length ← ofExcept (payloadLength packet)
  set (fillWord 44 length (fillWord 4 length packet))

def completeChecksum : EStateM Error (List UInt8) Unit := do
  let packet ← get
  ofExcept (requireHeaders packet)
  if (packet.drop 46).take 2 = [0, 0] then
    let length ← ofExcept (payloadLength packet)
    set (fillWord 46
      (udpChecksum (packet.take ipv6HeaderLength) length (packet.drop ipv6HeaderLength)) packet)

def complete (pending : Pending) : EStateM Error (List UInt8) Unit := do
  if pending.length then completeLength
  if pending.checksum then completeChecksum

end HeaderCompression.Packet
