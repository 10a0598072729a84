import HeaderCompression.LayeredId
import HeaderCompression.Rule.Codebook
import HeaderCompression.Rule.Residue

namespace HeaderCompression

def partAt (body : List UInt8) (start length : Nat) : Except Error (List UInt8) :=
  if start + length ≤ body.length then .ok ((body.drop start).take length)
  else .error (.exhausted (8 * length) (8 * start) (8 * (body.length - start)))

def partLength (rule? : Option Rule) (direction : Direction) (verbatim : Nat) :
    Except Error Nat :=
  match rule? with
  | none => .ok verbatim
  | some rule => rule.residueLength direction

def restoreColumns (rule : Rule) (endpoint : Endpoint) (data : List UInt8)
    (pending : Packet.Pending) : Except Error (List Column × Decoder) :=
  match rule.restore endpoint (.ofBytes data pending) with
  | .ok columns decoder => .ok (columns, decoder)
  | .error error _ => .error error

def restoreHeader (layer : Layer) (rule? : Option Rule) (endpoint : Endpoint)
    (data : List UInt8) (pending : Packet.Pending) :
    Except Error (List UInt8 × Packet.Pending) :=
  match rule? with
  | none => .ok (data, pending)
  | some rule => do
    let (columns, decoder) ← restoreColumns rule endpoint data pending
    return (← layer.header endpoint.direction columns, decoder.pending)

def restoreMessage (rule? : Option Rule) (endpoint : Endpoint) (data : List UInt8)
    (pending : Packet.Pending) : Except Error (List UInt8 × Packet.Pending) :=
  match rule? with
  | none => .ok (data, pending)
  | some rule => do
    let (columns, decoder) ← restoreColumns rule endpoint data pending
    let header ← CoapHeader.ofColumns columns
    return (header ++ data.drop decoder.tape.byteHead, decoder.pending)

def restorePacket (device : Device) (endpoint : Endpoint) (selection : Selection)
    (body : List UInt8) : Except Error (List UInt8) := do
  let ipv6Rule ← selection.network?.mapM (device.rule .network)
  let udpRule ← selection.transport?.mapM (device.rule .transport)
  let coapRule ← selection.application?.mapM (device.rule .application)
  let ipv6Length ← partLength ipv6Rule endpoint.direction ipv6HeaderLength
  let udpLength ← partLength udpRule endpoint.direction udpHeaderLength
  let ipv6Part ← partAt body 0 ipv6Length
  let udpPart ← partAt body ipv6Length udpLength
  let coapPart := body.drop (ipv6Length + udpLength)
  let (coap, pending) ← restoreMessage coapRule endpoint coapPart .none
  let (udp, pending) ← restoreHeader .transport udpRule endpoint udpPart pending
  let (ipv6, pending) ← restoreHeader .network ipv6Rule endpoint ipv6Part pending
  match Packet.complete pending (ipv6 ++ udp ++ coap) with
  | .ok () packet => return packet
  | .error error _ => throw error

structure RestoredPacket where
  data : List UInt8
  code : RuleCode
  layered? : Option LayeredId
  deriving DecidableEq, Repr

/-- The rules that a layered id names; 0 names none. -/
def LayeredId.selection (id : LayeredId) : Selection :=
  let rule? (n : UInt8) : Option Nat := if n = 0 then none else some n.toNat
  ⟨rule? id.network, rule? id.transport, rule? id.application⟩

def RuleCode.byteCount (code : RuleCode) : Nat :=
  bytesFor code.length

def decompress (device : Device) (endpoint : Endpoint) (data : List UInt8) :
    Except Error RestoredPacket :=
  match device.mode with
  | .layered =>
    match data with
    | [] => .error (.decompression .empty)
    | first :: body => do
      let id := LayeredId.ofByte first
      return ⟨← restorePacket device endpoint id.selection body, ⟨first.toNat, 8⟩, some id⟩
  | .composite => do
    match ← device.matchCode data with
    | .uncompressed =>
      return ⟨data.drop device.uncompressed.byteCount, device.uncompressed, none⟩
    | .composite rule =>
      let body := data.drop rule.code.byteCount
      return ⟨← restorePacket device endpoint rule.selection body, rule.code, none⟩

end HeaderCompression
