import HeaderCompression.Bits.Tape
import HeaderCompression.Endpoint
import HeaderCompression.Packet.Completion
import HeaderCompression.Rule.Acceptance

namespace HeaderCompression

/-- The low bits of a column that a match of its first `count` bits leaves open. -/
def Column.lowBits (column : Column) (count : Nat) : Except Error (List UInt8) :=
  let width := column.bits - count
  let length := bytesFor width
  if width = 0 then .ok []
  else
    Bits.merge (List.replicate length 0) (8 * length - width) column.value
      (8 * column.value.length - width) width

namespace RuleField

/-- A value in full, behind its length where the length is variable. -/
def valueResidue (f : RuleField) (column : Column) : Except Error (List UInt8) :=
  match f.length with
  | .fixed _ | .token => .ok column.value
  | .variable =>
    let length := column.value.length
    if length < 256 then .ok (UInt8.ofNat length :: column.value)
    else .error (.compression (.longValue f.field length))

def residue (f : RuleField) (endpoint : Endpoint) (column : Column) : Except Error (List UInt8) :=
  match f.action with
  | .notSent | .computeLength | .computeChecksum => .ok []
  | .valueSent => f.valueResidue column
  | .mappingSent =>
    match f.target.list?.bind column.placeIn? with
    | none => .error (.compression (.unmapped f.field))
    | some index => .ok [UInt8.ofNat index]
  | .lsb =>
    match f.operator with
    | .msb count => column.lowBits count
    | _ => .error (.compression (.lsbWithoutMsb f.field))
  | .devIid =>
    match endpoint.interfaceId? with
    | none => .error (.compression .noDeviceAddress)
    | some iid =>
      if column.value = iid then .ok [] else .error (.compression .foreignInterfaceId)
  | .appIid => .error .appIid

def residueLength (f : RuleField) : Except Error Nat :=
  match f.fixedBits? with
  | none => .error (.decompression (.variableResidue f.field))
  | some bits =>
    match f.action, f.operator with
    | .valueSent, _ => .ok (bytesFor bits)
    | .mappingSent, _ => .ok 1
    | .lsb, .msb count => .ok (bytesFor (bits - count))
    | _, _ => .ok 0

end RuleField

/-- What is left of a residue, and what the fields read so far have left to be computed. -/
structure Decoder where
  tape : BitTape
  pending : Packet.Pending
  deriving DecidableEq, Repr

namespace Decoder

def ofBytes (data : List UInt8) (pending : Packet.Pending) : Decoder :=
  ⟨.ofBytes data, pending⟩

def onTape {α : Type} (read : EStateM Error BitTape α) : EStateM Error Decoder α := fun decoder =>
  match read decoder.tape with
  | .ok a tape => .ok a { decoder with tape }
  | .error error tape => .error error { decoder with tape }

def leaveLength (decoder : Decoder) : Decoder :=
  { decoder with pending := { decoder.pending with length := true } }

def leaveChecksum (decoder : Decoder) : Decoder :=
  { decoder with pending := { decoder.pending with checksum := true } }

end Decoder

namespace RuleField

def restoreTarget (f : RuleField) : Except Error Column :=
  match f.target.single? with
  | none => .error (.decompression (.noTarget f.field))
  | some value => .ok (f.columnOf value)

def requireBits (f : RuleField) : Except Error Nat :=
  match f.fixedBits? with
  | none => .error (.decompression (.noFixedLength f.field))
  | some bits => .ok bits

/-- A value in full. The unused bits of its first byte are dropped. -/
def readValue (f : RuleField) (previous : List Column) : EStateM Error BitTape Column := do
  match f.length with
  | .fixed bits =>
    let value ← BitTape.readWhole (bytesFor bits)
    return ⟨f.field, bits, ← ofExcept (Bits.clear value 0 (8 * value.length - bits))⟩
  | .token =>
    match Column.find? previous .coapTokenLength with
    | none => throw (.decompression .tokenBeforeLength)
    | some length => return .ofBytes f.field (← BitTape.readWhole length.toNat)
  | .variable =>
    let length ← BitTape.readByte
    return .ofBytes f.field (← BitTape.readWhole length)

def readMapping (f : RuleField) : EStateM Error BitTape Column := do
  match f.target.list? with
  | none => throw (.decompression (.noMapping f.field))
  | some values =>
    let index ← BitTape.readByte
    match values[index]? with
    | none => throw (.decompression (.mappingIndex f.field index values.length))
    | some value => return f.columnOf value

/-- The target value with its low bits replaced by those that were sent. -/
def readLowBits (f : RuleField) : EStateM Error BitTape Column := do
  match f.operator, f.target.single? with
  | .msb count, some target =>
    let bits ← ofExcept f.requireBits
    let width := bits - count
    let start := 8 * target.length - width
    let cleared ← ofExcept (Bits.clear target start width)
    let received ← BitTape.readWhole (bytesFor width)
    let value ← ofExcept (Bits.merge cleared start received (8 * received.length - width) width)
    return ⟨f.field, bits, value⟩
  | _, _ => throw (.decompression (.lsbWithoutTarget f.field))

def placeholder (f : RuleField) : Except Error Column := do
  let bits ← f.requireBits
  return ⟨f.field, bits, List.replicate (bytesFor bits) 0⟩

def restore (f : RuleField) (endpoint : Endpoint) (previous : List Column) :
    EStateM Error Decoder Column := do
  match f.action with
  | .notSent => ofExcept f.restoreTarget
  | .valueSent => Decoder.onTape (f.readValue previous)
  | .mappingSent => Decoder.onTape f.readMapping
  | .lsb => Decoder.onTape f.readLowBits
  | .computeLength =>
    modify Decoder.leaveLength
    ofExcept f.placeholder
  | .computeChecksum =>
    modify Decoder.leaveChecksum
    ofExcept f.placeholder
  | .devIid =>
    match endpoint.interfaceId? with
    | none => throw (.decompression .noDeviceAddress)
    | some iid => return .ofBytes f.field iid
  | .appIid => throw .appIid

end RuleField

namespace Rule

def residue (rule : Rule) (endpoint : Endpoint) (columns : List Column) :
    Except Error (List UInt8) := do
  let parts ← ((rule.fieldsFor endpoint.direction).zip columns).mapM fun (f, column) =>
    f.residue endpoint column
  return parts.flatten

def residueLength (rule : Rule) (direction : Direction) : Except Error Nat := do
  return (← (rule.fieldsFor direction).mapM (·.residueLength)).foldl (· + ·) 0

/-- The fields in their order, each behind the columns that were restored before it. -/
def restore (rule : Rule) (endpoint : Endpoint) : EStateM Error Decoder (List Column) :=
  (rule.fieldsFor endpoint.direction).foldlM (fun columns f => do
    return columns ++ [← f.restore endpoint columns]) []

end Rule

end HeaderCompression
