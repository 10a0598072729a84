import HeaderCompression.Rule.Device

namespace HeaderCompression

inductive CodeMatch where
  | uncompressed
  | composite (rule : CompositeRule)
  deriving DecidableEq, Repr

namespace Device

/-- All codes of the device, the one for uncompressed packets last. -/
def codes (device : Device) : List RuleCode :=
  device.composites.map (·.code) ++ [device.uncompressed]

/-- What codes can stand for, the longest codes first. Of codes of one length, the composite rules
come in their order and the code of uncompressed packets comes last. -/
def codeMatches (device : Device) : List (RuleCode × CodeMatch) :=
  let rules := device.composites.mergeSort fun a b => b.code.length ≤ a.code.length
  let (front, back) := rules.span fun rule => device.uncompressed.length ≤ rule.code.length
  let candidate (rule : CompositeRule) := (rule.code, CodeMatch.composite rule)
  front.map candidate ++ (device.uncompressed, .uncompressed) :: back.map candidate

def matchCode (device : Device) (data : List UInt8) : Except Error CodeMatch :=
  if data.isEmpty then .error (.decompression .empty)
  else
    let bits := bitsOfBytes (data.take 8)
    match device.codeMatches.find? fun (code, _) => code.leads bits with
    | none => .error .unknownCode
    | some (_, result) => .ok result

end Device

end HeaderCompression
