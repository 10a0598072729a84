import HeaderCompression.LayeredId
import HeaderCompression.Rule.Codebook

namespace HeaderCompression

/-- A code that is narrower than its id, which is written without its upper bits. -/
structure Warning where
  device : Nat
  code : RuleCode
  deriving DecidableEq, Repr

def Warning.message : String :=
  "rule ID exceeds its bit width and will be truncated"

inductive Finding where
  | warning (warning : Warning)
  | fault (fault : Error)
  deriving DecidableEq, Repr

def Finding.warning? : Finding → Option Warning
  | warning w => some w
  | fault _ => none

def Finding.fault? : Finding → Option Error
  | warning _ => none
  | fault e => some e

def Finding.faultIf (condition : Bool) (fault : DeviceFault) : List Finding :=
  if condition then [.fault (.device fault)] else []

/-- The rule's own id, its fields' layer, and their order where the layout is fixed. -/
def Rule.findings (rule : Rule) (layer : Layer) : List Finding :=
  Finding.faultIf (rule.id = 0) (.reservedRuleId layer) ++
    ((rule.fields.find? (·.field.layer ≠ layer)).map fun f =>
      Finding.fault (.device (.foreignField layer rule.id f.field))).toList ++
    match layer.fieldOrder? with
    | none => []
    | some order =>
      Direction.all.flatMap fun direction =>
        Finding.faultIf ((rule.fieldsFor direction).map (·.field) ≠ order)
          (.fieldOrder layer rule.id direction)

namespace Device

/-- The findings on a layer's rules; in layered mode their ids have to fit the layered id. -/
def layerFindings (device : Device) (layer : Layer) : List Finding :=
  (device.rules layer).flatMap (·.findings layer) ++
    match device.mode with
    | .composite => []
    | .layered =>
      ((device.rules layer).filter (·.id > layer.maxLayeredId)).map fun rule =>
        .fault (.device (.largeRuleId device.id layer rule.id layer.maxLayeredId))

def isCodeLength (length : Nat) : Bool :=
  0 < length && length ≤ 32

def warningIfTruncated (device : Device) (code : RuleCode) : List Finding :=
  if code.id > code.maxId then [.warning ⟨device.id, code⟩] else []

def compositeFindings (device : Device) (composite : CompositeRule) : List Finding :=
  Finding.faultIf (!isCodeLength composite.code.length) (.codeLength device.id composite.code) ++
    device.warningIfTruncated composite.code ++
    Layer.all.filterMap fun layer =>
      match composite.selection.layer? layer with
      | none => none
      | some id =>
        match device.rule layer id with
        | .ok _ => none
        | .error error => some (.fault error)

def overlapFindings (device : Device) : List RuleCode → List Finding
  | [] => []
  | code :: codes =>
    (codes.filter code.overlaps).map (fun other =>
      .fault (.device (.sharedPrefix device.id code other))) ++ device.overlapFindings codes

def findings (device : Device) : List Finding :=
  Layer.all.flatMap device.layerFindings ++
    device.composites.flatMap device.compositeFindings ++
    match device.mode with
    | .layered => []
    | .composite =>
      Finding.faultIf (!isCodeLength device.uncompressed.length)
          (.uncompressedCodeLength device.id device.uncompressed) ++
        device.warningIfTruncated device.uncompressed ++
        device.overlapFindings device.codes

end Device

structure RuleSet where
  devices : List Device
  deriving DecidableEq, Repr

namespace RuleSet

def findings (set : RuleSet) : List Finding :=
  set.devices.flatMap (·.findings)

/-- The warnings in front of the first fault. -/
def warnings (set : RuleSet) : List Warning :=
  (set.findings.takeWhile (·.fault?.isNone)).filterMap (·.warning?)

def check (set : RuleSet) : Except Error Unit :=
  match set.findings.findSome? (·.fault?) with
  | none => .ok ()
  | some error => .error error

def device (set : RuleSet) (id : Nat) : Except Error Device :=
  match set.devices.find? (·.id == id) with
  | none => .error (.unknownDevice id)
  | some device => .ok device

end RuleSet

end HeaderCompression
