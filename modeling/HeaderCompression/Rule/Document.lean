import HeaderCompression.Json.Record
import HeaderCompression.Rule.Description
import HeaderCompression.Rule.Validation

namespace HeaderCompression

namespace Document

open Json (Reader Member RecordShape)

abbrev RuleReader := Reader Rejection

def id : RuleReader Nat :=
  Reader.naturalBelow UInt32.size

def count : RuleReader Nat :=
  Reader.naturalBelow UInt8.size

def headerField : RuleReader HeaderField := do
  let name ← Reader.string
  match HeaderField.ofName? name with
  | none => throw (.rejected (.unknownField name))
  | some field => return field

def address : RuleReader Ipv6Address := do
  match Ipv6Address.ofString? (← Reader.string) with
  | none => throw .mismatch
  | some address => return address

structure FieldDraft where
  field : Option HeaderField := none
  length : Option (Option Json) := none
  direction : Option (Option String) := none
  target : Option (Option Json) := none
  operator : Option String := none
  operatorCount : Option (Option Nat) := none
  action : Option String := none

def fieldShape : RecordShape Rejection FieldDraft FieldDescription where
  blank := {}
  members := [
    ⟨"FID", (·.field.isSome), fun _ d => return { d with field := some (← headerField) }⟩,
    ⟨"FL", (·.length.isSome), fun room d =>
      return { d with length := some (← Reader.optional (Reader.value room)) }⟩,
    ⟨"DI", (·.direction.isSome), fun _ d =>
      return { d with direction := some (← Reader.optional Reader.string) }⟩,
    ⟨"TV", (·.target.isSome), fun room d =>
      return { d with target := some (← Reader.optional (Reader.value room)) }⟩,
    ⟨"MO", (·.operator.isSome), fun _ d => return { d with operator := some (← Reader.string) }⟩,
    ⟨"MO.val", (·.operatorCount.isSome), fun _ d =>
      return { d with operatorCount := some (← Reader.optional count) }⟩,
    ⟨"CDA", (·.action.isSome), fun _ d => return { d with action := some (← Reader.string) }⟩]
  leading := 7
  finish? d := do
    return {
      field := ← d.field
      length? := d.length.join
      direction? := d.direction.join
      target? := d.target.join
      operator := ← d.operator
      operatorCount? := d.operatorCount.join
      action := ← d.action }

def field (room : Nat) : RuleReader RuleField := do
  let description ← Reader.record room fieldShape
  match description.toField with
  | .error fault => throw (.rejected (.field description.field fault))
  | .ok f => return f

structure RuleDraft where
  id : Option Nat := none
  comment : Option (Option String) := none
  fields : Option (List RuleField) := none

def ruleShape : RecordShape Rejection RuleDraft Rule where
  blank := {}
  members := [
    ⟨"RuleID", (·.id.isSome), fun _ d => return { d with id := some (← Document.id) }⟩,
    ⟨"Comment", (·.comment.isSome), fun _ d =>
      return { d with comment := some (← Reader.optional Reader.string) }⟩,
    ⟨"Fields", (·.fields.isSome), fun room d =>
      return { d with fields := some (← Reader.list room field) }⟩]
  leading := 3
  finish? d := do
    return { id := ← d.id, comment? := d.comment.join, fields := ← d.fields }

def rule (room : Nat) : RuleReader Rule :=
  Reader.record room ruleShape

structure CompositeDraft where
  id : Option Nat := none
  length : Option Nat := none
  comment : Option (Option String) := none
  ipv6 : Option (Option Nat) := none
  udp : Option (Option Nat) := none
  coap : Option (Option Nat) := none

def defaultCodeLength : Nat := 8

def compositeShape : RecordShape Rejection CompositeDraft CompositeRule where
  blank := {}
  members := [
    ⟨"RuleID", (·.id.isSome), fun _ d => return { d with id := some (← Document.id) }⟩,
    ⟨"RuleIDLength", (·.length.isSome), fun _ d => return { d with length := some (← count) }⟩,
    ⟨"Comment", (·.comment.isSome), fun _ d =>
      return { d with comment := some (← Reader.optional Reader.string) }⟩,
    ⟨"IPv6", (·.ipv6.isSome), fun _ d =>
      return { d with ipv6 := some (← Reader.optional Document.id) }⟩,
    ⟨"UDP", (·.udp.isSome), fun _ d =>
      return { d with udp := some (← Reader.optional Document.id) }⟩,
    ⟨"CoAP", (·.coap.isSome), fun _ d =>
      return { d with coap := some (← Reader.optional Document.id) }⟩]
  leading := 1
  finish? d := do
    return {
      code := ⟨← d.id, d.length.getD defaultCodeLength⟩
      comment? := d.comment.join
      selection := ⟨d.ipv6.join, d.udp.join, d.coap.join⟩ }

def composite (room : Nat) : RuleReader CompositeRule :=
  Reader.record room compositeShape

def idMode? : String → Option IdMode
  | "layered" => some .layered
  | "composite" => some .composite
  | _ => none

structure DeviceDraft where
  id : Option Nat := none
  mode : Option IdMode := none
  uncompressedId : Option Nat := none
  uncompressedLength : Option Nat := none
  address : Option (Option Ipv6Address) := none
  ipv6Rules : Option (List Rule) := none
  udpRules : Option (List Rule) := none
  coapRules : Option (List Rule) := none
  composites : Option (List CompositeRule) := none

def deviceShape : RecordShape Rejection DeviceDraft Device where
  blank := {}
  members := [
    ⟨"DeviceID", (·.id.isSome), fun _ d => return { d with id := some (← Document.id) }⟩,
    ⟨"RuleIDMode", (·.mode.isSome), fun room d =>
      return { d with mode := some (← Reader.choice room idMode?) }⟩,
    ⟨"UncompressedRuleID", (·.uncompressedId.isSome), fun _ d =>
      return { d with uncompressedId := some (← Document.id) }⟩,
    ⟨"UncompressedRuleIDLength", (·.uncompressedLength.isSome), fun _ d =>
      return { d with uncompressedLength := some (← count) }⟩,
    ⟨"DeviceAddress", (·.address.isSome), fun _ d =>
      return { d with address := some (← Reader.optional Document.address) }⟩,
    ⟨"IPv6Rules", (·.ipv6Rules.isSome), fun room d =>
      return { d with ipv6Rules := some (← Reader.list room rule) }⟩,
    ⟨"UDPRules", (·.udpRules.isSome), fun room d =>
      return { d with udpRules := some (← Reader.list room rule) }⟩,
    ⟨"CoAPRules", (·.coapRules.isSome), fun room d =>
      return { d with coapRules := some (← Reader.list room rule) }⟩,
    ⟨"CompressionRules", (·.composites.isSome), fun room d =>
      return { d with composites := some (← Reader.list room composite) }⟩]
  leading := 1
  finish? d := do
    return {
      id := ← d.id
      mode := d.mode.getD .layered
      uncompressed := ⟨d.uncompressedId.getD 0, d.uncompressedLength.getD defaultCodeLength⟩
      address? := d.address.join
      ipv6Rules := d.ipv6Rules.getD []
      udpRules := d.udpRules.getD []
      coapRules := d.coapRules.getD []
      composites := d.composites.getD [] }

def device (room : Nat) : RuleReader Device :=
  Reader.record room deviceShape

structure RuleSetDraft where
  devices : Option (List Device) := none

def ruleSetShape : RecordShape Rejection RuleSetDraft RuleSet where
  blank := {}
  members := [
    ⟨"Devices", (·.devices.isSome), fun room d =>
      return { d with devices := some (← Reader.list room device) }⟩]
  leading := 1
  finish? d := do
    return { devices := ← d.devices }

def ruleSet (room : Nat) : RuleReader RuleSet :=
  Reader.record room ruleSetShape

def maxDepth : Nat := 127

def read {α : Type} (reader : Nat → RuleReader α) (text : String) : Except Error α :=
  (Reader.document (reader maxDepth) text).mapError .document

end Document

def RuleField.ofText (text : String) : Except Error RuleField :=
  Document.read Document.field text

def Rule.ofText (text : String) : Except Error Rule :=
  Document.read Document.rule text

namespace RuleSet

/-- A rule set with the warnings that came up while it was checked. -/
structure Loading where
  warnings : List Warning
  result : Except Error RuleSet

/-- A field is checked as soon as its text has been read, and the devices once all has been read. -/
def load (text : String) : Loading :=
  match Document.read Document.ruleSet text with
  | .error error => ⟨[], .error error⟩
  | .ok set =>
    ⟨set.warnings,
      match set.check with
      | .error error => .error error
      | .ok () => .ok set⟩

def ofText (text : String) : Except Error RuleSet :=
  (load text).result

def loadFile (content : Except String (List UInt8)) : Loading :=
  match content with
  | .error reason => ⟨[], .error (.file reason)⟩
  | .ok bytes =>
    match String.fromUTF8? (ByteArray.mk bytes.toArray) with
    | none => ⟨[], .error (.file "stream did not contain valid UTF-8")⟩
    | some text => load text

end RuleSet

end HeaderCompression
