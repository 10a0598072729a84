import HeaderCompression.Address
import HeaderCompression.Rule.Field

namespace HeaderCompression

structure Rule where
  id : Nat
  comment? : Option String
  fields : List RuleField
  deriving DecidableEq, Repr

def Rule.fieldsFor (rule : Rule) (direction : Direction) : List RuleField :=
  rule.fields.filter (·.appliesTo direction)

/-- The rule of each layer, none for a layer that travels as it is. -/
structure Selection where
  network? : Option Nat
  transport? : Option Nat
  application? : Option Nat
  deriving DecidableEq, Repr

def Selection.layer? (selection : Selection) : Layer → Option Nat
  | .network => selection.network?
  | .transport => selection.transport?
  | .application => selection.application?

structure CompositeRule where
  code : RuleCode
  comment? : Option String
  selection : Selection
  deriving DecidableEq, Repr

inductive IdMode where
  /-- One byte with an id for each layer. -/
  | layered
  /-- The code of a composite rule. -/
  | composite
  deriving DecidableEq, Repr

structure Device where
  id : Nat
  mode : IdMode
  /-- The code of packets that are sent as they are, in composite mode. -/
  uncompressed : RuleCode
  address? : Option Ipv6Address
  ipv6Rules : List Rule
  udpRules : List Rule
  coapRules : List Rule
  composites : List CompositeRule
  deriving DecidableEq, Repr

namespace Device

def rules (device : Device) : Layer → List Rule
  | .network => device.ipv6Rules
  | .transport => device.udpRules
  | .application => device.coapRules

def rule (device : Device) (layer : Layer) (id : Nat) : Except Error Rule :=
  match (device.rules layer).find? (·.id == id) with
  | none => .error (.ruleNotFound layer id)
  | some rule => .ok rule

def compositeWith? (device : Device) (selection : Selection) : Option CompositeRule :=
  device.composites.find? (·.selection == selection)

end Device

end HeaderCompression
