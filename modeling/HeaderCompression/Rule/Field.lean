import HeaderCompression.Column

namespace HeaderCompression

inductive FieldLength where
  | fixed (bits : Nat)
  /-- As many bytes as the CoAP token length says. -/
  | token
  /-- As many bytes as a length in front of the value says. -/
  | variable
  deriving DecidableEq, Repr

inductive MatchingOperator where
  | equal
  | ignore
  /-- The first `count` bits are equal. -/
  | msb (count : Nat)
  | mapping
  deriving DecidableEq, Repr

inductive CompressionAction where
  | notSent
  | valueSent
  | mappingSent
  /-- The bits that the operator leaves open are sent. -/
  | lsb
  | computeLength
  | computeChecksum
  | devIid
  | appIid
  deriving DecidableEq, Repr

def CompressionAction.name : CompressionAction → String
  | notSent => "not-sent"
  | valueSent => "value-sent"
  | mappingSent => "mapping-sent"
  | lsb => "LSB"
  | computeLength => "compute-length"
  | computeChecksum => "compute-checksum"
  | devIid => "DevIID"
  | appIid => "AppIID"

def CompressionAction.all : List CompressionAction :=
  [.notSent, .valueSent, .mappingSent, .lsb, .computeLength, .computeChecksum, .devIid, .appIid]

def CompressionAction.ofName? (name : String) : Option CompressionAction :=
  all.find? (·.name == name)

inductive TargetValue where
  | none
  | single (value : List UInt8)
  | list (values : List (List UInt8))
  deriving DecidableEq, Repr

def TargetValue.single? : TargetValue → Option (List UInt8)
  | single value => some value
  | _ => Option.none

def TargetValue.list? : TargetValue → Option (List (List UInt8))
  | list values => some values
  | _ => Option.none

structure RuleField where
  field : HeaderField
  length : FieldLength
  /-- The only direction that the field is for; none for both. -/
  direction? : Option Direction
  operator : MatchingOperator
  target : TargetValue
  action : CompressionAction
  deriving DecidableEq, Repr

namespace RuleField

def appliesTo (f : RuleField) (direction : Direction) : Bool :=
  f.direction?.all (· == direction)

def fixedBits? (f : RuleField) : Option Nat :=
  match f.length with
  | .fixed bits => some bits
  | _ => none

def columnOf (f : RuleField) (value : List UInt8) : Column :=
  match f.length with
  | .fixed bits => ⟨f.field, bits, value⟩
  | _ => .ofBytes f.field value

end RuleField

end HeaderCompression
