import HeaderCompression.Address
import HeaderCompression.Json.Basic
import HeaderCompression.Rule.Field

namespace HeaderCompression

structure FieldDescription where
  field : HeaderField
  length? : Option Json
  direction? : Option String
  target? : Option Json
  operator : String
  operatorCount? : Option Nat
  action : String

/-- The longest list of values whose places fit one byte. -/
def maxListed : Nat := 256

namespace FieldDescription

def defaultLength (field : HeaderField) : FieldLength :=
  match field.width? with
  | some bits => .fixed bits
  | none => if field = .coapToken then .token else .variable

def writtenLength (field : HeaderField) : Option Json → Except FieldFault FieldLength
  | none => .ok (defaultLength field)
  | some (.number (.natural bits)) =>
    if 0 < bits ∧ bits < 65536 then .ok (.fixed bits)
    else .error (.badLength (JsonNumber.natural bits).text)
  | some (.string "tkl") => .ok .token
  | some (.string "var") => .ok .variable
  | some value => .error (.badLength value.text)

def fieldLength (field : HeaderField) (written : Option Json) : Except FieldFault FieldLength := do
  let length ← writtenLength field written
  match field.width?, length with
  | some width, .fixed bits => if bits ≠ width then throw (.otherLength bits width)
  | some _, _ => throw .variableHeaderField
  | none, .fixed bits => if bits % 8 ≠ 0 then throw .partialBytes
  | none, .token => if field ≠ .coapToken then throw .foreignTokenLength
  | none, .variable => pure ()
  return length

def direction : Option String → Except FieldFault (Option Direction)
  | none | some "BI" => .ok none
  | some "UP" => .ok (some .up)
  | some "DOWN" => .ok (some .down)
  | some name => .error (.unknownDirection name)

def matchingOperator (length : FieldLength) (name : String) (count? : Option Nat) :
    Except FieldFault MatchingOperator :=
  match name with
  | "equal" => .ok .equal
  | "ignore" => .ok .ignore
  | "match-mapping" => .ok .mapping
  | "MSB" =>
    match count?, length with
    | none, _ => .error .msbWithoutCount
    | some count, .fixed bits =>
      if count > bits then .error (.msbTooLong count bits) else .ok (.msb count)
    | some _, _ => .error .msbWithoutWidth
  | _ => .error (.unknownOperator name)

def compressionAction (name : String) : Except FieldFault CompressionAction :=
  match CompressionAction.ofName? name with
  | none => .error (.unknownAction name)
  | some action => .ok action

def minimalBytes (n : Nat) : List UInt8 :=
  (bytesOfNat 8 n).dropWhile (· == 0)

/-- Brings a value to the bytes that `bits` bits take, if it is not too large for them. -/
def fitted (bits : Nat) (value : List UInt8) : Except FieldFault (List UInt8) :=
  let width := bytesFor bits
  let significant := value.dropWhile (· == 0)
  let first := (significant.headD 0).toNat
  if significant.length > width ∨
      (significant.length = width ∧ bits % 8 ≠ 0 ∧ first >>> (bits % 8) ≠ 0) then
    .error (.wideTarget bits)
  else .ok (List.replicate (width - significant.length) 0 ++ significant)

/-- The text in front of the first slash; nothing stands for the address of zeros. -/
def prefixText (text : String) : List Char :=
  match text.toList.takeWhile (· != '/') with
  | [] => "::".toList
  | front => front

/-- The bytes that a string means for a field: half an address, hexadecimal digits behind `0x`, or
the string's own bytes. -/
def targetOfString (field : HeaderField) (text : String) : Except FieldFault (List UInt8) :=
  if field.isAddressPrefix then
    match Ipv6Address.ofChars? (prefixText text) with
    | none => .error (.badPrefix text)
    | some address => .ok address.networkPrefix
  else if field.isInterfaceId && text.toList.contains ':' then
    match Ipv6Address.ofString? text with
    | none => .error (.badInterfaceId text)
    | some address => .ok address.interfaceId
  else
    match text.toList with
    | '0' :: 'x' :: digits =>
      (Text.bytesOfHex (String.ofList digits)).mapError (.badHex text)
    | _ => .ok text.toUTF8.toList

def targetBytes (field : HeaderField) (length : FieldLength) (value : Json) :
    Except FieldFault (List UInt8) := do
  let bytes ← match value with
    | .number (.natural n) => pure (minimalBytes n)
    | .number n => throw (.notUnsigned n.text)
    | .string text => targetOfString field text
    | value => throw (.unsupportedTarget value.text)
  match length with
  | .fixed bits => fitted bits bytes
  | _ => return bytes

def target (field : HeaderField) (length : FieldLength) (operator : MatchingOperator) :
    Option Json → Except FieldFault TargetValue
  | none | some .null => .ok .none
  | some value =>
    match operator, value with
    | .mapping, .array items => do
      if items.isEmpty ∨ items.length > maxListed then throw (.mappingSize items.length)
      return .list (← items.mapM (targetBytes field length))
    | .mapping, _ => .error .mappingWithoutList
    | _, value => do return .single (← targetBytes field length value)

def checkOperator (f : RuleField) : Except FieldFault Unit :=
  match f.operator with
  | .equal | .msb _ => if f.target.single?.isNone then .error .operatorWithoutTarget else .ok ()
  | .mapping => if f.target.list?.isNone then .error .mappingWithoutTarget else .ok ()
  | .ignore => .ok ()

def checkAction (f : RuleField) : Except FieldFault Unit :=
  match f.action with
  | .notSent => if f.target.single?.isNone then .error .notSentWithoutTarget else .ok ()
  | .mappingSent => if f.operator ≠ .mapping then .error .mappingSentWithoutMapping else .ok ()
  | .lsb =>
    match f.operator with
    | .msb _ => .ok ()
    | _ => .error .lsbWithoutMsb
  | .computeLength =>
    if f.field ≠ .ipv6PayloadLength ∧ f.field ≠ .udpLength then .error .lengthElsewhere else .ok ()
  | .computeChecksum => if f.field ≠ .udpChecksum then .error .checksumElsewhere else .ok ()
  | .devIid => if f.field ≠ .ipv6DeviceIid then .error .devIidElsewhere else .ok ()
  | .appIid => if f.field ≠ .ipv6AppIid then .error .appIidElsewhere else .ok ()
  | .valueSent => .ok ()

def toField (d : FieldDescription) : Except FieldFault RuleField := do
  let length ← fieldLength d.field d.length?
  let direction? ← direction d.direction?
  let operator ← matchingOperator length d.operator d.operatorCount?
  let action ← compressionAction d.action
  let target ← target d.field length operator d.target?
  let f : RuleField := ⟨d.field, length, direction?, operator, target, action⟩
  checkAction f
  checkOperator f
  return f

end FieldDescription

end HeaderCompression
