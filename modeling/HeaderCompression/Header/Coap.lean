import HeaderCompression.Coap.Parse
import HeaderCompression.Column

namespace HeaderCompression.CoapHeader

def fixedColumns (message : CoapMessage) : List Column :=
  [.ofNat .coapVersion 2 message.version.val, .ofNat .coapType 2 message.type.val,
    .ofNat .coapTokenLength 4 message.token.length, .ofNat .coapCode 8 message.code.toNat,
    .ofNat .coapMessageId 16 message.messageId.toNat]

def tokenColumns (message : CoapMessage) : List Column :=
  if message.token.isEmpty then [] else [.ofBytes .coapToken message.token]

def optionColumn (option : CoapOption) : Except Error Column :=
  match NamedOption.ofNumber? option.number with
  | none => .error (.packet (.unnamedOption option.number.toNat))
  | some name =>
    if option.value.length > Column.maxBytes then
      .error (.packet (.wideOption option.number.toNat option.value.length))
    else .ok (.ofBytes (.coapOption name) option.value)

def markerColumns (message : CoapMessage) : List Column :=
  if message.payload.isEmpty then []
  else [.ofBytes .coapPayloadMarker [CoapMessage.payloadMarker]]

def messageColumns (message : CoapMessage) : Except Error (List Column) := do
  let options ← message.options.mapM optionColumn
  return fixedColumns message ++ tokenColumns message ++ options ++ markerColumns message

def columns (data : List UInt8) : Except Error (List Column × Nat) := do
  let message ← CoapMessage.ofBytes? data
  return (← messageColumns message, data.length - message.payload.length)

structure Draft where
  message : CoapMessage
  tokenLength? : Option Nat
  hasMarker : Bool

def Draft.blank : Draft := ⟨.blank, none, false⟩

def Draft.add (draft : Draft) (column : Column) : Except Error Draft :=
  let n := column.toNat
  let change (f : CoapMessage → CoapMessage) : Except Error Draft :=
    .ok { draft with message := f draft.message }
  match column.field with
  | .coapVersion => change (·.withVersion n)
  | .coapType => change (·.withType n)
  | .coapTokenLength => .ok { draft with tokenLength? := some n }
  | .coapCode => change (·.withCode (UInt8.ofNat n))
  | .coapMessageId => change (·.withMessageId (UInt16.ofNat n))
  | .coapToken => do return { draft with message := ← draft.message.withToken column.value }
  | .coapPayloadMarker => .ok { draft with hasMarker := true }
  | .coapOption name => change (·.addOption name.number column.value)
  | field => .error (.decompression (.foreignField field))

/-- The header that the columns describe; the token has to be as long as they announce. -/
def ofColumns (columns : List Column) : Except Error (List UInt8) := do
  let draft ← columns.foldlM Draft.add Draft.blank
  match draft.tokenLength? with
  | none => throw (.decompression .missingTokenLength)
  | some announced =>
    let found := draft.message.token.length
    if announced ≠ found then throw (.decompression (.tokenLength announced found))
    return draft.message.toBytes ++
      (if draft.hasMarker then [CoapMessage.payloadMarker] else [])

end HeaderCompression.CoapHeader
