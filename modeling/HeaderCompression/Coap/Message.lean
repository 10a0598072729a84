import HeaderCompression.Error

namespace HeaderCompression

structure CoapOption where
  number : UInt16
  value : List UInt8
  deriving DecidableEq, Repr

namespace CoapOption

/-- The half byte that announces a difference or a length. -/
def nibble (n : Nat) : Nat :=
  if n < 13 then n else if n < 269 then 13 else 14

/-- The bytes behind the half byte. A number that does not fit two bytes loses its upper part. -/
def extension (n : Nat) : List UInt8 :=
  if n < 13 then [] else if n < 269 then [UInt8.ofNat (n - 13)] else bytesOfNat 2 (n - 269)

def encode (previous : UInt16) (option : CoapOption) : List UInt8 :=
  let delta := option.number.toNat - previous.toNat
  let length := option.value.length
  UInt8.ofNat (16 * nibble delta + nibble length) ::
    (extension delta ++ extension length ++ option.value)

def encodedLength (previous : UInt16) (option : CoapOption) : Nat :=
  1 + (extension (option.number.toNat - previous.toNat)).length +
    (extension option.value.length).length + option.value.length

end CoapOption

-- By name and for the core zero, so that all definitions over two-bit fields hold this instance.
instance neZero_four : @NeZero Nat Zero.ofOfNat0 4 := ⟨Nat.succ_ne_zero 3⟩

structure CoapMessage where
  version : Fin 4
  type : Fin 4
  code : UInt8
  messageId : UInt16
  token : List UInt8
  options : List CoapOption
  payload : List UInt8
  deriving DecidableEq, Repr

namespace CoapMessage

def blank : CoapMessage :=
  ⟨1, 0, 0, 0, [], [], []⟩

def maxTokenLength : Nat := 8

def payloadMarker : UInt8 := 0xFF

def withVersion (version : Nat) (message : CoapMessage) : CoapMessage :=
  { message with version := Fin.ofNat 4 version }

def withType (type : Nat) (message : CoapMessage) : CoapMessage :=
  { message with type := Fin.ofNat 4 type }

def withCode (code : UInt8) (message : CoapMessage) : CoapMessage :=
  { message with code }

def withMessageId (messageId : UInt16) (message : CoapMessage) : CoapMessage :=
  { message with messageId }

def withToken (token : List UInt8) (message : CoapMessage) : Except Error CoapMessage :=
  if token.length ≤ maxTokenLength then .ok { message with token }
  else .error (.packet (.coap (.longToken token.length)))

def withPayload (payload : List UInt8) (message : CoapMessage) : CoapMessage :=
  { message with payload }

/-- Puts an option behind all options of the same or a lower number. -/
def insertOption (option : CoapOption) (options : List CoapOption) : List CoapOption :=
  options.takeWhile (·.number ≤ option.number) ++
    option :: options.dropWhile (·.number ≤ option.number)

def addOption (number : UInt16) (value : List UInt8) (message : CoapMessage) : CoapMessage :=
  { message with options := insertOption ⟨number, value⟩ message.options }

def valuesOf (number : UInt16) (message : CoapMessage) : List (List UInt8) :=
  (message.options.filter (·.number == number)).map (·.value)

def encodeOptions (previous : UInt16) (options : List CoapOption) : List UInt8 :=
  (List.zipWith CoapOption.encode (previous :: options.map (·.number)) options).flatten

def encodePayload (payload : List UInt8) : List UInt8 :=
  if payload.isEmpty then [] else payloadMarker :: payload

def fixedHeader (message : CoapMessage) : List UInt8 :=
  UInt8.ofNat (64 * message.version.val + 16 * message.type.val + message.token.length) ::
    message.code :: bytesOfNat 2 message.messageId.toNat

def toBytes (message : CoapMessage) : List UInt8 :=
  message.fixedHeader ++ message.token ++ encodeOptions 0 message.options ++
    encodePayload message.payload

def optionsLength (previous : UInt16) : List CoapOption → Nat
  | [] => 0
  | option :: options => option.encodedLength previous + optionsLength option.number options

def headerLength (message : CoapMessage) : Nat :=
  4 + message.token.length + optionsLength 0 message.options +
    (if message.payload.isEmpty then 0 else 1)

@[simp] theorem encodeOptions_nil (previous : UInt16) : encodeOptions previous [] = [] := rfl

@[simp] theorem encodeOptions_cons (previous : UInt16) (option : CoapOption)
    (options : List CoapOption) :
    encodeOptions previous (option :: options) =
      option.encode previous ++ encodeOptions option.number options := by
  simp [encodeOptions]

end CoapMessage

end HeaderCompression
