import HeaderCompression.Coap.Message

namespace HeaderCompression.CoapMessage

/-- The number that a half byte announces, with the bytes behind it that it takes. -/
def readNumber (nibble : Nat) (data : List UInt8) : Except MessageFault (Nat × List UInt8) :=
  if nibble < 13 then .ok (nibble, data)
  else if nibble = 13 then
    match data with
    | byte :: rest => .ok (byte.toNat + 13, rest)
    | [] => .error .truncatedOption
  else if nibble = 14 then
    match data with
    | high :: low :: rest =>
      let n := natOfBytes [high, low] + 269
      if n < 65536 then .ok (n, rest) else .error .largeOptionField
    | _ => .error .truncatedOption
  else .error .reservedNibble

def readOption (previous : UInt16) (first : UInt8) (data : List UInt8) :
    Except MessageFault (CoapOption × List UInt8) := do
  let (delta, data) ← readNumber (first.toNat / 16) data
  let (length, data) ← readNumber (first.toNat % 16) data
  let number := previous.toNat + delta
  if number ≥ 65536 then throw .largeOptionNumber
  let value := data.take length
  if value.length < length then throw (.truncatedValue number)
  return (⟨UInt16.ofNat number, value⟩, data.drop length)

theorem length_le_of_readNumber {nibble n : Nat} {data rest : List UInt8}
    (h : readNumber nibble data = .ok (n, rest)) : rest.length ≤ data.length := by
  unfold readNumber at h
  split at h
  · simp only [Except.ok.injEq, Prod.mk.injEq] at h
    simp [h.2]
  · split at h
    · split at h
      · simp only [Except.ok.injEq, Prod.mk.injEq] at h
        simp [← h.2]
      · simp at h
    · split at h
      · split at h
        · dsimp only at h
          split at h
          · simp only [Except.ok.injEq, Prod.mk.injEq] at h
            simp [← h.2]
            omega
          · simp at h
        · simp at h
      · simp at h

theorem length_le_of_readOption {previous : UInt16} {first : UInt8} {data rest : List UInt8}
    {option : CoapOption} (h : readOption previous first data = .ok (option, rest)) :
    rest.length ≤ data.length := by
  unfold readOption at h
  cases hd : readNumber (first.toNat / 16) data with
  | error fault => simp [hd, bind, Except.bind] at h
  | ok delta =>
    cases hl : readNumber (first.toNat % 16) delta.2 with
    | error fault => simp [hd, hl, bind, Except.bind] at h
    | ok length =>
      have h₁ := length_le_of_readNumber hd
      have h₂ := length_le_of_readNumber hl
      simp only [hd, hl, bind, Except.bind, throw, throwThe, MonadExceptOf.throw, pure,
        Except.pure] at h
      split at h
      · simp at h
      · split at h
        · simp at h
        · simp only [Except.ok.injEq, Prod.mk.injEq] at h
          rw [← h.2, List.length_drop]
          omega

/-- The options and the payload of a message, behind the options `read` already, the last of them
first. -/
def readOptions (read : List CoapOption) (previous : UInt16) :
    List UInt8 → Except MessageFault (List CoapOption × List UInt8)
  | [] => .ok (read.reverse, [])
  | first :: data =>
    if first = payloadMarker then
      if data.isEmpty then .error .emptyPayload else .ok (read.reverse, data)
    else
      match _h : readOption previous first data with
      | .error fault => .error fault
      | .ok (option, rest) => readOptions (option :: read) option.number rest
termination_by data => data.length
decreasing_by
  exact Nat.lt_succ_of_le (length_le_of_readOption (by assumption))

def parse (data : List UInt8) : Except MessageFault CoapMessage := do
  match data with
  | first :: code :: high :: low :: rest =>
    let version := first.toNat / 64
    if version ≠ 1 then throw (.version version)
    let tokenLength := first.toNat % 16
    if tokenLength > maxTokenLength then throw (.longToken tokenLength)
    let token := rest.take tokenLength
    if token.length < tokenLength then throw .truncatedToken
    let (options, payload) ← readOptions [] 0 (rest.drop tokenLength)
    return {
      version := 1
      type := Fin.ofNat 4 (first.toNat / 16)
      code
      messageId := UInt16.ofNat (natOfBytes [high, low])
      token
      options
      payload }
  | _ => throw (.shortHeader data.length)

def ofBytes? (data : List UInt8) : Except Error CoapMessage :=
  (parse data).mapError fun fault => .packet (.coap fault)

end HeaderCompression.CoapMessage
