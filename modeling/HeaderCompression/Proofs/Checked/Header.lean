import HeaderCompression.Proofs.Checked.Residue
import HeaderCompression.Proofs.Coap.Draft
import HeaderCompression.Proofs.Rule.Restored

namespace HeaderCompression.Checked

variable {device : Device} {endpoint : Endpoint} {received header : List UInt8} {limit : Nat}
  {columns : List Column} {slots : List Slot} {direction : Direction}

section Layouts

def place (limit : Nat) (columns : List Column) (header : List UInt8) (slot : Slot) :
    Run (List UInt8) :=
  match Column.find? columns slot.field with
  | none => .error (.error (.decompression (.missingField slot.field)))
  | some column => do
    let width ← mul limit column.value.length 8
    let start ← sub width column.bits
    merge limit header slot.position column.value start column.bits

def ipv6Layout (limit : Nat) (direction : Direction) : Run (List Slot) := do
  let (device, app) := match direction with
    | .up => (64, 192)
    | .down => (192, 64)
  let deviceIid ← add limit device 64
  let appIid ← add limit app 64
  return [⟨0, .ipv6Version⟩, ⟨4, .ipv6TrafficClass⟩, ⟨12, .ipv6FlowLabel⟩,
    ⟨32, .ipv6PayloadLength⟩, ⟨48, .ipv6NextHeader⟩, ⟨56, .ipv6HopLimit⟩,
    ⟨device, .ipv6DevicePrefix⟩, ⟨deviceIid, .ipv6DeviceIid⟩, ⟨app, .ipv6AppPrefix⟩,
    ⟨appIid, .ipv6AppIid⟩]

def ipv6Header (limit : Nat) (direction : Direction) (columns : List Column) :
    Run (List UInt8) := do
  (← ipv6Layout limit direction).foldlM (place limit columns) (List.replicate ipv6HeaderLength 0)

def udpHeader (limit : Nat) (direction : Direction) (columns : List Column) : Run (List UInt8) :=
  (Layout.udp direction).foldlM (place limit columns) (List.replicate udpHeaderLength 0)

theorem ipv6Layout_eq_ok (hlimit : 2 ^ 17 ≤ limit) (direction : Direction) :
    ipv6Layout limit direction = .ok (Layout.ipv6 direction) := by
  cases direction with
  | up =>
    rw [ipv6Layout]
    rw [add_eq_ok (by omega), ok_bind, add_eq_ok (by omega)]
    rfl
  | down =>
    rw [ipv6Layout]
    rw [add_eq_ok (by omega), ok_bind, add_eq_ok (by omega)]
    rfl

theorem place_eq_ok {slot : Slot} {result : List UInt8} (hlimit : 2 ^ 17 ≤ limit)
    (hproper : ∀ column ∈ columns, column.Proper) (hposition : slot.position ≤ 256)
    (hwidth : slot.field.width?.isSome) (h : Layout.place columns header slot = .ok result) :
    place limit columns header slot = .ok result := by
  rw [Layout.place] at h
  rw [place]
  cases hfind : Column.find? columns slot.field with
  | none =>
    rw [hfind] at h
    cases h
  | some column =>
    rw [hfind] at h
    obtain ⟨hfield, hmem⟩ := of_find?_eq_some hfind
    have hcolumn := hproper column hmem
    obtain ⟨width, hwidth⟩ := Option.isSome_iff_exists.1 hwidth
    have hbits : column.bits = width := hcolumn.width width (by rw [hfield, hwidth]; rfl)
    have hsmall := HeaderField.width_le hwidth
    have hpad := hcolumn.value.add_padding
    have hless : padding column.bits < 8 := Nat.mod_lt _ (by decide)
    dsimp only
    rw [mul_eq_ok (by omega), ok_bind, Nat.mul_comm, sub_eq_ok (by omega), ok_bind]
    exact merge_eq_ok h (by omega) (by omega)

theorem foldlM_place_eq_ok {result : List UInt8} (hlimit : 2 ^ 17 ≤ limit)
    (hproper : ∀ column ∈ columns, column.Proper)
    (hslots : ∀ slot ∈ slots, slot.position ≤ 256 ∧ slot.field.width?.isSome)
    (h : slots.foldlM (Layout.place columns) header = .ok result) :
    slots.foldlM (place limit columns) header = .ok result :=
  foldlM_eq_ok (fun _ _ slot hslot =>
    place_eq_ok hlimit hproper (hslots slot hslot).1 (hslots slot hslot).2) h

theorem ipv6Header_follows (hlimit : 2 ^ 17 ≤ limit) (h : Layer.Canonical .network columns)
    (direction : Direction) : Follows (Expected device endpoint received)
      (ipv6Header limit direction columns) (Ipv6Header.ofColumns direction columns) := by
  obtain ⟨header, -, hheader, -⟩ := Ipv6Header.exists_header h direction
  apply Follows.of_ok hheader
  rw [Layout.ofColumns_ipv6] at hheader
  rw [ipv6Header, ipv6Layout_eq_ok hlimit]
  exact foldlM_place_eq_ok hlimit h.proper (by cases direction <;> decide) hheader

theorem udpHeader_follows (hlimit : 2 ^ 17 ≤ limit) (h : Layer.Canonical .transport columns)
    (direction : Direction) : Follows (Expected device endpoint received)
      (udpHeader limit direction columns) (UdpHeader.ofColumns direction columns) := by
  obtain ⟨header, -, hheader, -⟩ := UdpHeader.exists_header h direction
  apply Follows.of_ok hheader
  rw [Layout.ofColumns_udp] at hheader
  exact foldlM_place_eq_ok hlimit h.proper (by cases direction <;> decide) hheader

end Layouts

section Messages

variable {option : CoapOption} {options : List CoapOption} {message : CoapMessage}
  {previous : UInt16}

open CoapMessage

/-- Half a byte and the one or two bytes that take its place: how many these are. -/
def optionLength (limit delta length : Nat) : Run Nat := do
  let count ← add limit 1 (CoapOption.extension delta).length
  let count ← add limit count (CoapOption.extension length).length
  add limit count length

def countOptions (limit count : Nat) (previous : UInt16) : List CoapOption → Run Nat
  | [] => return count
  | option :: options => do
    let delta ← sub option.number.toNat previous.toNat
    let count ← add limit count (← optionLength limit delta option.value.length)
    countOptions limit count option.number options

def headerLength (limit : Nat) (message : CoapMessage) : Run Nat := do
  let start ← add limit 4 message.token.length
  let count ← countOptions limit start 0 message.options
  if message.payload.isEmpty then return count else add limit count 1

def extension (n : Nat) : Run (List UInt8) :=
  if 13 ≤ n ∧ n < 269 then do return [UInt8.ofNat (← sub n 13)]
  else if 269 ≤ n then do return bytesOfNat 2 (← sub n 269)
  else return []

def encodeOption (previous : UInt16) (option : CoapOption) : Run (List UInt8) := do
  let delta ← sub option.number.toNat previous.toNat
  let length := option.value.length
  let first := UInt8.ofNat (16 * CoapOption.nibble delta + CoapOption.nibble length)
  return first :: ((← extension delta) ++ (← extension length) ++ option.value)

def encodeOptions (previous : UInt16) : List CoapOption → Run (List UInt8)
  | [] => return []
  | option :: options => do
    return (← encodeOption previous option) ++ (← encodeOptions option.number options)

/-- Encodes a message into a buffer of the length that has been counted before. -/
def encode (limit : Nat) (message : CoapMessage) : Run (List UInt8) := do
  discard (add limit (← headerLength limit message) message.payload.length)
  return message.fixedHeader ++ message.token ++ (← encodeOptions 0 message.options) ++
    encodePayload message.payload

def coapHeader (limit : Nat) (columns : List Column) : Run (List UInt8) := do
  let draft ← lift (columns.foldlM CoapHeader.Draft.add CoapHeader.Draft.blank)
  match draft.tokenLength? with
  | none => throw (.error (.decompression .missingTokenLength))
  | some announced =>
    let found := draft.message.token.length
    if announced ≠ found then throw (.error (.decompression (.tokenLength announced found)))
    return (← encode limit draft.message) ++ (if draft.hasMarker then [payloadMarker] else [])

theorem optionLength_eq_ok (h : option.encodedLength previous ≤ limit) :
    optionLength limit (option.number.toNat - previous.toNat) option.value.length =
      .ok (option.encodedLength previous) := by
  rw [CoapOption.encodedLength] at h
  rw [optionLength, add_eq_ok (by omega), ok_bind, add_eq_ok (by omega), ok_bind, add_eq_ok h]
  rfl

theorem countOptions_eq_ok {count : Nat} (hsorted : Ascending previous options)
    (hlimit : count + optionsLength previous options ≤ limit) :
    countOptions limit count previous options =
      .ok (count + optionsLength previous options) := by
  induction options generalizing count previous with
  | nil => rfl
  | cons option options ih =>
    obtain ⟨hnumber, hoptions⟩ := hsorted.of_cons
    rw [optionsLength] at hlimit ⊢
    rw [countOptions, sub_eq_ok hnumber, ok_bind, optionLength_eq_ok (by omega), ok_bind,
      add_eq_ok (by omega), ok_bind, ih hoptions (by omega), Nat.add_assoc]

theorem headerLength_eq_ok (hsorted : Ascending 0 message.options)
    (hlimit : message.headerLength ≤ limit) :
    headerLength limit message = .ok message.headerLength := by
  rw [CoapMessage.headerLength] at hlimit ⊢
  rw [headerLength, add_eq_ok (by omega), ok_bind, countOptions_eq_ok hsorted (by omega), ok_bind]
  split
  · rfl
  · rename_i hpayload
    rw [if_neg hpayload] at hlimit
    exact add_eq_ok hlimit

theorem extension_eq_ok (n : Nat) : extension n = .ok (CoapOption.extension n) := by
  rw [extension, CoapOption.extension]
  by_cases hsmall : n < 13
  · rw [if_neg (by omega), if_neg (by omega), if_pos hsmall]
    rfl
  · by_cases hbyte : n < 269
    · rw [if_pos (by omega), if_neg hsmall, if_pos hbyte, sub_eq_ok (by omega)]
      rfl
    · rw [if_neg (by omega), if_pos (by omega), if_neg hsmall, if_neg hbyte, sub_eq_ok (by omega)]
      rfl

theorem encodeOptions_eq_ok (hsorted : Ascending previous options) :
    encodeOptions previous options = .ok (CoapMessage.encodeOptions previous options) := by
  induction options generalizing previous with
  | nil => rfl
  | cons option options ih =>
    obtain ⟨hnumber, hoptions⟩ := hsorted.of_cons
    rw [encodeOptions, encodeOption, sub_eq_ok hnumber, ok_bind, extension_eq_ok, ok_bind,
      extension_eq_ok, ok_bind, ih hoptions, CoapMessage.encodeOptions_cons]
    rfl

theorem encode_eq_ok (hsorted : Ascending 0 message.options)
    (hlimit : message.headerLength + message.payload.length ≤ limit) :
    encode limit message = .ok message.toBytes := by
  rw [encode, headerLength_eq_ok hsorted (by omega), ok_bind, add_eq_ok hlimit]
  change (encodeOptions 0 message.options >>= _) = _
  rw [encodeOptions_eq_ok hsorted]
  rfl

theorem coapHeader_follows (hlayer : ∀ column ∈ columns, column.field.layer = .application)
    (hlimit : 12 + (columns.map Column.room).sum ≤ limit) :
    Follows (Expected device endpoint received) (coapHeader limit columns)
      (CoapHeader.ofColumns columns) := by
  refine (Follows.lift fun error herror => ?_).bind fun draft hdraft => ?_
  · obtain ⟨length, hlong, rfl⟩ := CoapHeader.Draft.eq_of_foldlM_eq_error herror hlayer
    exact .longToken hlong
  · have hwithin := CoapHeader.Draft.within_blank.foldlM hdraft
    have hlength := hwithin.headerLength_le
    cases hannounced : draft.tokenLength? with
    | none => exact .error .missingTokenLength
    | some announced =>
      dsimp only
      by_cases hsame : announced = draft.message.token.length
      · have hrun : encode limit draft.message = .ok draft.message.toBytes := by
          apply encode_eq_ok (ascending_zero.2 hwithin.sorted)
          rw [hwithin.payload, List.length_nil]
          omega
        rw [if_neg (not_not.2 hsame), if_neg (not_not.2 hsame), hrun]
        exact .ok _
      · rw [if_pos hsame, if_pos hsame]
        exact .error (.tokenLength hsame)

end Messages

end HeaderCompression.Checked
