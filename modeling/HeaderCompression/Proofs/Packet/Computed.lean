import HeaderCompression.Proofs.Packet.Checksum
import HeaderCompression.Proofs.Packet.Heading
import HeaderCompression.Proofs.Packet.Payload
import HeaderCompression.Proofs.Rule.Restored

namespace HeaderCompression

open Packet

def Layer.layout (layer : Layer) (direction : Direction) : List Slot :=
  match layer with
  | .network => Layout.ipv6 direction
  | .transport => Layout.udp direction
  | .application => []

variable {device : Device} {layer : Layer} {rule : Rule} {f : RuleField} {endpoint : Endpoint}
  {data header ipv6 udp coap result : List UInt8} {pending pending' : Pending} {position : Nat}
  {rule? ipv6Rule? udpRule? coapRule? : Option Rule}

namespace Device.Accepted

variable (haccepted : device.Accepted)

include haccepted in
theorem field_of_isComputed (hrule : rule ∈ device.rules layer) (hf : f ∈ rule.fields)
    (hcomputed : f.isComputed) :
    layer = .network ∧ f.field = .ipv6PayloadLength ∧ f.action = .computeLength ∨
      layer = .transport ∧ f.field = .udpLength ∧ f.action = .computeLength ∨
      layer = .transport ∧ f.field = .udpChecksum ∧ f.action = .computeChecksum := by
  have hwf := haccepted.wellFormed layer rule hrule f hf
  have hlayer := haccepted.field_layer hrule f hf
  rcases RuleField.isComputed_iff.1 hcomputed with haction | haction
  · rcases hwf.computeLength haction with hfield | hfield
    · rw [hfield] at hlayer
      exact .inl ⟨hlayer.symm, hfield, haction⟩
    · rw [hfield] at hlayer
      exact .inr (.inl ⟨hlayer.symm, hfield, haction⟩)
  · have hfield := hwf.computeChecksum haction
    rw [hfield] at hlayer
    exact .inr (.inr ⟨hlayer.symm, hfield, haction⟩)

include haccepted in
/-- A header that is restored under a rule is taken apart into the columns that were restored. -/
theorem exists_columns_of_restoreHeader (hrule : rule ∈ device.rules layer)
    (hlayer : layer ≠ .application)
    (h : restoreHeader layer (some rule) endpoint data pending = .ok (header, pending')) :
    ∃ columns decoder, rule.restore endpoint (.ofBytes data pending) = .ok columns decoder ∧
      Layout.columns (layer.layout endpoint.direction) header = columns := by
  obtain ⟨⟨columns, decoder⟩, hrun, h⟩ := bind_eq_ok_iff.1 h
  obtain ⟨built, hbuilt, h⟩ := bind_eq_ok_iff.1 h
  cases h
  have hrestore := restoreColumns_eq_ok_iff.1 hrun
  have hcanonical := haccepted.canonical_of_restore hrule hlayer hrestore
  refine ⟨columns, decoder, hrestore, ?_⟩
  cases layer with
  | network =>
    obtain ⟨header', -, hheader, hcolumns⟩ := Ipv6Header.exists_header hcanonical endpoint.direction
    obtain rfl : header' = header := Except.ok.inj (hheader.symm.trans hbuilt)
    exact hcolumns
  | transport =>
    obtain ⟨header', -, hheader, hcolumns⟩ := UdpHeader.exists_header hcanonical endpoint.direction
    obtain rfl : header' = header := Except.ok.inj (hheader.symm.trans hbuilt)
    exact hcolumns
  | application => exact (hlayer rfl).elim

include haccepted in
theorem wordAt_eq_zero (hrule : rule ∈ device.rules layer) (hlayer : layer ≠ .application)
    (h : restoreHeader layer (some rule) endpoint data pending = .ok (header, pending'))
    (hf : f ∈ rule.fieldsFor endpoint.direction) (hcomputed : f.isComputed)
    (hslots : ∀ slot ∈ layer.layout endpoint.direction, slot.field = f.field →
      slot.position = 8 * position ∧ slot.width = 16) : wordAt position header = [0, 0] := by
  obtain ⟨columns, decoder, hrestore, hcolumns⟩ :=
    haccepted.exists_columns_of_restoreHeader hrule hlayer h
  obtain ⟨units, hread⟩ := haccepted.exists_readAll hrule hrestore
  obtain ⟨column, hcolumn, _, _, hreads⟩ := hread.exists_column hf
  have hwf := haccepted.wellFormed layer rule hrule f (List.mem_of_mem_filter hf)
  rw [← hcolumns, Layout.columns, List.mem_map] at hcolumn
  obtain ⟨slot, hslot, hcut⟩ := hcolumn
  have hfield : slot.field = f.field := by
    rw [← hreads.field_eq, ← hcut]
    rfl
  obtain ⟨hposition, hwidth⟩ := hslots slot hslot hfield
  rw [← Layout.value_cut hposition hwidth, hcut, hreads.eq_of_isComputed hwf hcomputed]

include haccepted in
theorem wordAt_payloadLength (hrule : rule ∈ device.rules .network)
    (h : restoreHeader .network (some rule) endpoint data pending = .ok (header, pending'))
    (hf : f ∈ rule.fieldsFor endpoint.direction) (haction : f.action = .computeLength) :
    f.field = .ipv6PayloadLength ∧ wordAt 4 header = [0, 0] := by
  have hcomputed := RuleField.isComputed_iff.2 (.inl haction)
  rcases haccepted.field_of_isComputed hrule (List.mem_of_mem_filter hf) hcomputed with
    ⟨-, hfield, -⟩ | ⟨hlayer, -⟩ | ⟨hlayer, -⟩
  · refine ⟨hfield, haccepted.wordAt_eq_zero hrule (by decide) h hf hcomputed ?_⟩
    rw [hfield]
    cases endpoint.direction <;> decide
  · cases hlayer
  · cases hlayer

include haccepted in
theorem wordAt_udpLength (hrule : rule ∈ device.rules .transport)
    (h : restoreHeader .transport (some rule) endpoint data pending = .ok (header, pending'))
    (hf : f ∈ rule.fieldsFor endpoint.direction) (haction : f.action = .computeLength) :
    f.field = .udpLength ∧ wordAt 4 header = [0, 0] := by
  have hcomputed := RuleField.isComputed_iff.2 (.inl haction)
  rcases haccepted.field_of_isComputed hrule (List.mem_of_mem_filter hf) hcomputed with
    ⟨hlayer, -⟩ | ⟨-, hfield, -⟩ | ⟨-, -, hother⟩
  · cases hlayer
  · refine ⟨hfield, haccepted.wordAt_eq_zero hrule (by decide) h hf hcomputed ?_⟩
    rw [hfield]
    cases endpoint.direction <;> decide
  · rw [haction] at hother
    cases hother

include haccepted in
theorem wordAt_udpChecksum (hrule : rule ∈ device.rules .transport)
    (h : restoreHeader .transport (some rule) endpoint data pending = .ok (header, pending'))
    (hf : f ∈ rule.fieldsFor endpoint.direction) (haction : f.action = .computeChecksum) :
    f.field = .udpChecksum ∧ wordAt 6 header = [0, 0] := by
  have hcomputed := RuleField.isComputed_iff.2 (.inr haction)
  have hwf := haccepted.wellFormed _ rule hrule f (List.mem_of_mem_filter hf)
  have hfield := hwf.computeChecksum haction
  refine ⟨hfield, haccepted.wordAt_eq_zero hrule (by decide) h hf hcomputed ?_⟩
  rw [hfield]
  cases endpoint.direction <;> decide

end Device.Accepted

namespace Rule

variable {direction : Direction}

theorem length_leave_of_mem (hf : f ∈ rule.fieldsFor direction)
    (haction : f.action = .computeLength) (pending : Pending) :
    (leave (some rule) direction pending).length := by
  have hany : rule.leavesLength direction = true :=
    List.any_eq_true.2 ⟨f, hf, by simpa using haction⟩
  simp [leave, hany]

theorem checksum_leave_of_mem (hf : f ∈ rule.fieldsFor direction)
    (haction : f.action = .computeChecksum) (pending : Pending) :
    (leave (some rule) direction pending).checksum := by
  have hany : rule.leavesChecksum direction = true :=
    List.any_eq_true.2 ⟨f, hf, by simpa using haction⟩
  simp [leave, hany]

theorem leave_of_left (rule? : Option Rule) (direction : Direction) (pending : Pending) :
    (pending.length → (leave rule? direction pending).length) ∧
      (pending.checksum → (leave rule? direction pending).checksum) := by
  constructor <;> intro h <;> rw [leave, h, Bool.true_or]

end Rule

namespace Packet

variable (hipv6 : ipv6.length = 40) (hudp : udp.length = 8) (coap : List UInt8)

include hipv6 hudp

theorem length_completed : (completed pending ipv6 udp coap).length = 48 + coap.length := by
  unfold completed
  dsimp only
  rw [List.length_append, List.length_append]
  split <;> split <;> simp only [length_fillWord, hipv6, hudp]

theorem natOfBytes_wordAt_completed (hlength : pending.length)
    (hshort : udp.length + coap.length < 65536) :
    (wordAt 4 ipv6 = [0, 0] →
      natOfBytes (wordAt 4 (completed pending ipv6 udp coap)) = udp.length + coap.length) ∧
    (wordAt 4 udp = [0, 0] →
      natOfBytes (wordAt 44 (completed pending ipv6 udp coap)) = udp.length + coap.length) := by
  have hfront := (length_fillWord 4 (udp.length + coap.length) ipv6).trans hipv6
  have hmiddle := (length_fillWord 4 (udp.length + coap.length) udp).trans hudp
  unfold completed
  dsimp only
  rw [if_pos hlength, if_pos hlength]
  constructor
  · intro hzero
    rw [wordAt_ipv6 _ _ hfront (show 4 + 2 ≤ 40 by decide), natOfBytes_wordAt_fillWord hzero hshort]
  · intro hzero
    by_cases hchecksum : pending.checksum
    · rw [if_pos hchecksum]
      rw [wordAt_udp coap hfront ((length_fillWord ..).trans hmiddle) (show 4 + 2 ≤ 8 by decide),
        wordAt_fillWord (.inl (by decide)), natOfBytes_wordAt_fillWord hzero hshort]
    · rw [if_neg hchecksum]
      rw [wordAt_udp coap hfront hmiddle (show 4 + 2 ≤ 8 by decide),
        natOfBytes_wordAt_fillWord hzero hshort]

theorem completed_checksum_valid (hchecksum : pending.checksum)
    (hshort : udp.length + coap.length < 65536) (hzero : wordAt 6 udp = [0, 0])
    (hresult : completed pending ipv6 udp coap = result) :
    wordAt 46 result ≠ [0, 0] ∧ foldCarries (coveredSum result) = 65535 ∧
      accumulatedSum result < 2 ^ 32 ∧ coveredSum result < 2 ^ 32 := by
  -- The lengths are written before the checksum, and not over it.
  obtain ⟨front, hfront, hfrontEq⟩ : ∃ front : List UInt8, front.length = 40 ∧
      (if pending.length then fillWord 4 (udp.length + coap.length) ipv6 else ipv6) = front := by
    refine ⟨_, ?_, rfl⟩
    split <;> simp only [length_fillWord, hipv6]
  obtain ⟨middle, hmiddle, hword, hmiddleEq⟩ : ∃ middle : List UInt8,
      middle.length = udp.length ∧ wordAt 6 middle = [0, 0] ∧
        (if pending.length then fillWord 4 (udp.length + coap.length) udp else udp) = middle := by
    refine ⟨_, ?_, ?_, rfl⟩
    · split <;> simp only [length_fillWord]
    · split
      · rw [wordAt_fillWord (.inr (by decide)), hzero]
      · exact hzero
  unfold completed at hresult
  dsimp only at hresult
  rw [if_pos hchecksum, hfrontEq, hmiddleEq, ← hmiddle] at hresult
  rw [← hmiddle] at hshort
  exact checksum_valid hfront (hmiddle.trans hudp) coap hword hshort hresult.symm

end Packet

namespace Device

/-- What the receiver computes is valid. Whatever data a packet was restored from, the lengths that
its rules leave to be computed are those of the packet, and the checksum completes the sum of the
words that it covers to all ones; it is not zero, and the sums fit 32 bits. -/
theorem computed_fields_valid (device : Device) (haccepted : device.Accepted) (endpoint : Endpoint)
    (data : List UInt8) (heading : Heading) (hheading : device.heading? data = some heading)
    (restored : RestoredPacket) (hrestore : decompress device endpoint data = .ok restored) :
    (∀ id rule, heading.selection.network? = some id → device.rule .network id = .ok rule →
      ∀ f ∈ rule.fieldsFor endpoint.direction, f.action = .computeLength →
        f.field = .ipv6PayloadLength ∧
          natOfBytes (wordAt 4 restored.data) = restored.data.length - 40) ∧
    (∀ id rule, heading.selection.transport? = some id → device.rule .transport id = .ok rule →
      ∀ f ∈ rule.fieldsFor endpoint.direction,
        (f.action = .computeLength → f.field = .udpLength ∧
          natOfBytes (wordAt 44 restored.data) = restored.data.length - 40) ∧
        (f.action = .computeChecksum → f.field = .udpChecksum ∧
          wordAt 46 restored.data ≠ [0, 0] ∧ foldCarries (coveredSum restored.data) = 65535 ∧
          accumulatedSum restored.data < 2 ^ 32 ∧ coveredSum restored.data < 2 ^ 32)) := by
  rw [decompress_eq hheading] at hrestore
  obtain ⟨packet, hpacket, rfl⟩ := map_eq_ok_iff.1 hrestore
  obtain ⟨ipv6Rule?, udpRule?, coapRule?, ipv6Length, udpLength, hrules, hipv6Length, hudpLength,
    hlen, hparts⟩ := restorePacket_eq_ok_iff.1 hpacket
  obtain ⟨message, front, middle, pending, pending', pending'', hmessage, hmiddle, hfront,
    hcomplete⟩ := restoreParts_eq_ok_iff_layers.1 hparts
  have hfrontLength : front.length = 40 := by
    apply length_of_restoreHeader _ (fun _ _ => length_of_header_network) hfront
    rintro rfl
    exact length_part_of_none 0 hipv6Length (by omega)
  have hmiddleLength : middle.length = 8 := by
    apply length_of_restoreHeader _ (fun _ _ => length_of_header_transport) hmiddle
    rintro rfl
    exact length_part_of_none ipv6Length hudpLength hlen
  obtain ⟨hshort, rfl⟩ := (complete_eq_ok_iff hfrontLength hmiddleLength).1 hcomplete
  have hlength : (completed pending'' front middle message).length - 40 =
      middle.length + message.length := by
    rw [length_completed hfrontLength hmiddleLength, hmiddleLength]
    omega
  have hfrontLeaves := (restoreHeader_leaves hfront).1
  have hmiddleLeaves := (restoreHeader_leaves hmiddle).1
  dsimp only
  rw [hlength]
  refine ⟨fun id rule hid hrule f hf haction => ?_, fun id rule hid hrule f hf =>
    ⟨fun haction => ?_, fun haction => ?_⟩⟩
  · obtain rfl := hrules.network_eq hid hrule
    obtain ⟨hfield, hzero⟩ :=
      haccepted.wordAt_payloadLength (hrules.mem_network rule rfl) hfront hf haction
    have hleft : pending''.length := hfrontLeaves ▸ Rule.length_leave_of_mem hf haction pending'
    exact ⟨hfield, (natOfBytes_wordAt_completed hfrontLength hmiddleLength message hleft
      (hshort (.inl hleft))).1 hzero⟩
  · obtain rfl := hrules.transport_eq hid hrule
    obtain ⟨hfield, hzero⟩ :=
      haccepted.wordAt_udpLength (hrules.mem_transport rule rfl) hmiddle hf haction
    have hleft' : pending'.length := hmiddleLeaves ▸ Rule.length_leave_of_mem hf haction pending
    have hleft : pending''.length := hfrontLeaves ▸ (Rule.leave_of_left _ _ pending').1 hleft'
    exact ⟨hfield, (natOfBytes_wordAt_completed hfrontLength hmiddleLength message hleft
      (hshort (.inl hleft))).2 hzero⟩
  · obtain rfl := hrules.transport_eq hid hrule
    obtain ⟨hfield, hzero⟩ :=
      haccepted.wordAt_udpChecksum (hrules.mem_transport rule rfl) hmiddle hf haction
    have hleft' : pending'.checksum := hmiddleLeaves ▸ Rule.checksum_leave_of_mem hf haction pending
    have hleft : pending''.checksum := hfrontLeaves ▸ (Rule.leave_of_left _ _ pending').2 hleft'
    exact ⟨hfield, completed_checksum_valid hfrontLength hmiddleLength message hleft
      (hshort (.inr ⟨hleft, hzero⟩)) hzero rfl⟩

/-- A datagram of an odd number of bytes, whose header is computed. -/
def beaconMessage : List UInt8 :=
  0x04 :: sensorPacket.take 40 ++ [0x42, 1, 0x12, 0x34, 0xAA, 0xBB, 7]

theorem beacon_computed_fields_valid :
    ∃ restored, decompress beacon (.ofDirection .up) beaconMessage = .ok restored ∧
      natOfBytes (wordAt 44 restored.data) = restored.data.length - 40 ∧
      wordAt 46 restored.data ≠ [0, 0] ∧ foldCarries (coveredSum restored.data) = 65535 := by
  have hheading : beacon.heading? beaconMessage =
      some ⟨⟨none, some 1, none⟩, ⟨4, 8⟩, some ⟨false, 0, 1, 0⟩⟩ := by decide +kernel
  have hrestore : decompress beacon (.ofDirection .up) beaconMessage =
      .ok ⟨sensorPacket.take 40 ++ [0x16, 0x33, 0x16, 0x33, 0, 15, 0x22, 0xCF] ++
        [0x42, 1, 0x12, 0x34, 0xAA, 0xBB, 7], ⟨4, 8⟩, some ⟨false, 0, 1, 0⟩⟩ := by
    decide +kernel
  obtain ⟨-, hudp⟩ := computed_fields_valid beacon beacon_accepted (.ofDirection .up) beaconMessage
    _ hheading _ hrestore
  have hrule : beacon.rule .transport 1 = .ok (beacon.udpRules.head (by decide)) := by decide
  obtain ⟨hlength, -⟩ := hudp 1 _ rfl hrule
    ⟨.udpLength, .fixed 16, none, .ignore, .none, .computeLength⟩ (by decide)
  obtain ⟨-, hchecksum⟩ := hudp 1 _ rfl hrule
    ⟨.udpChecksum, .fixed 16, none, .ignore, .none, .computeChecksum⟩ (by decide)
  obtain ⟨-, hnonzero, hsum, -⟩ := hchecksum rfl
  exact ⟨_, hrestore, (hlength rfl).2, hnonzero, hsum⟩

end Device

end HeaderCompression
