import HeaderCompression.Proofs.Packet.Assembly
import HeaderCompression.Proofs.Packet.Headers

namespace HeaderCompression

open Packet

variable {device : Device} {layer : Layer} {endpoint sender receiver : Endpoint}
  {data packet bytes : List UInt8} {sent ipv6 udp coap : SentLayer} {rule : Rule}
  {rule? ipv6Rule? udpRule? coapRule? : Option Rule} {columns : List Column} {length : Nat}
  {compressed : CompressedPacket} {p : FieldPair}

def Rule.ExactOn (rule : Rule) (layer : Layer) (direction : Direction) (packet : List UInt8) :
    Prop :=
  ∀ columns length, layer.columns direction (layer.dataOf packet) = .ok (columns, length) →
    ∀ p ∈ rule.pairs direction columns, p.Exact packet

def CompressedPacket.ExactOn (compressed : CompressedPacket) (device : Device)
    (direction : Direction) (packet : List UInt8) : Prop :=
  ∀ layer, ∀ rule ∈ device.rules layer,
    (compressed.selection device).layer? layer = some rule.id → rule.ExactOn layer direction packet

theorem Layout.value_cut {slot : Slot} {position : Nat} (hposition : slot.position = 8 * position)
    (hwidth : slot.width = 16) : (cut (bitsOfBytes data) slot).value = wordAt position data := by
  have hbits : bitsOfBytes (wordAt position data) =
      ((bitsOfBytes data).drop (8 * position)).take 16 := by
    rw [wordAt, bitsOfBytes_take, bitsOfBytes_drop]
  rw [cut, hposition, hwidth, ← hbits, alignRight_bitsOfBytes]

namespace Rule

namespace Sends

variable (h : rule.Sends device layer endpoint data columns length bytes)
  (haccepted : device.Accepted)

include h haccepted in
theorem value_eq_wordAt {layout : List Slot} {field : HeaderField} (position : Nat)
    (hcolumns : columns = Layout.columns layout data)
    (hslots : ∀ slot ∈ layout, slot.field = field → slot.position = 8 * position ∧ slot.width = 16)
    (hp : p ∈ rule.pairs endpoint.direction columns) (hfield : p.1.field = field) :
    p.2.value = wordAt position data := by
  have hcolumn : p.2 ∈ columns := (List.of_mem_zip hp).2
  rw [hcolumns, Layout.columns, List.mem_map] at hcolumn
  obtain ⟨slot, hslot, hcut⟩ := hcolumn
  have hslotField : slot.field = field := by
    rw [← hfield, (RuleField.accepts_iff.1 (h.sound haccepted p hp).accepts).1, ← hcut]
    rfl
  obtain ⟨hposition, hwidth⟩ := hslots slot hslot hslotField
  rw [← hcut, Layout.value_cut hposition hwidth]

include h haccepted in
theorem length_of_leaves {layout : List Slot} {field : HeaderField}
    (hfield : layer = .network ∧ field = .ipv6PayloadLength ∨
      layer = .transport ∧ field = .udpLength)
    (hcolumns : columns = Layout.columns layout data)
    (hslots : ∀ slot ∈ layout, slot.field = field → slot.position = 32 ∧ slot.width = 16)
    (hexact : ∀ p ∈ rule.pairs endpoint.direction columns, p.Exact packet)
    (hleft : rule.leavesLength endpoint.direction) :
    natOfBytes (wordAt 4 data) = packet.length - 40 ∧
      wordAt 4 packet ≠ [0, 0] ∧ wordAt 44 packet ≠ [0, 0] := by
  rw [← h.computes_length haccepted hfield, FieldPair.computes_iff] at hleft
  obtain ⟨p, hp, hcomputed, rfl⟩ := hleft
  have haction : p.1.action = .computeLength := by
    simp only [RuleField.isComputed, Bool.or_eq_true, decide_eq_true_eq] at hcomputed
    apply hcomputed.resolve_right
    intro hchecksum
    rw [(h.sound haccepted p hp).wellFormed.computeChecksum hchecksum] at hfield
    simp at hfield
  have hvalue := h.value_eq_wordAt haccepted 4 hcolumns hslots hp rfl
  have hp := hexact p hp
  simp only [FieldPair.Exact, haction] at hp
  rw [← hvalue]
  exact hp

include h haccepted in
theorem checksum_of_leaves {layout : List Slot} (hcolumns : columns = Layout.columns layout data)
    (hslots : ∀ slot ∈ layout, slot.field = .udpChecksum → slot.position = 48 ∧ slot.width = 16)
    (hexact : ∀ p ∈ rule.pairs endpoint.direction columns, p.Exact packet)
    (hleft : rule.leavesChecksum endpoint.direction) :
    packet.length - 40 < 65536 ∧ natOfBytes (wordAt 6 data) =
      udpChecksum (packet.take 40) (packet.length - 40) (packet.drop 40) := by
  rw [← h.computes_checksum haccepted, FieldPair.computes_iff] at hleft
  obtain ⟨p, hp, hcomputed, hfield⟩ := hleft
  have haction : p.1.action = .computeChecksum := by
    simp only [RuleField.isComputed, Bool.or_eq_true, decide_eq_true_eq] at hcomputed
    apply hcomputed.resolve_left
    intro hlength
    have hlen := (h.sound haccepted p hp).wellFormed.computeLength hlength
    simp [hfield] at hlen
  have hvalue := h.value_eq_wordAt haccepted 6 hcolumns hslots hp hfield
  have hp := hexact p hp
  simp only [FieldPair.Exact, haction] at hp
  obtain ⟨n, hn, hsum⟩ := hp
  obtain ⟨hlt, rfl⟩ := payloadLength_eq_ok_iff.1 hn
  rw [← hvalue]
  exact ⟨hlt, hsum⟩

end Sends

end Rule

namespace SentLayer.SentAs

variable (haccepted : device.Accepted) (hexact : ∀ rule ∈ rule?, rule.ExactOn layer
  endpoint.direction packet) (h : SentAs device layer endpoint (layer.dataOf packet) sent rule?)

include haccepted hexact h in
theorem restoreHeader_network (hlayer : layer = .network)
    (hlen : (layer.dataOf packet).length = 40) :
    ∃ left : Bool, (∀ pending, restoreHeader layer rule? endpoint sent.bytes pending =
        .ok (blankIf left 4 (layer.dataOf packet), ⟨pending.length || left, pending.checksum⟩)) ∧
      (left → natOfBytes (wordAt 4 (layer.dataOf packet)) = packet.length - 40 ∧
        wordAt 4 packet ≠ [0, 0] ∧ wordAt 44 packet ≠ [0, 0]) := by
  subst hlayer
  cases h with
  | verbatim =>
    exact ⟨false, fun pending => by simp [restoreHeader, SentLayer.verbatim, blankIf], by simp⟩
  | @rule rule columns length bytes h =>
    have hexact := hexact rule rfl columns length h.loads
    refine ⟨rule.leavesLength endpoint.direction,
      h.restoreHeader_network haccepted hexact rfl hlen, fun hleft => ?_⟩
    exact h.length_of_leaves haccepted (.inl ⟨rfl, rfl⟩) (Layer.columns_network hlen h.loads)
      (by cases endpoint.direction <;> decide) hexact hleft

include haccepted hexact h in
theorem restoreHeader_transport (hlayer : layer = .transport)
    (hlen : (layer.dataOf packet).length = 8) :
    ∃ left checksumLeft : Bool,
      (∀ pending, restoreHeader layer rule? endpoint sent.bytes pending =
        .ok (blankIf left 4 (blankIf checksumLeft 6 (layer.dataOf packet)),
          ⟨pending.length || left, pending.checksum || checksumLeft⟩)) ∧
      (left → natOfBytes (wordAt 4 (layer.dataOf packet)) = packet.length - 40 ∧
        wordAt 4 packet ≠ [0, 0] ∧ wordAt 44 packet ≠ [0, 0]) ∧
      (checksumLeft → packet.length - 40 < 65536 ∧
        natOfBytes (wordAt 6 (layer.dataOf packet)) =
          udpChecksum (packet.take 40) (packet.length - 40) (packet.drop 40)) := by
  subst hlayer
  cases h with
  | verbatim =>
    exact ⟨false, false, fun pending => by simp [restoreHeader, SentLayer.verbatim, blankIf],
      by simp, by simp⟩
  | @rule rule columns length bytes h =>
    have hexact := hexact rule rfl columns length h.loads
    have hcolumns := Layer.columns_transport hlen h.loads
    refine ⟨rule.leavesLength endpoint.direction, rule.leavesChecksum endpoint.direction,
      h.restoreHeader_transport haccepted hexact rfl hlen, fun hleft => ?_, fun hleft => ?_⟩
    · exact h.length_of_leaves haccepted (.inr ⟨rfl, rfl⟩) hcolumns
        (by cases endpoint.direction <;> decide) hexact hleft
    · exact h.checksum_of_leaves haccepted hcolumns (by cases endpoint.direction <;> decide) hexact
        hleft

include haccepted hexact h in
theorem restoreMessage_eq_ok (hlayer : layer = .application) (pending : Pending) :
    restoreMessage rule? endpoint (sent.bytes ++ (layer.dataOf packet).drop sent.consumed)
      pending = .ok (layer.dataOf packet, pending) := by
  cases h with
  | verbatim => simp [restoreMessage, SentLayer.verbatim]
  | @rule rule columns length bytes h =>
    have hexact := hexact rule rfl columns length h.loads
    exact h.restoreMessage_eq_ok haccepted hexact hlayer pending

theorem exactOn (h : SentAs device layer endpoint data sent rule?)
    (hexact : compressed.ExactOn device endpoint.direction packet)
    (hselected : (compressed.selection device).layer? layer = sent.rule?) :
    ∀ rule ∈ rule?, rule.ExactOn layer endpoint.direction packet := by
  intro rule hrule
  cases h with
  | verbatim => cases hrule
  | rule h =>
    cases hrule
    exact hexact layer _ h.mem hselected

end SentLayer.SentAs

theorem restoreParts_eq_ok (haccepted : device.Accepted)
    (hlen : ipv6HeaderLength + udpHeaderLength ≤ packet.length)
    (hipv6 : SentLayer.SentAs device .network endpoint (Layer.network.dataOf packet) ipv6 ipv6Rule?)
    (hudp : SentLayer.SentAs device .transport endpoint (Layer.transport.dataOf packet) udp
      udpRule?)
    (hcoap : SentLayer.SentAs device .application endpoint (Layer.application.dataOf packet) coap
      coapRule?)
    (hipv6Exact : ∀ rule ∈ ipv6Rule?, rule.ExactOn .network endpoint.direction packet)
    (hudpExact : ∀ rule ∈ udpRule?, rule.ExactOn .transport endpoint.direction packet)
    (hcoapExact : ∀ rule ∈ coapRule?, rule.ExactOn .application endpoint.direction packet) :
    restoreParts ipv6Rule? udpRule? coapRule? endpoint ipv6.bytes udp.bytes
      (coap.bytes ++ (Layer.application.dataOf packet).drop coap.consumed) = .ok packet := by
  have hipv6Length := Layer.length_network hlen
  have hudpLength := Layer.length_transport hlen
  have hfirst := Layer.wordAt_network hlen
  have hsecond := Layer.wordAt_transport hlen
  obtain ⟨ipv6Left, hnetwork, hipv6Left⟩ :=
    hipv6.restoreHeader_network haccepted hipv6Exact rfl hipv6Length
  obtain ⟨udpLeft, checksumLeft, htransport, hudpLeft, hchecksum⟩ :=
    hudp.restoreHeader_transport haccepted hudpExact rfl hudpLength
  have happlication := hcoap.restoreMessage_eq_ok haccepted hcoapExact rfl ⟨false, false⟩
  -- The parts of the packet, in place of the positions that the rules are exact on.
  have hparts := Layer.dataOf_append packet
  generalize Layer.network.dataOf packet = front at *
  generalize Layer.transport.dataOf packet = middle at *
  generalize Layer.application.dataOf packet = back at *
  have hrest : packet.length - 40 = middle.length + back.length := by
    rw [← hparts, List.length_append, List.length_append]
    omega
  have htake : packet.take 40 = front := by
    rw [← hparts, List.append_assoc, List.take_left' hipv6Length]
  have hdrop : packet.drop 40 = middle ++ back := by
    rw [← hparts, List.append_assoc, List.drop_left' hipv6Length]
  rw [hrest, hfirst, hsecond] at hipv6Left hudpLeft
  rw [hrest, htake, hdrop] at hchecksum
  have hcomplete := complete_blankIf hipv6Length hudpLength (fun h => (hipv6Left h).1)
    (fun h => (hudpLeft h).1) (fun h => (Bool.or_eq_true_iff.1 h).elim
      (fun h => (hudpLeft h).2) fun h => (hipv6Left h).2) hchecksum
  rw [hparts] at hcomplete
  simp only [restoreParts, happlication, htransport, hnetwork, bind, Except.bind, Pending.none,
    Bool.false_or, hcomplete]
  rfl

/-- The receiver restores under its direction and its address, and nothing else of its own. -/
theorem restorePacket_congr (hdirection : receiver.direction = sender.direction)
    (haddress : receiver.address? = sender.address?) (selection : Selection) (body : List UInt8) :
    restorePacket device receiver selection body = restorePacket device sender selection body := by
  cases receiver
  cases sender
  cases hdirection
  cases haddress
  rfl

namespace Device

/-- A packet is restored from its compressed form when the rules of its layers are exact on it: in
either mode, for every packet that is compressed at all, and with the fragment bit set too. -/
theorem packet_roundTrip (device : Device) (sender receiver : Endpoint) (packet : List UInt8)
    (compressed : CompressedPacket) (haccepted : device.Accepted) (hdistinct : device.DistinctIds)
    (hdirection : receiver.direction = sender.direction)
    (haddress : receiver.address? = sender.address?)
    (hcompress : (compress device packet sender).1 = .ok compressed)
    (hexact : compressed.ExactOn device sender.direction packet) :
    decompress device receiver compressed.data =
        .ok ⟨packet, compressed.code, compressed.layered?⟩ ∧
      (compressed.layered?.isSome → ∃ marked code,
        compressed.withFragmentBit true = .ok marked ∧
          decompress device receiver marked.data = .ok ⟨packet, code, marked.layered?⟩) := by
  obtain ⟨hlen, ipv6, udp, coap, ipv6Rule?, udpRule?, coapRule?, hipv6, hudp, hcoap, hassemble⟩ :=
    compress_eq_ok hcompress
  obtain hcarries | ⟨-, hnone, hwhole⟩ :=
    carries_or_uncompressed hipv6 hudp hcoap haccepted _ hassemble
  · have hselection := hcarries.selection_eq
    have hparts := restoreParts_eq_ok haccepted hlen hipv6 hudp hcoap
      (hipv6.exactOn hexact (hselection ▸ rfl)) (hudp.exactOn hexact (hselection ▸ rfl))
      (hcoap.exactOn hexact (hselection ▸ rfl))
    have hrestore := restorePacket_parts hipv6 hudp hcoap haccepted hdistinct hlen
      ((Layer.application.dataOf packet).drop coap.consumed)
    rw [hparts, ← restorePacket_congr hdirection haddress] at hrestore
    refine ⟨by rw [hcarries.restored, hrestore]; rfl, fun hlayered => ?_⟩
    obtain ⟨marked, code, hmark, hmarked⟩ := hcarries.marked hlayered true
    exact ⟨marked, code, hmark, by rw [hmarked, hrestore]; rfl⟩
  · refine ⟨hwhole receiver, fun hlayered => ?_⟩
    rw [hnone] at hlayered
    cases hlayered

def sensorPacket : List UInt8 :=
  [0x60, 0, 0, 0, 0, 14, 17, 64] ++ List.replicate 16 0x2A ++ List.replicate 16 0x2B ++
    [0x16, 0x33, 0xF0, 0xB5, 0, 14, 0xAB, 0xCD] ++ [0x42, 1, 0x12, 0x34, 0xAA, 0xBB]

def sensorCompressed : CompressedPacket :=
  ⟨[0x14, 0x60, 0, 0, 0, 0, 14, 17, 64] ++ List.replicate 16 0x2A ++ List.replicate 16 0x2B ++
    [5, 0xAB, 0xCD] ++ [0, 2, 0x12, 0x34, 0xAA, 0xBB], ⟨0x14, 8⟩, some ⟨false, 0, 1, 1⟩, ⟨432, 400⟩⟩

theorem sensorCompressed_exactOn : sensorCompressed.ExactOn sensor .up sensorPacket := by
  intro layer rule hrule _ columns length hcolumns
  cases layer with
  | network => cases hrule
  | transport =>
    obtain rfl := List.mem_singleton.1 hrule
    have hload : Layer.columns .transport .up (Layer.transport.dataOf sensorPacket) =
        .ok (_, 8) := rfl
    cases hload.symm.trans hcolumns
    have hlength : natOfBytes [0, 14] = sensorPacket.length - ipv6HeaderLength ∧
        wordAt 4 sensorPacket ≠ [0, 0] ∧ wordAt 44 sensorPacket ≠ [0, 0] := by decide
    exact List.forall_mem_cons.2 ⟨.inl rfl, List.forall_mem_cons.2 ⟨trivial,
      List.forall_mem_cons.2 ⟨hlength, List.forall_mem_cons.2 ⟨trivial, List.forall_mem_nil _⟩⟩⟩⟩
  | application =>
    obtain rfl := List.mem_singleton.1 hrule
    cases columns_sensorColumns.symm.trans hcolumns
    exact List.forall_mem_cons.2 ⟨.inl rfl, List.forall_mem_cons.2 ⟨trivial,
      List.forall_mem_cons.2 ⟨trivial, List.forall_mem_cons.2 ⟨.inl rfl,
      List.forall_mem_cons.2 ⟨trivial, List.forall_mem_cons.2 ⟨trivial, List.forall_mem_nil _⟩⟩⟩⟩⟩⟩

theorem compress_sensorPacket :
    (compress sensor sensorPacket (.ofDirection .up)).1 = .ok sensorCompressed := by
  decide +kernel

theorem sensor_distinctIds : sensor.DistinctIds := by
  intro layer
  cases layer <;> decide

theorem sensor_packet_roundTrip :
    (compress sensor sensorPacket (.ofDirection .up)).1 = .ok sensorCompressed ∧
      sensorCompressed.selection sensor = ⟨none, some 1, some 1⟩ ∧
      decompress sensor (.ofDirection .up) sensorCompressed.data =
        .ok ⟨sensorPacket, ⟨0x14, 8⟩, some ⟨false, 0, 1, 1⟩⟩ :=
  ⟨compress_sensorPacket, rfl, (packet_roundTrip sensor (.ofDirection .up) (.ofDirection .up)
    sensorPacket sensorCompressed sensor_accepted sensor_distinctIds rfl rfl compress_sensorPacket
    sensorCompressed_exactOn).1⟩

end Device

end HeaderCompression
