import HeaderCompression.Proofs.Packet.RoundTrip
import HeaderCompression.Proofs.Rule.Pending

namespace HeaderCompression

open Packet

variable {device : Device} {layer : Layer} {endpoint : Endpoint} {data packet bytes : List UInt8}
  {sent ipv6 udp coap : SentLayer} {rule : Rule} {rule? ipv6Rule? udpRule? coapRule? : Option Rule}
  {columns : List Column} {compressed : CompressedPacket} {pending pending' : Pending}
  {decoder : Decoder} {message header result : List UInt8}

namespace Rule

/-- What the rule of a layer leaves to be computed, if there is one, on top of what is left so
far. -/
def leave (rule? : Option Rule) (direction : Direction) (pending : Pending) : Pending :=
  ⟨pending.length || rule?.any (·.leavesLength direction),
    pending.checksum || rule?.any (·.leavesChecksum direction)⟩

theorem leave_none (direction : Direction) (pending : Pending) :
    leave none direction pending = pending := by
  simp [leave]

end Rule

theorem pending_of_restoreColumns
    (h : restoreColumns rule endpoint data pending = .ok (columns, decoder)) :
    decoder.pending = Rule.leave (some rule) endpoint.direction pending := by
  rw [restoreColumns] at h
  split at h
  · rename_i hrestore
    cases h
    exact Rule.pending_of_restore hrestore
  · cases h

theorem restoreMessage_leaves
    (h : restoreMessage rule? endpoint data pending = .ok (message, pending')) :
    pending' = Rule.leave rule? endpoint.direction pending ∧ (rule? = none → message = data) := by
  cases rule? with
  | none =>
    cases h
    exact ⟨(Rule.leave_none ..).symm, fun _ => rfl⟩
  | some rule =>
    obtain ⟨⟨columns, decoder⟩, hrun, h⟩ := bind_eq_ok_iff.1 h
    obtain ⟨header, -, h⟩ := bind_eq_ok_iff.1 h
    cases h
    exact ⟨pending_of_restoreColumns hrun, fun hnone => by cases hnone⟩

theorem restoreHeader_leaves
    (h : restoreHeader layer rule? endpoint data pending = .ok (header, pending')) :
    pending' = Rule.leave rule? endpoint.direction pending ∧ (rule? = none → header = data) := by
  cases rule? with
  | none =>
    cases h
    exact ⟨(Rule.leave_none ..).symm, fun _ => rfl⟩
  | some rule =>
    obtain ⟨⟨columns, decoder⟩, hrun, h⟩ := bind_eq_ok_iff.1 h
    obtain ⟨built, -, h⟩ := bind_eq_ok_iff.1 h
    cases h
    exact ⟨pending_of_restoreColumns hrun, fun hnone => by cases hnone⟩

theorem length_of_restoreHeader {length : Nat} (hlen : rule? = none → data.length = length)
    (hbuilt : ∀ columns header, layer.header endpoint.direction columns = .ok header →
      header.length = length)
    (h : restoreHeader layer rule? endpoint data pending = .ok (header, pending')) :
    header.length = length := by
  cases rule? with
  | none =>
    cases h
    exact hlen rfl
  | some rule =>
    obtain ⟨⟨columns, decoder⟩, -, h⟩ := bind_eq_ok_iff.1 h
    obtain ⟨built, hbuild, h⟩ := bind_eq_ok_iff.1 h
    cases h
    exact hbuilt columns _ hbuild

theorem length_of_header_network {direction : Direction}
    (h : Layer.network.header direction columns = .ok header) : header.length = 40 :=
  Layout.length_of_header_eq_ok ((Layout.ofColumns_ipv6 ..).symm.trans h)

theorem length_of_header_transport {direction : Direction}
    (h : Layer.transport.header direction columns = .ok header) : header.length = 8 :=
  Layout.length_of_header_eq_ok ((Layout.ofColumns_udp ..).symm.trans h)

/-- The layers of a restored packet before anything is computed in it: headers of their fixed
lengths, and the bytes of the packet for layers without a rule. -/
structure RestoredLayers (ipv6Rule? udpRule? coapRule? : Option Rule)
    (packet front middle back : List UInt8) : Prop where
  ipv6Length : front.length = 40
  udpLength : middle.length = 8
  ipv6Verbatim : ipv6Rule? = none → front = Layer.network.dataOf packet
  udpVerbatim : udpRule? = none → middle = Layer.transport.dataOf packet
  coapVerbatim : coapRule? = none → back = Layer.application.dataOf packet

def CompressedPacket.LeavesLength (compressed : CompressedPacket) (device : Device) (layer : Layer)
    (direction : Direction) : Prop :=
  ∃ rule ∈ device.rules layer, (compressed.selection device).layer? layer = some rule.id ∧
    rule.leavesLength direction

namespace SentLayer.SentAs

variable (h : SentAs device layer endpoint data sent rule?)

include h in
theorem rule?_eq_none_iff : rule? = none ↔ sent.rule? = none := by
  cases h <;> simp [SentLayer.verbatim]

include h in
theorem bytes_eq (hnone : rule? = none) : sent.bytes = data := by
  cases h with
  | verbatim => rfl
  | rule h => cases hnone

include h in
theorem bytes_append_drop (hnone : rule? = none) :
    sent.bytes ++ data.drop sent.consumed = data := by
  cases h with
  | verbatim => simp [SentLayer.verbatim]
  | rule h => cases hnone

include h in
theorem exists_selected_iff (hdistinct : device.DistinctIds)
    (hselected : (compressed.selection device).layer? layer = sent.rule?) (P : Rule → Prop) :
    (∃ rule ∈ device.rules layer, (compressed.selection device).layer? layer = some rule.id ∧
      P rule) ↔ ∃ rule ∈ rule?, P rule := by
  rw [hselected]
  cases h with
  | verbatim => simp [SentLayer.verbatim]
  | @rule rule _ _ _ h =>
    simp only [Option.some.injEq, Option.mem_def, exists_eq_left']
    constructor
    · rintro ⟨other, hother, hid, hother'⟩
      rwa [List.inj_on_of_nodup_map (hdistinct layer) h.mem hother hid]
    · intro hrule
      exact ⟨rule, h.mem, rfl, hrule⟩

include h in
theorem leavesLength_iff (hdistinct : device.DistinctIds)
    (hselected : (compressed.selection device).layer? layer = sent.rule?) :
    compressed.LeavesLength device layer endpoint.direction ↔
      rule?.any (·.leavesLength endpoint.direction) := by
  rw [CompressedPacket.LeavesLength, h.exists_selected_iff hdistinct hselected]
  cases rule? <;> simp

include h in
theorem any_leavesLength (haccepted : device.Accepted) (hlayer : layer = .application) :
    rule?.any (·.leavesLength endpoint.direction) = false := by
  cases h with
  | verbatim => rfl
  | rule h => exact h.leavesLength_eq_false haccepted hlayer

include h in
theorem any_leavesChecksum (haccepted : device.Accepted) (hlayer : layer ≠ .transport) :
    rule?.any (·.leavesChecksum endpoint.direction) = false := by
  cases h with
  | verbatim => rfl
  | rule h => exact h.leavesChecksum_eq_false haccepted hlayer

end SentLayer.SentAs

section Layers

variable (hipv6 : SentLayer.SentAs device .network endpoint (Layer.network.dataOf packet) ipv6
    ipv6Rule?)
  (hudp : SentLayer.SentAs device .transport endpoint (Layer.transport.dataOf packet) udp udpRule?)
  (hcoap : SentLayer.SentAs device .application endpoint (Layer.application.dataOf packet) coap
    coapRule?)

include hipv6 hcoap in
/-- Of the three layers, CoAP leaves nothing to be computed and IPv6 no checksum. -/
theorem leave_layers (udpRule? : Option Rule) (haccepted : device.Accepted) :
    Rule.leave ipv6Rule? endpoint.direction (Rule.leave udpRule? endpoint.direction
        (Rule.leave coapRule? endpoint.direction .none)) =
      ⟨udpRule?.any (·.leavesLength endpoint.direction) ||
          ipv6Rule?.any (·.leavesLength endpoint.direction),
        udpRule?.any (·.leavesChecksum endpoint.direction)⟩ := by
  simp only [Rule.leave, Pending.none, hcoap.any_leavesLength haccepted rfl,
    hcoap.any_leavesChecksum haccepted (by decide), hipv6.any_leavesChecksum haccepted (by decide),
    Bool.false_or, Bool.or_false]

include hipv6 hudp hcoap in
theorem restoreParts_completed (haccepted : device.Accepted)
    (hlen : ipv6HeaderLength + udpHeaderLength ≤ packet.length)
    (h : restoreParts ipv6Rule? udpRule? coapRule? endpoint ipv6.bytes udp.bytes
      (coap.bytes ++ (Layer.application.dataOf packet).drop coap.consumed) = .ok result) :
    ∃ front middle back, RestoredLayers ipv6Rule? udpRule? coapRule? packet front middle back ∧
      ((udpRule?.any (·.leavesLength endpoint.direction) ||
        ipv6Rule?.any (·.leavesLength endpoint.direction)) →
          middle.length + back.length < 65536) ∧
      result = completed ⟨udpRule?.any (·.leavesLength endpoint.direction) ||
          ipv6Rule?.any (·.leavesLength endpoint.direction),
        udpRule?.any (·.leavesChecksum endpoint.direction)⟩ front middle back := by
  obtain ⟨⟨back, pending⟩, hback, h⟩ := bind_eq_ok_iff.1 h
  obtain ⟨⟨middle, pending'⟩, hmiddle, h⟩ := bind_eq_ok_iff.1 h
  obtain ⟨⟨front, pending''⟩, hfront, h⟩ := bind_eq_ok_iff.1 h
  have hfrontLength := length_of_restoreHeader
    (fun hnone => by rw [hipv6.bytes_eq hnone, Layer.length_network hlen])
    (fun _ _ => length_of_header_network) hfront
  have hmiddleLength := length_of_restoreHeader
    (fun hnone => by rw [hudp.bytes_eq hnone, Layer.length_transport hlen])
    (fun _ _ => length_of_header_transport) hmiddle
  obtain ⟨rfl, hcoapVerbatim⟩ := restoreMessage_leaves hback
  obtain ⟨rfl, hudpVerbatim⟩ := restoreHeader_leaves hmiddle
  obtain ⟨rfl, hipv6Verbatim⟩ := restoreHeader_leaves hfront
  dsimp only at h
  split at h
  · rename_i hcomplete
    cases h
    obtain ⟨hlt, hresult⟩ := (complete_eq_ok_iff hfrontLength hmiddleLength).1 hcomplete
    rw [leave_layers hipv6 hcoap udpRule? haccepted] at hlt hresult
    exact ⟨front, middle, back, ⟨hfrontLength, hmiddleLength,
      fun hnone => (hipv6Verbatim hnone).trans (hipv6.bytes_eq hnone),
      fun hnone => (hudpVerbatim hnone).trans (hudp.bytes_eq hnone),
      fun hnone => (hcoapVerbatim hnone).trans (hcoap.bytes_append_drop hnone)⟩,
      fun hleft => hlt (.inl hleft), hresult⟩
  · cases h

end Layers

namespace Device

/-- A layer that is sent as it is comes back byte for byte, unless another layer leaves its length
to be computed and the length of this one is zero. A CoAP message always comes back. -/
theorem verbatim_iff (device : Device) (sender receiver : Endpoint) (packet : List UInt8)
    (compressed : CompressedPacket) (restored : RestoredPacket) (haccepted : device.Accepted)
    (hdistinct : device.DistinctIds) (hdirection : receiver.direction = sender.direction)
    (haddress : receiver.address? = sender.address?)
    (hcompress : (compress device packet sender).1 = .ok compressed)
    (hrestore : decompress device receiver compressed.data = .ok restored) :
    ((compressed.selection device).network? = none →
      (restored.data.take 40 = packet.take 40 ↔
        ¬ (compressed.LeavesLength device .transport sender.direction ∧
          wordAt 4 packet = [0, 0]))) ∧
    ((compressed.selection device).transport? = none →
      ((restored.data.drop 40).take 8 = (packet.drop 40).take 8 ↔
        ¬ (compressed.LeavesLength device .network sender.direction ∧
          wordAt 44 packet = [0, 0]))) ∧
    ((compressed.selection device).application? = none →
      restored.data.drop 48 = packet.drop 48) := by
  obtain ⟨hlen, ipv6, udp, coap, ipv6Rule?, udpRule?, coapRule?, hipv6, hudp, hcoap, hassemble⟩ :=
    compress_eq_ok hcompress
  obtain hcarries | ⟨hselection, -, hwhole⟩ :=
    carries_or_uncompressed hipv6 hudp hcoap haccepted _ hassemble
  · have hselection := hcarries.selection_eq
    rw [hcarries.restored, restorePacket_congr hdirection haddress,
      restorePacket_parts hipv6 hudp hcoap haccepted hdistinct hlen] at hrestore
    obtain ⟨result, hresult, rfl⟩ := map_eq_ok_iff.1 hrestore
    obtain ⟨front, middle, back, hlayers, hlt, rfl⟩ :=
      restoreParts_completed hipv6 hudp hcoap haccepted hlen hresult
    have hpos : 0 < middle.length + back.length := by
      rw [hlayers.udpLength]
      omega
    rw [hselection]
    refine ⟨fun hnone => ?_, fun hnone => ?_, fun hnone => ?_⟩
    · obtain rfl := hipv6.rule?_eq_none_iff.2 hnone
      have hfront : packet.take 40 = front := (hlayers.ipv6Verbatim rfl).symm
      simp only [Option.any_none, Bool.or_false] at hlt
      rw [completed_take hlayers.ipv6Length, hudp.leavesLength_iff hdistinct (hselection ▸ rfl),
        Layer.wordAt_network hlen, ← hlayers.ipv6Verbatim rfl, hfront, Option.any_none,
        Bool.or_false]
      exact ite_fillWord_eq_self_iff hpos hlt
    · obtain rfl := hudp.rule?_eq_none_iff.2 hnone
      have hmiddle : (packet.drop 40).take 8 = middle := (hlayers.udpVerbatim rfl).symm
      simp only [Option.any_none, Bool.false_or] at hlt
      rw [completed_udp hlayers.ipv6Length hlayers.udpLength rfl,
        hipv6.leavesLength_iff hdistinct (hselection ▸ rfl), Layer.wordAt_transport hlen,
        ← hlayers.udpVerbatim rfl, hmiddle, Option.any_none, Bool.false_or]
      exact ite_fillWord_eq_self_iff hpos hlt
    · obtain rfl := hcoap.rule?_eq_none_iff.2 hnone
      rw [completed_drop hlayers.ipv6Length hlayers.udpLength, hlayers.coapVerbatim rfl,
        Layer.dataOf, List.drop_drop]
      rfl
  · rw [hwhole] at hrestore
    cases hrestore
    have hnone (layer : Layer) : ¬ compressed.LeavesLength device layer sender.direction := by
      rintro ⟨rule, -, hselected, -⟩
      rw [hselection] at hselected
      cases layer <;> cases hselected
    simp [hnone]

theorem sensor_verbatim_iff :
    ∃ restored, decompress sensor (.ofDirection .up) sensorCompressed.data = .ok restored ∧
      sensorCompressed.LeavesLength sensor .transport .up ∧
      restored.data.take 40 = sensorPacket.take 40 := by
  have hrestore : decompress sensor (.ofDirection .up) sensorCompressed.data =
      .ok ⟨sensorPacket, ⟨0x14, 8⟩, some ⟨false, 0, 1, 1⟩⟩ := by decide +kernel
  have hword : wordAt 4 sensorPacket ≠ [0, 0] := by decide
  have h := verbatim_iff sensor (.ofDirection .up) (.ofDirection .up) sensorPacket sensorCompressed
    _ sensor_accepted sensor_distinctIds rfl rfl compress_sensorPacket hrestore
  exact ⟨_, hrestore, ⟨_, List.mem_singleton_self _, rfl, by decide⟩,
    (h.1 rfl).2 fun hzero => hword hzero.2⟩

def lengthlessPacket : List UInt8 :=
  [0x60, 0, 0, 0, 0, 0, 17, 64] ++ sensorPacket.drop 8

def lengthlessCompressed : CompressedPacket :=
  { sensorCompressed with
    data := [0x14, 0x60, 0, 0, 0, 0, 0, 17, 64] ++ sensorCompressed.data.drop 9 }

/-- The length of UDP is left to be computed, and the one of IPv6 is computed with it. -/
theorem verbatim_not_kept :
    ¬ ∀ (device : Device) (endpoint : Endpoint) (packet : List UInt8)
        (compressed : CompressedPacket) (restored : RestoredPacket),
      device.Accepted → device.DistinctIds → 48 ≤ packet.length →
      (compress device packet endpoint).1 = .ok compressed →
      decompress device endpoint compressed.data = .ok restored →
      ((compressed.selection device).network? = none →
        restored.data.take 40 = packet.take 40) ∧
      ((compressed.selection device).transport? = none →
        (restored.data.drop 40).take 8 = (packet.drop 40).take 8) ∧
      ((compressed.selection device).application? = none →
        restored.data.drop 48 = packet.drop 48) := by
  intro h
  have hcompress : (compress sensor lengthlessPacket (.ofDirection .up)).1 =
      .ok lengthlessCompressed := by decide +kernel
  have hrestore : decompress sensor (.ofDirection .up) lengthlessCompressed.data =
      .ok ⟨sensorPacket, ⟨0x14, 8⟩, some ⟨false, 0, 1, 1⟩⟩ := by decide +kernel
  have hkept := (h sensor (.ofDirection .up) lengthlessPacket lengthlessCompressed _ sensor_accepted
    sensor_distinctIds (by decide) hcompress hrestore).1 rfl
  exact absurd hkept (by decide)

end Device

end HeaderCompression
