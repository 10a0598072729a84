import HeaderCompression.Proofs.Packet.Heading
import HeaderCompression.Proofs.Packet.Payload
import HeaderCompression.Proofs.Rule.Reading

namespace HeaderCompression

open Packet

/-- How many bytes the residue of CoAP takes of the data behind the other headers; none of a message
that is sent as it is. -/
def messageResidueLength (rule? : Option Rule) (endpoint : Endpoint) (data : List UInt8) :
    Except Error Nat :=
  match rule? with
  | none => .ok 0
  | some rule => do
    let (_, decoder) ← restoreColumns rule endpoint data .none
    return decoder.tape.byteHead

namespace Device

def headersLength (device : Device) (endpoint : Endpoint) (selection : Selection)
    (body : List UInt8) : Except Error Nat := do
  let ipv6Rule? ← selection.network?.mapM (device.rule .network)
  let udpRule? ← selection.transport?.mapM (device.rule .transport)
  let coapRule? ← selection.application?.mapM (device.rule .application)
  let ipv6Length ← partLength ipv6Rule? endpoint.direction ipv6HeaderLength
  let udpLength ← partLength udpRule? endpoint.direction udpHeaderLength
  let coapLength ← messageResidueLength coapRule? endpoint (body.drop (ipv6Length + udpLength))
  return ipv6Length + udpLength + coapLength

def Computes (device : Device) (selection : Selection) (direction : Direction) : Prop :=
  ∃ layer id rule, selection.layer? layer = some id ∧ device.rule layer id = .ok rule ∧
    ∃ f ∈ rule.fieldsFor direction, f.isComputed

end Device

variable {device : Device} {endpoint : Endpoint} {data body message result ipv6 udp : List UInt8}
  {selection : Selection} {rule? ipv6Rule? udpRule? coapRule? : Option Rule} {pending : Pending}

theorem restoreMessage_of_take (hwf : ∀ rule ∈ rule?, rule.WellFormed)
    (h : restoreMessage rule? endpoint data .none = .ok (message, pending)) :
    ∃ count header, messageResidueLength rule? endpoint data = .ok count ∧ count ≤ data.length ∧
      (∀ k < count, ∀ result, restoreMessage rule? endpoint (data.take k) .none ≠ .ok result) ∧
      ∀ rest, restoreMessage rule? endpoint (data.take count ++ rest) .none =
        .ok (header ++ rest, pending) := by
  cases rule? with
  | none =>
    cases h
    refine ⟨0, [], rfl, Nat.zero_le _, fun k hk => (Nat.not_lt_zero k hk).elim, fun rest => ?_⟩
    rw [List.take_zero]
    rfl
  | some rule =>
    have hrule := hwf rule rfl
    obtain ⟨⟨columns, decoder⟩, hrun, h⟩ := bind_eq_ok_iff.1 h
    obtain ⟨header, hheader, h⟩ := bind_eq_ok_iff.1 h
    cases h
    have hrestore := restoreColumns_eq_ok_iff.1 hrun
    refine ⟨decoder.tape.byteHead, header, bind_eq_ok_iff.2 ⟨_, hrun, rfl⟩, ?_, ?_, ?_⟩
    · exact hrule.byteHead_le hrestore
    · intro k hk result hcut
      obtain ⟨⟨columns', decoder'⟩, hrun', -⟩ := bind_eq_ok_iff.1 hcut
      exact hrule.restore_take_ne_ok hrestore hk (restoreColumns_eq_ok_iff.1 hrun')
    · intro rest
      have hrun' := restoreColumns_eq_ok_iff.2 (hrule.restore_take_append hrestore rest)
      refine bind_eq_ok_iff.2 ⟨_, hrun', bind_eq_ok_iff.2 ⟨_, hheader, ?_⟩⟩
      dsimp only [Decoder.behind]
      rw [BitTape.byteHead_behind, List.drop_left]
      rfl

/-- Layers that leave nothing to be computed are restored to a header, and what stands behind the
residue of CoAP to itself. -/
theorem restoreParts_of_take {coap : List UInt8} (hwf : ∀ rule ∈ coapRule?, rule.WellFormed)
    (h : restoreParts ipv6Rule? udpRule? coapRule? endpoint ipv6 udp coap = .ok result) :
    ∃ count, messageResidueLength coapRule? endpoint coap = .ok count ∧ count ≤ coap.length ∧
      (∀ k < count, ∀ result, restoreParts ipv6Rule? udpRule? coapRule? endpoint ipv6 udp
        (coap.take k) ≠ .ok result) ∧
      (Rule.leaveAll ipv6Rule? udpRule? coapRule? endpoint.direction = .none →
        ∃ header, ∀ rest, restoreParts ipv6Rule? udpRule? coapRule? endpoint ipv6 udp
          (coap.take count ++ rest) = .ok (header ++ rest)) := by
  obtain ⟨message, front, middle, pending, pending', pending'', hmessage, hmiddle, hfront, -⟩ :=
    restoreParts_eq_ok_iff_layers.1 h
  obtain ⟨count, header, hcount, hle, hcut, hrest⟩ := restoreMessage_of_take hwf hmessage
  refine ⟨count, hcount, hle, fun k hk result hshort => ?_, fun hnone => ?_⟩
  · obtain ⟨_, _, _, _, _, _, hmessage', -⟩ := restoreParts_eq_ok_iff_layers.1 hshort
    exact hcut k hk _ hmessage'
  · refine ⟨front ++ middle ++ header, fun rest => ?_⟩
    have hpending : pending'' = .none := by
      rw [(restoreHeader_leaves hfront).1, (restoreHeader_leaves hmiddle).1,
        (restoreMessage_leaves hmessage).1]
      exact hnone
    subst hpending
    refine restoreParts_eq_ok_iff_layers.2 ⟨_, front, middle, pending, pending', .none, hrest rest,
      hmiddle, hfront, ?_⟩
    rw [List.append_assoc (front ++ middle)]
    rfl

theorem Rule.leave_of_not_computed {direction : Direction}
    (h : ¬ ∃ rule ∈ rule?, ∃ f ∈ rule.fieldsFor direction, f.isComputed) (pending : Pending) :
    Rule.leave rule? direction pending = pending := by
  rw [Rule.any_computed_iff, not_or, Bool.not_eq_true, Bool.not_eq_true] at h
  rw [leave, h.1, h.2, Bool.or_false, Bool.or_false]

namespace Device.Resolves

variable (h : device.Resolves selection ipv6Rule? udpRule? coapRule?)

include h in
theorem leaveAll_eq_none {direction : Direction} (hnot : ¬ device.Computes selection direction) :
    Rule.leaveAll ipv6Rule? udpRule? coapRule? direction = .none := by
  have hlayer {layer : Layer} {rule? : Option Rule}
      (hmap : (selection.layer? layer).mapM (device.rule layer) = .ok rule?) :
      ¬ ∃ rule ∈ rule?, ∃ f ∈ rule.fieldsFor direction, f.isComputed := by
    rintro ⟨rule, hrule, hcomputed⟩
    obtain ⟨hid, hrules⟩ := Device.of_mapM_rule_eq_ok hmap
    cases hrule
    exact hnot ⟨layer, rule.id, rule, hid, (hrules rule rfl).2, hcomputed⟩
  have hnetwork := @hlayer .network _ h.network
  have htransport := @hlayer .transport _ h.transport
  have happlication := @hlayer .application _ h.application
  rw [Rule.leaveAll, Rule.leave_of_not_computed happlication,
    Rule.leave_of_not_computed htransport, Rule.leave_of_not_computed hnetwork]

include h in
theorem eq {ipv6Rule?' udpRule?' coapRule?' : Option Rule}
    (h' : device.Resolves selection ipv6Rule?' udpRule?' coapRule?') :
    ipv6Rule? = ipv6Rule?' ∧ udpRule? = udpRule?' ∧ coapRule? = coapRule?' :=
  ⟨Except.ok.inj (h.network.symm.trans h'.network),
    Except.ok.inj (h.transport.symm.trans h'.transport),
    Except.ok.inj (h.application.symm.trans h'.application)⟩

end Device.Resolves

/-- The headers behind the id end at a place that every shorter body misses. -/
theorem Device.Accepted.restorePacket_of_take (haccepted : device.Accepted)
    (h : restorePacket device endpoint selection body = .ok result) :
    ∃ length, device.headersLength endpoint selection body = .ok length ∧ length ≤ body.length ∧
      (∀ k < length, ∀ result,
        restorePacket device endpoint selection (body.take k) ≠ .ok result) ∧
      (¬ device.Computes selection endpoint.direction → ∃ header, ∀ rest,
        restorePacket device endpoint selection (body.take length ++ rest) =
          .ok (header ++ rest)) := by
  obtain ⟨ipv6Rule?, udpRule?, coapRule?, ipv6Length, udpLength, hrules, hipv6Length, hudpLength,
    hlen, hparts⟩ := restorePacket_eq_ok_iff.1 h
  have hwf : ∀ rule ∈ coapRule?, rule.WellFormed := fun rule hrule =>
    haccepted.wellFormed .application rule (hrules.mem_application rule hrule)
  obtain ⟨count, hcount, hle, hcut, hrest⟩ := restoreParts_of_take hwf hparts
  rw [List.length_drop] at hle
  refine ⟨ipv6Length + udpLength + count, ?_, by omega, ?_, ?_⟩
  · exact bind_eq_ok_iff.2 ⟨_, hrules.network, bind_eq_ok_iff.2 ⟨_, hrules.transport,
      bind_eq_ok_iff.2 ⟨_, hrules.application, bind_eq_ok_iff.2 ⟨_, hipv6Length,
      bind_eq_ok_iff.2 ⟨_, hudpLength, bind_eq_ok_iff.2 ⟨_, hcount, rfl⟩⟩⟩⟩⟩⟩
  · intro k hk other hshort
    obtain ⟨ipv6Rule?', udpRule?', coapRule?', ipv6Length', udpLength', hrules', hipv6Length',
      hudpLength', hlen', hparts'⟩ := restorePacket_eq_ok_iff.1 hshort
    obtain ⟨rfl, rfl, rfl⟩ := hrules.eq hrules'
    obtain rfl := Except.ok.inj (hipv6Length.symm.trans hipv6Length')
    obtain rfl := Except.ok.inj (hudpLength.symm.trans hudpLength')
    rw [List.length_take] at hlen'
    have hipv6 : (body.take k).take ipv6Length = body.take ipv6Length := by
      rw [List.take_take, Nat.min_eq_left (by omega)]
    have hudp : ((body.take k).drop ipv6Length).take udpLength =
        (body.drop ipv6Length).take udpLength := by
      rw [List.drop_take, List.take_take, Nat.min_eq_left (by omega)]
    rw [hipv6, hudp, List.drop_take] at hparts'
    exact hcut _ (by omega) other hparts'
  · intro hnot
    obtain ⟨header, hheader⟩ := hrest (hrules.leaveAll_eq_none hnot)
    refine ⟨header, fun rest => restorePacket_eq_ok_iff.2 ⟨ipv6Rule?, udpRule?, coapRule?,
      ipv6Length, udpLength, hrules, hipv6Length, hudpLength, ?_, ?_⟩⟩
    · rw [List.length_append, List.length_take_of_le (by omega)]
      omega
    · have hfront : body.take (ipv6Length + udpLength + count) = body.take ipv6Length ++
          ((body.drop ipv6Length).take udpLength ++
            (body.drop (ipv6Length + udpLength)).take count) := by
        rw [Nat.add_assoc, List.take_add, List.take_add, List.drop_drop]
      have hipv6 : (body.take ipv6Length).length = ipv6Length := List.length_take_of_le (by omega)
      have hudp : ((body.drop ipv6Length).take udpLength).length = udpLength := by
        rw [List.length_take_of_le]
        rw [List.length_drop]
        omega
      rw [hfront, List.append_assoc, List.take_left' hipv6, List.drop_left' hipv6,
        List.append_assoc, List.take_left' hudp, ← List.drop_drop, List.drop_left' hipv6,
        List.drop_left' hudp]
      exact hheader rest

namespace Device

/-- The headers of a compressed packet are delimited: a packet that is cut before their end is an
error, and if nothing has to be computed, what stands behind them comes back behind the same
bytes. -/
theorem headers_delimited (device : Device) (haccepted : device.Accepted) (endpoint : Endpoint)
    (data : List UInt8) (heading : Heading) (hheading : device.heading? data = some heading)
    (restored : RestoredPacket) (hrestore : decompress device endpoint data = .ok restored) :
    ∃ length, device.headersLength endpoint heading.selection
        (data.drop heading.code.byteCount) = .ok length ∧
      heading.code.byteCount + length ≤ data.length ∧
      (∀ k < heading.code.byteCount + length, ∃ error,
        decompress device endpoint (data.take k) = .error error) ∧
      (¬ device.Computes heading.selection endpoint.direction → ∃ header, ∀ rest,
        decompress device endpoint (data.take (heading.code.byteCount + length) ++ rest) =
          .ok { restored with data := header ++ rest }) := by
  obtain ⟨hpos, hle, hfound⟩ := haccepted.heading?_of_take hheading
  rw [decompress_eq hheading] at hrestore
  obtain ⟨packet, hpacket, rfl⟩ := map_eq_ok_iff.1 hrestore
  obtain ⟨length, hlength, hlen, hcut, hrest⟩ := haccepted.restorePacket_of_take hpacket
  rw [List.length_drop] at hlen
  refine ⟨length, hlength, by omega, fun k hk => ?_, fun hnot => ?_⟩
  · by_cases hshort : k < heading.code.byteCount
    · exact haccepted.decompress_cut_heading hheading endpoint hshort
    · have htake : data.take heading.code.byteCount <+: data.take k :=
        List.take_prefix_take_left (Nat.not_lt.1 hshort)
      have hheading' := hfound _ htake
      cases hrun : decompress device endpoint (data.take k) with
      | error error => exact ⟨error, rfl⟩
      | ok other =>
        rw [decompress_eq hheading', List.drop_take] at hrun
        obtain ⟨result, hresult, -⟩ := map_eq_ok_iff.1 hrun
        exact (hcut _ (by omega) result hresult).elim
  · obtain ⟨header, hheader⟩ := hrest hnot
    refine ⟨header, fun rest => ?_⟩
    have htake : data.take (heading.code.byteCount + length) =
        data.take heading.code.byteCount ++ (data.drop heading.code.byteCount).take length :=
      List.take_add ..
    have hid : (data.take heading.code.byteCount).length = heading.code.byteCount :=
      List.length_take_of_le hle
    rw [htake, List.append_assoc]
    rw [decompress_eq (hfound _ (List.prefix_append ..)), List.drop_left' hid, hheader rest]
    rfl

/-- A packet whose CoAP header is under a rule, and its other headers sent as they are. -/
def sensorMessage : List UInt8 :=
  0x10 :: sensorPacket.take 48 ++ [0, 2, 0x12, 0x34, 0xAA, 0xBB]

theorem sensor_computes_nothing :
    ¬ sensor.Computes ⟨none, none, some 1⟩ .up := by
  rintro ⟨layer, id, rule, hid, hrule, f, hf, hcomputed⟩
  cases layer with
  | network => cases hid
  | transport => cases hid
  | application =>
    cases hid
    have hhead : sensor.rule .application 1 = .ok (sensor.coapRules.head (by decide)) := by decide
    cases hhead.symm.trans hrule
    revert hcomputed
    revert f
    decide

theorem sensor_headers_delimited :
    (∀ k < 55, ∃ error,
      decompress sensor (.ofDirection .up) (sensorMessage.take k) = .error error) ∧
    ∃ header, ∀ rest,
      decompress sensor (.ofDirection .up) (sensorMessage ++ rest) =
        .ok ⟨header ++ rest, ⟨0x10, 8⟩, some ⟨false, 0, 0, 1⟩⟩ := by
  have hheading : sensor.heading? sensorMessage =
      some ⟨⟨none, none, some 1⟩, ⟨0x10, 8⟩, some ⟨false, 0, 0, 1⟩⟩ := by decide +kernel
  have hrestore : decompress sensor (.ofDirection .up) sensorMessage =
      .ok ⟨sensorPacket.take 48 ++ [0x42, 1, 0x12, 0x34, 0xAA, 0xBB], ⟨0x10, 8⟩,
        some ⟨false, 0, 0, 1⟩⟩ := by decide +kernel
  obtain ⟨length, hlength, -, hcut, hrest⟩ := headers_delimited sensor sensor_accepted
    (.ofDirection .up) sensorMessage _ hheading _ hrestore
  have hall : sensor.headersLength (.ofDirection .up) ⟨none, none, some 1⟩
      (sensorMessage.drop 1) = .ok 54 := by decide +kernel
  obtain rfl : length = 54 := Except.ok.inj (hlength.symm.trans hall)
  exact ⟨hcut, hrest sensor_computes_nothing⟩

end Device

end HeaderCompression
