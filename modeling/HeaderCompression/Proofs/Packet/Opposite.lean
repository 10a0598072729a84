import HeaderCompression.Proofs.Packet.Exchange
import HeaderCompression.Proofs.Packet.Extension
import HeaderCompression.Proofs.Rule.Restored

namespace HeaderCompression

open Packet

def Endpoint.opposite (endpoint : Endpoint) : Endpoint :=
  { endpoint with direction := endpoint.direction.opposite }

def Rule.Bidirectional (rule : Rule) : Prop :=
  ∀ f ∈ rule.fields, f.direction? = none

def Device.Bidirectional (device : Device) : Prop :=
  ∀ layer, ∀ rule ∈ device.rules layer, rule.Bidirectional

variable {device : Device} {layer : Layer} {rule : Rule} {rule? : Option Rule}
  {columns : List Column} {endpoint : Endpoint} {packet data body header result : List UInt8}
  {pending pending' : Pending} {selection : Selection} {compressed : CompressedPacket}

theorem Endpoint.opposite_opposite (endpoint : Endpoint) : endpoint.opposite.opposite = endpoint := by
  rw [opposite, opposite]
  dsimp only
  rw [Direction.opposite_opposite]

theorem Layer.dataOf_exchangeEnds (layer : Layer)
    (h : ipv6HeaderLength + udpHeaderLength ≤ packet.length) :
    layer.dataOf (Packet.exchangeEnds packet) = layer.exchangeEnds (layer.dataOf packet) := by
  have hipv6 := length_exchange_ipv6 (length_network h)
  have hudp := length_exchange_udp (length_transport h)
  have hparts := exchangeEnds_parts (Layer.application.dataOf packet) (length_network h)
    (length_transport h)
  rw [dataOf_append, List.append_assoc] at hparts
  rw [hparts]
  cases layer with
  | network => exact List.take_left' hipv6
  | transport =>
    exact (congrArg (List.take 8) (List.drop_left' hipv6)).trans (List.take_left' hudp)
  | application =>
    exact (congrArg (List.drop 8) (List.drop_left' hipv6)).trans (List.drop_left' hudp)

theorem Layer.length_dataOf_exchangeEnds (layer : Layer)
    (h : ipv6HeaderLength + udpHeaderLength ≤ packet.length) :
    (layer.dataOf (Packet.exchangeEnds packet)).length = (layer.dataOf packet).length := by
  rw [layer.dataOf_exchangeEnds h]
  cases layer with
  | network => exact length_exchange (by rw [length_network h])
  | transport => exact length_exchange (by rw [length_transport h]; decide)
  | application => rfl

theorem Layer.columns_dataOf_exchangeEnds (layer : Layer) (direction : Direction)
    (h : ipv6HeaderLength + udpHeaderLength ≤ packet.length) :
    layer.columns direction.opposite (layer.dataOf (Packet.exchangeEnds packet)) =
      layer.columns direction (layer.dataOf packet) := by
  rw [layer.dataOf_exchangeEnds h]
  apply columns_exchangeEnds
  · rintro rfl
    exact length_network h
  · rintro rfl
    exact length_transport h

namespace Rule.Bidirectional

variable (h : rule.Bidirectional)

include h in
theorem fieldsFor_eq (direction : Direction) : rule.fieldsFor direction = rule.fields := by
  rw [fieldsFor, List.filter_eq_self]
  intro f hf
  rw [RuleField.appliesTo, h f hf]
  rfl

include h in
theorem accepts_eq (direction other : Direction) :
    rule.accepts columns direction = rule.accepts columns other := by
  rw [accepts, accepts, h.fieldsFor_eq direction, h.fieldsFor_eq other]

include h in
theorem residue_opposite (endpoint : Endpoint) (columns : List Column) :
    rule.residue endpoint.opposite columns = rule.residue endpoint columns := by
  unfold residue
  rw [h.fieldsFor_eq, h.fieldsFor_eq]
  rfl

include h in
theorem residueLength_eq (direction other : Direction) :
    rule.residueLength direction = rule.residueLength other := by
  rw [residueLength, residueLength, h.fieldsFor_eq direction, h.fieldsFor_eq other]

include h in
theorem restore_opposite (endpoint : Endpoint) : rule.restore endpoint.opposite =
    rule.restore endpoint := by
  unfold restore
  rw [h.fieldsFor_eq, h.fieldsFor_eq]
  rfl

include h in
theorem restoreColumns_opposite (endpoint : Endpoint) (data : List UInt8) (pending : Pending) :
    restoreColumns rule endpoint.opposite data pending =
      restoreColumns rule endpoint data pending := by
  unfold restoreColumns
  rw [h.restore_opposite]

end Rule.Bidirectional

theorem Rule.select?_eq {rules : List Rule} (h : ∀ rule ∈ rules, rule.Bidirectional)
    (columns : List Column) (direction other : Direction) :
    select? rules columns direction = select? rules columns other :=
  List.find?_congr fun rule hrule => (h rule hrule).accepts_eq direction other

section Sent

def Device.selected? (device : Device) (layer : Layer) (packet : List UInt8)
    (endpoint : Endpoint) : Option Rule :=
  match layer.columns endpoint.direction (layer.dataOf packet) with
  | .error _ => none
  | .ok (columns, _) => Rule.select? (device.rules layer) columns endpoint.direction

variable (hboth : device.Bidirectional)
  (hlen : ipv6HeaderLength + udpHeaderLength ≤ packet.length)

include hboth hlen in
theorem Device.selected?_exchangeEnds (layer : Layer) (endpoint : Endpoint) :
    device.selected? layer (Packet.exchangeEnds packet) endpoint.opposite =
      device.selected? layer packet endpoint := by
  unfold selected?
  rw [Endpoint.opposite, layer.columns_dataOf_exchangeEnds _ hlen]
  split
  · rfl
  · exact Rule.select?_eq (hboth layer) _ _ _

include hboth hlen in
theorem SentLayer.underRule?_exchangeEnds (layer : Layer) (endpoint : Endpoint) :
    underRule? device layer (Packet.exchangeEnds packet) endpoint.opposite =
      underRule? device layer packet endpoint := by
  unfold underRule?
  rw [Endpoint.opposite, layer.columns_dataOf_exchangeEnds _ hlen]
  cases layer.columns endpoint.direction (layer.dataOf packet) with
  | error error => rfl
  | ok result =>
    dsimp only
    rw [Rule.select?_eq (hboth layer) result.1 endpoint.direction.opposite endpoint.direction]
    cases hselect : Rule.select? (device.rules layer) result.1 endpoint.direction with
    | none => rfl
    | some rule =>
      have hrule := hboth layer rule (List.mem_of_find?_eq_some hselect)
      dsimp only
      rw [← Endpoint.opposite, hrule.residue_opposite]

include hboth hlen in
theorem SentLayer.ofPacket_exchangeEnds (layer : Layer) (endpoint : Endpoint)
    (h : (ofPacket device layer packet endpoint).rule?.isSome ∨ layer = .application) :
    ofPacket device layer (Packet.exchangeEnds packet) endpoint.opposite =
      ofPacket device layer packet endpoint := by
  rw [ofPacket_eq, underRule?_exchangeEnds hboth hlen, ofPacket_eq device layer packet]
  rcases h with hrule | rfl
  · rw [underRule?_eq_some hrule]
    rfl
  · rw [Layer.application.dataOf_exchangeEnds hlen]
    rfl

include hboth hlen in
/-- In one direction as in the other, the layer is sent under the same rule and in as many bytes. -/
theorem SentLayer.ofPacket_exchangeEnds_alike (layer : Layer) (endpoint : Endpoint) :
    (ofPacket device layer (Packet.exchangeEnds packet) endpoint.opposite).rule? =
        (ofPacket device layer packet endpoint).rule? ∧
      (ofPacket device layer (Packet.exchangeEnds packet) endpoint.opposite).bytes.length =
        (ofPacket device layer packet endpoint).bytes.length := by
  rw [ofPacket_eq, underRule?_exchangeEnds hboth hlen, ofPacket_eq device layer packet]
  cases underRule? device layer packet endpoint with
  | some sent => exact ⟨rfl, rfl⟩
  | none => exact ⟨rfl, layer.length_dataOf_exchangeEnds hlen⟩

include hboth hlen in
theorem Device.selectionOf_exchangeEnds (endpoint : Endpoint) :
    device.selectionOf (Packet.exchangeEnds packet) endpoint.opposite =
      device.selectionOf packet endpoint := by
  have hrule (layer : Layer) :=
    (SentLayer.ofPacket_exchangeEnds_alike hboth hlen layer endpoint).1
  rw [selectionOf, selectionOf, hrule, hrule, hrule]

def CompressedPacket.withoutData (compressed : CompressedPacket) : CompressedPacket :=
  { compressed with data := [] }

theorem assemble_alike {other : List UInt8} {ipv6 udp ipv6' udp' : SentLayer} (device : Device)
    (coap : SentLayer) (payload : List UInt8) (hother : other.length = packet.length)
    (hipv6 : ipv6'.rule? = ipv6.rule? ∧ ipv6'.bytes.length = ipv6.bytes.length)
    (hudp : udp'.rule? = udp.rule? ∧ udp'.bytes.length = udp.bytes.length) :
    (assemble device other ipv6' udp' coap payload).withoutData =
        (assemble device packet ipv6 udp coap payload).withoutData ∧
      (assemble device other ipv6' udp' coap payload).data.length =
        (assemble device packet ipv6 udp coap payload).data.length := by
  unfold assemble
  rw [hipv6.1, hudp.1]
  dsimp only
  split
  · simp [CompressedPacket.ofData, CompressedPacket.withoutData, hother, hipv6.2, hudp.2]
  · split <;>
      simp [CompressedPacket.ofData, CompressedPacket.withoutData, hother, hipv6.2, hudp.2]

theorem Endpoint.accept_alike {other : CompressedPacket} (endpoint : Endpoint)
    (hother : other.withoutData = compressed.withoutData)
    (hlength : other.data.length = compressed.data.length) :
    (endpoint.accept other).map (·.withoutData) =
      (endpoint.accept compressed).map (·.withoutData) := by
  unfold accept
  rw [hlength]
  split
  · exact congrArg Except.ok hother
  · split
    · rfl
    · exact congrArg Except.ok hother

include hboth hlen in
theorem compress_exchangeEnds_alike (endpoint : Endpoint) :
    (compress device (Packet.exchangeEnds packet) endpoint.opposite).1.map (·.withoutData) =
      (compress device packet endpoint).1.map (·.withoutData) := by
  have hother := length_exchangeEnds hlen
  have hsame := SentLayer.ofPacket_exchangeEnds hboth hlen .application endpoint (.inr rfl)
  obtain ⟨hassembled, hlength⟩ := assemble_alike device
    (SentLayer.ofPacket device .application packet endpoint)
    ((Layer.application.dataOf packet).drop
      (SentLayer.ofPacket device .application packet endpoint).consumed) hother
    (SentLayer.ofPacket_exchangeEnds_alike hboth hlen .network endpoint)
    (SentLayer.ofPacket_exchangeEnds_alike hboth hlen .transport endpoint)
  rw [compress_fst hlen, compress_fst (hother ▸ hlen), hsame,
    Layer.application.dataOf_exchangeEnds hlen]
  exact endpoint.accept_alike hassembled hlength

include hboth in
/-- Under an IPv6 and a UDP rule, nothing of what is exchanged is sent as it is. -/
theorem compress_exchangeEnds (haccepted : device.Accepted)
    (h : (compress device packet endpoint).1 = .ok compressed)
    (hnetwork : (compressed.selection device).network?.isSome)
    (htransport : (compressed.selection device).transport?.isSome) :
    (compress device (Packet.exchangeEnds packet) endpoint.opposite).1 = .ok compressed := by
  have hlayer : ((compressed.selection device).layer? .network).isSome := hnetwork
  obtain ⟨hselection, hcomposite⟩ := haccepted.selection_of_compress h hlayer
  have hlen := (compress_eq_ok h).1
  have hother := length_exchangeEnds hlen
  rw [hselection] at hnetwork htransport
  rw [compress_fst hlen] at h
  rw [compress_fst (hother ▸ hlen), ← h,
    SentLayer.ofPacket_exchangeEnds hboth hlen .network endpoint (.inl hnetwork),
    SentLayer.ofPacket_exchangeEnds hboth hlen .transport endpoint (.inl htransport),
    SentLayer.ofPacket_exchangeEnds hboth hlen .application endpoint (.inr rfl),
    Layer.application.dataOf_exchangeEnds hlen]
  change endpoint.accept _ = endpoint.accept _
  congr 1
  unfold assemble CompressedPacket.ofData
  rw [hother]
  split
  · rfl
  · rename_i hmode
    obtain ⟨composite, hfind⟩ := hcomposite hmode
    rw [Device.selectionOf] at hfind
    rw [hfind]
    rfl

end Sent

section Restored

variable (haccepted : device.Accepted) (hboth : device.Bidirectional)

theorem partLength_opposite (h : ∀ rule ∈ rule?, rule.Bidirectional) (endpoint : Endpoint)
    (verbatim : Nat) : partLength rule? endpoint.opposite.direction verbatim =
      partLength rule? endpoint.direction verbatim := by
  cases rule? with
  | none => rfl
  | some rule => exact (h rule rfl).residueLength_eq _ _

theorem restoreMessage_opposite (h : ∀ rule ∈ rule?, rule.Bidirectional) (endpoint : Endpoint)
    (data : List UInt8) (pending : Pending) :
    restoreMessage rule? endpoint.opposite data pending =
      restoreMessage rule? endpoint data pending := by
  cases rule? with
  | none => rfl
  | some rule =>
    unfold restoreMessage
    dsimp only
    rw [(h rule rfl).restoreColumns_opposite]

include haccepted hboth in
theorem restoreHeader_opposite (hrule : rule ∈ device.rules layer) (hlayer : layer ≠ .application)
    (h : restoreHeader layer (some rule) endpoint data pending = .ok (header, pending')) :
    restoreHeader layer (some rule) endpoint.opposite data pending =
      .ok (layer.exchangeEnds header, pending') := by
  obtain ⟨⟨columns, decoder⟩, hcolumns, h⟩ := bind_eq_ok_iff.1 h
  obtain ⟨built, hbuilt, h⟩ := bind_eq_ok_iff.1 h
  cases h
  have hcanonical := haccepted.canonical_of_restore hrule hlayer (restoreColumns_eq_ok_iff.1 hcolumns)
  rw [← (hboth layer rule hrule).restoreColumns_opposite] at hcolumns
  exact bind_eq_ok_iff.2 ⟨_, hcolumns, bind_eq_ok_iff.2
    ⟨_, Layer.header_opposite hlayer hcanonical hbuilt, rfl⟩⟩

include haccepted hboth in
theorem restorePacket_opposite (hnetwork : selection.network?.isSome)
    (htransport : selection.transport?.isSome)
    (h : restorePacket device endpoint selection body = .ok result) :
    restorePacket device endpoint.opposite selection body = .ok (Packet.exchangeEnds result) := by
  obtain ⟨ipv6Rule?, udpRule?, coapRule?, ipv6Length, udpLength, hrules, hipv6Length, hudpLength,
    hlen, h⟩ := restorePacket_eq_ok_iff.1 h
  obtain ⟨message, front, middle, pending, pending', pending'', hmessage, hmiddle, hfront,
    hcomplete⟩ := restoreParts_eq_ok_iff_layers.1 h
  obtain ⟨ipv6Rule, rfl⟩ : ∃ rule, ipv6Rule? = some rule := by
    rw [(Device.of_mapM_rule_eq_ok hrules.network).1, Option.isSome_map] at hnetwork
    exact Option.isSome_iff_exists.1 hnetwork
  obtain ⟨udpRule, rfl⟩ : ∃ rule, udpRule? = some rule := by
    rw [(Device.of_mapM_rule_eq_ok hrules.transport).1, Option.isSome_map] at htransport
    exact Option.isSome_iff_exists.1 htransport
  have hipv6Rule := hrules.mem_network ipv6Rule rfl
  have hudpRule := hrules.mem_transport udpRule rfl
  have hfrontLength := length_of_restoreHeader (absurd · (Option.some_ne_none ipv6Rule))
    (fun _ _ => length_of_header_network) hfront
  have hmiddleLength := length_of_restoreHeader (absurd · (Option.some_ne_none udpRule))
    (fun _ _ => length_of_header_transport) hmiddle
  rw [← partLength_opposite (fun _ h => hboth _ _ (hrules.mem_network _ h))] at hipv6Length
  rw [← partLength_opposite (fun _ h => hboth _ _ (hrules.mem_transport _ h))] at hudpLength
  rw [← restoreMessage_opposite fun _ h => hboth _ _ (hrules.mem_application _ h)] at hmessage
  exact restorePacket_eq_ok_iff.2 ⟨_, _, _, _, _, hrules, hipv6Length, hudpLength, hlen,
    restoreParts_eq_ok_iff_layers.2 ⟨_, _, _, _, _, _, hmessage,
      restoreHeader_opposite haccepted hboth hudpRule (by decide) hmiddle,
      restoreHeader_opposite haccepted hboth hipv6Rule (by decide) hfront,
      complete_exchange hfrontLength hmiddleLength hcomplete⟩⟩

include haccepted hboth in
theorem decompress_opposite {heading : Heading} (hheading : device.heading? data = some heading)
    (hnetwork : heading.selection.network?.isSome)
    (htransport : heading.selection.transport?.isSome) {restored : RestoredPacket}
    (h : decompress device endpoint data = .ok restored) :
    decompress device endpoint.opposite data =
      .ok { restored with data := Packet.exchangeEnds restored.data } := by
  rw [decompress_eq hheading] at h ⊢
  obtain ⟨result, hresult, rfl⟩ := map_eq_ok_iff.1 h
  exact map_eq_ok_iff.2
    ⟨_, restorePacket_opposite haccepted hboth hnetwork htransport hresult, rfl⟩

end Restored

namespace Device

/-- Where all fields are for both directions, a packet and the packet with its ends exchanged that
goes the other way are matched by the same rules and compressed under the same id, and to the same
bytes if IPv6 and UDP are under rules. Data that name an IPv6 and a UDP rule are refused in one
direction as in the other, or else restored to packets with each other's ends. -/
theorem directions_alike (device : Device) (haccepted : device.Accepted)
    (hboth : device.Bidirectional) (endpoint : Endpoint) :
    (∀ packet : List UInt8, 48 ≤ packet.length →
      (∀ layer, device.selected? layer (Packet.exchangeEnds packet) endpoint.opposite =
        device.selected? layer packet endpoint) ∧
      device.selectionOf (Packet.exchangeEnds packet) endpoint.opposite =
        device.selectionOf packet endpoint ∧
      (compress device (Packet.exchangeEnds packet) endpoint.opposite).1.map (·.withoutData) =
        (compress device packet endpoint).1.map (·.withoutData) ∧
      ∀ compressed, (compress device packet endpoint).1 = .ok compressed →
        (compressed.selection device).network?.isSome →
        (compressed.selection device).transport?.isSome →
        (compress device (Packet.exchangeEnds packet) endpoint.opposite).1 = .ok compressed) ∧
    ∀ data heading, device.heading? data = some heading → heading.selection.network?.isSome →
      heading.selection.transport?.isSome →
      ((∃ error, decompress device endpoint.opposite data = .error error) ↔
        ∃ error, decompress device endpoint data = .error error) ∧
      ∀ restored, decompress device endpoint data = .ok restored →
        decompress device endpoint.opposite data =
          .ok { restored with data := Packet.exchangeEnds restored.data } := by
  refine ⟨fun packet hlen => ⟨fun layer => selected?_exchangeEnds hboth hlen layer endpoint,
    selectionOf_exchangeEnds hboth hlen endpoint, compress_exchangeEnds_alike hboth hlen endpoint,
    fun compressed h => compress_exchangeEnds hboth haccepted h⟩, ?_⟩
  intro data heading hheading hnetwork htransport
  have hrestored (endpoint : Endpoint) (restored : RestoredPacket)
      (h : decompress device endpoint data = .ok restored) :=
    decompress_opposite haccepted hboth hheading hnetwork htransport h
  have hrefused (endpoint : Endpoint)
      (h : ∃ error, decompress device endpoint.opposite data = .error error) :
      ∃ error, decompress device endpoint data = .error error := by
    obtain ⟨error, herror⟩ := h
    cases hresult : decompress device endpoint data with
    | error error' => exact ⟨error', rfl⟩
    | ok restored => cases herror.symm.trans (hrestored endpoint restored hresult)
  -- What is refused in one direction is refused in the other, and opposite twice is back again.
  refine ⟨⟨hrefused endpoint, fun h => hrefused endpoint.opposite ?_⟩, hrestored endpoint⟩
  rwa [Endpoint.opposite_opposite]

/-- The packet that the nomad is answered with goes down in the same bytes as its own goes up. -/
theorem nomad_directions_alike :
    (compress nomad (Packet.exchangeEnds nomadPacket) (nomadEndpoint .down)).1 =
        .ok nomadCompressed ∧
      decompress nomad (nomadEndpoint .down) nomadCompressed.data =
        .ok ⟨Packet.exchangeEnds nomadPacket, ⟨1, 4⟩, none⟩ := by
  have hboth : nomad.Bidirectional := by
    intro layer
    cases layer <;> unfold Rule.Bidirectional <;> decide
  obtain ⟨hcompress, hdecompress⟩ :=
    directions_alike nomad nomad_accepted hboth (nomadEndpoint .up)
  have hheading : nomad.heading? nomadCompressed.data =
      some ⟨⟨some 1, some 1, some 1⟩, ⟨1, 4⟩, none⟩ := by decide +kernel
  have hrestored : decompress nomad (nomadEndpoint .up) nomadCompressed.data =
      .ok ⟨nomadPacket, ⟨1, 4⟩, none⟩ := by decide +kernel
  exact ⟨(hcompress nomadPacket (by decide)).2.2.2 _ compress_nomadPacket (by decide) (by decide),
    (hdecompress _ _ hheading rfl rfl).2 _ hrestored⟩

end Device

end HeaderCompression
