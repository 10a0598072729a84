import HeaderCompression.Proofs.Packet.Layers
import HeaderCompression.Proofs.Rule.Codebook

namespace HeaderCompression

open Packet

variable {device : Device} {layer : Layer} {endpoint : Endpoint} {data packet payload : List UInt8}
  {sent ipv6 udp coap : SentLayer} {rule? ipv6Rule? udpRule? coapRule? : Option Rule}
  {compressed : CompressedPacket}

/-- The bytes of a layer in a packet; for CoAP, all that follows UDP. -/
def Layer.dataOf : Layer → List UInt8 → List UInt8
  | .network, packet => packet.take ipv6HeaderLength
  | .transport, packet => (packet.drop ipv6HeaderLength).take udpHeaderLength
  | .application, packet => (packet.drop ipv6HeaderLength).drop udpHeaderLength

def CompressedPacket.selection (device : Device) (compressed : CompressedPacket) : Selection :=
  match compressed.layered? with
  | some id => id.selection
  | none =>
    match device.composites.find? (·.code == compressed.code) with
    | some rule => rule.selection
    | none => ⟨none, none, none⟩

namespace SentLayer

theorem ofData_withColumns (device : Device) (layer : Layer) (data : List UInt8)
    (endpoint : Endpoint) (columns : List Column) :
    ofData device layer data { endpoint with columns } = ofData device layer data endpoint := rfl

theorem exists_columns (device : Device) (layer : Layer) (data : List UInt8)
    (endpoint : Endpoint) :
    ∃ columns, (ofData device layer data endpoint).2 = { endpoint with columns } := by
  rw [ofData, Endpoint.load]
  cases layer.columns endpoint.direction data with
  | error error => exact ⟨[], rfl⟩
  | ok result => exact ⟨result.1, rfl⟩

end SentLayer

theorem Endpoint.eq_of_accept {packet : CompressedPacket}
    (h : endpoint.accept packet = .ok compressed) : packet = compressed := by
  rw [accept] at h
  split at h
  · cases h
    rfl
  · split at h
    · cases h
    · cases h
      rfl

def SentLayer.ofPacket (device : Device) (layer : Layer) (packet : List UInt8)
    (endpoint : Endpoint) : SentLayer :=
  (ofData device layer (layer.dataOf packet) endpoint).1

/-- What is sent of a layer under the rule that accepts it; none if it is sent as it is. -/
def SentLayer.underRule? (device : Device) (layer : Layer) (packet : List UInt8)
    (endpoint : Endpoint) : Option SentLayer :=
  match layer.columns endpoint.direction (layer.dataOf packet) with
  | .error _ => none
  | .ok (columns, length) =>
    match Rule.select? (device.rules layer) columns endpoint.direction with
    | none => none
    | some rule =>
      match rule.residue endpoint columns with
      | .error _ => none
      | .ok bytes => some ⟨some rule.id, bytes, length⟩

theorem SentLayer.ofPacket_eq (device : Device) (layer : Layer) (packet : List UInt8)
    (endpoint : Endpoint) : ofPacket device layer packet endpoint =
      (underRule? device layer packet endpoint).getD (.verbatim (layer.dataOf packet)) := by
  unfold ofPacket ofData Endpoint.load underRule?
  cases layer.columns endpoint.direction (layer.dataOf packet) with
  | error error => rfl
  | ok result =>
    dsimp only
    cases Rule.select? (device.rules layer) result.1 endpoint.direction with
    | none => rfl
    | some rule =>
      have hresidue : rule.residue { endpoint with columns := result.1 } result.1 =
          rule.residue endpoint result.1 := rfl
      dsimp only
      rw [hresidue]
      cases rule.residue endpoint result.1 <;> rfl

theorem SentLayer.underRule?_eq_some
    (h : (ofPacket device layer packet endpoint).rule?.isSome) :
    underRule? device layer packet endpoint = some (ofPacket device layer packet endpoint) := by
  rw [ofPacket_eq] at h ⊢
  cases hunder : underRule? device layer packet endpoint with
  | none =>
    rw [hunder] at h
    cases h
  | some sent => rfl

def Device.selectionOf (device : Device) (packet : List UInt8) (endpoint : Endpoint) : Selection :=
  ⟨(SentLayer.ofPacket device .network packet endpoint).rule?,
    (SentLayer.ofPacket device .transport packet endpoint).rule?,
    (SentLayer.ofPacket device .application packet endpoint).rule?⟩

theorem Device.layer?_selectionOf (device : Device) (packet : List UInt8) (endpoint : Endpoint)
    (layer : Layer) : (device.selectionOf packet endpoint).layer? layer =
      (SentLayer.ofPacket device layer packet endpoint).rule? := by
  cases layer <;> rfl

/-- A packet is sent layer by layer; no layer reads the columns that another one leaves behind. -/
theorem compress_fst (h : ipv6HeaderLength + udpHeaderLength ≤ packet.length) :
    (compress device packet endpoint).1 =
      endpoint.accept (assemble device packet (.ofPacket device .network packet endpoint)
        (.ofPacket device .transport packet endpoint)
        (.ofPacket device .application packet endpoint)
        ((Layer.application.dataOf packet).drop
          (SentLayer.ofPacket device .application packet endpoint).consumed)) := by
  obtain ⟨columns, hcolumns⟩ := SentLayer.exists_columns device .network
    (Layer.network.dataOf packet) endpoint
  obtain ⟨columns', hcolumns'⟩ := SentLayer.exists_columns device .transport
    (Layer.transport.dataOf packet) endpoint
  obtain ⟨columns'', hcolumns''⟩ := SentLayer.exists_columns device .application
    (Layer.application.dataOf packet) endpoint
  unfold SentLayer.ofPacket
  unfold Layer.dataOf at hcolumns hcolumns' hcolumns'' ⊢
  dsimp only at hcolumns hcolumns' hcolumns'' ⊢
  rw [compress]
  rw [if_neg (Nat.not_lt.2 h)]
  simp only [List.splitAt_eq]
  rw [hcolumns, SentLayer.ofData_withColumns device .transport _ endpoint columns, hcolumns',
    SentLayer.ofData_withColumns device .application _ endpoint columns', hcolumns'']
  rfl

theorem compress_eq_ok (h : (compress device packet endpoint).1 = .ok compressed) :
    ipv6HeaderLength + udpHeaderLength ≤ packet.length ∧
      ∃ ipv6 udp coap ipv6Rule? udpRule? coapRule?,
        SentLayer.SentAs device .network endpoint (Layer.network.dataOf packet) ipv6 ipv6Rule? ∧
        SentLayer.SentAs device .transport endpoint (Layer.transport.dataOf packet) udp udpRule? ∧
        SentLayer.SentAs device .application endpoint (Layer.application.dataOf packet) coap
          coapRule? ∧
        compressed = assemble device packet ipv6 udp coap
          ((Layer.application.dataOf packet).drop coap.consumed) := by
  have hlen : ipv6HeaderLength + udpHeaderLength ≤ packet.length := by
    rw [compress] at h
    split at h
    · cases h
    · rename_i hlen
      exact Nat.not_lt.1 hlen
  obtain ⟨ipv6Rule?, hipv6⟩ := SentLayer.exists_sentAs device .network endpoint
    (Layer.network.dataOf packet)
  obtain ⟨udpRule?, hudp⟩ := SentLayer.exists_sentAs device .transport endpoint
    (Layer.transport.dataOf packet)
  obtain ⟨coapRule?, hcoap⟩ := SentLayer.exists_sentAs device .application endpoint
    (Layer.application.dataOf packet)
  rw [compress_fst hlen] at h
  exact ⟨hlen, _, _, _, _, _, _, hipv6, hudp, hcoap, (Endpoint.eq_of_accept h).symm⟩

theorem Layer.length_network (h : ipv6HeaderLength + udpHeaderLength ≤ packet.length) :
    (Layer.network.dataOf packet).length = 40 := by
  simp only [Layer.dataOf, ipv6HeaderLength, udpHeaderLength, List.length_take] at h ⊢
  omega

theorem Layer.length_transport (h : ipv6HeaderLength + udpHeaderLength ≤ packet.length) :
    (Layer.transport.dataOf packet).length = 8 := by
  simp only [Layer.dataOf, ipv6HeaderLength, udpHeaderLength, List.length_take,
    List.length_drop] at h ⊢
  omega

theorem Layer.dataOf_append (packet : List UInt8) :
    Layer.network.dataOf packet ++ Layer.transport.dataOf packet ++
      Layer.application.dataOf packet = packet := by
  simp only [Layer.dataOf, List.append_assoc, List.take_append_drop]

theorem Layer.wordAt_network (h : ipv6HeaderLength + udpHeaderLength ≤ packet.length) :
    wordAt 4 packet = wordAt 4 (Layer.network.dataOf packet) := by
  have hword := wordAt_ipv6 (Layer.transport.dataOf packet) (Layer.application.dataOf packet)
    (length_network h) (show 4 + 2 ≤ 40 by decide)
  rwa [dataOf_append] at hword

theorem Layer.wordAt_transport (h : ipv6HeaderLength + udpHeaderLength ≤ packet.length) :
    wordAt 44 packet = wordAt 4 (Layer.transport.dataOf packet) := by
  have hword := wordAt_udp (Layer.application.dataOf packet) (length_network h)
    (length_transport h) (show 4 + 2 ≤ 8 by decide)
  rwa [dataOf_append] at hword

theorem SentLayer.SentAs.partLength_eq_ok (h : SentAs device layer endpoint data sent rule?)
    (haccepted : device.Accepted) (hlayer : layer ≠ .application) :
    partLength rule? endpoint.direction data.length = .ok sent.bytes.length := by
  cases h with
  | verbatim => rfl
  | rule h =>
    exact Rule.residueLength_eq_ok h.length_eq (h.sound haccepted)
      (fun column hcolumn => (Layer.of_mem_columns hlayer h.loads hcolumn).2) h.residue

section Restore

variable (hipv6 : SentLayer.SentAs device .network endpoint (Layer.network.dataOf packet) ipv6
    ipv6Rule?)
  (hudp : SentLayer.SentAs device .transport endpoint (Layer.transport.dataOf packet) udp udpRule?)
  (hcoap : SentLayer.SentAs device .application endpoint (Layer.application.dataOf packet) coap
    coapRule?)

def restoreParts (ipv6Rule? udpRule? coapRule? : Option Rule) (endpoint : Endpoint)
    (ipv6 udp coap : List UInt8) : Except Error (List UInt8) := do
  let (coap, pending) ← restoreMessage coapRule? endpoint coap .none
  let (udp, pending) ← restoreHeader .transport udpRule? endpoint udp pending
  let (ipv6, pending) ← restoreHeader .network ipv6Rule? endpoint ipv6 pending
  match complete pending (ipv6 ++ udp ++ coap) with
  | .ok () packet => return packet
  | .error error _ => throw error

theorem restorePacket_eq (device : Device) (endpoint : Endpoint) (selection : Selection)
    (body : List UInt8) :
    restorePacket device endpoint selection body = (do
      let ipv6Rule? ← selection.network?.mapM (device.rule .network)
      let udpRule? ← selection.transport?.mapM (device.rule .transport)
      let coapRule? ← selection.application?.mapM (device.rule .application)
      let ipv6Length ← partLength ipv6Rule? endpoint.direction ipv6HeaderLength
      let udpLength ← partLength udpRule? endpoint.direction udpHeaderLength
      let ipv6Part ← partAt body 0 ipv6Length
      let udpPart ← partAt body ipv6Length udpLength
      restoreParts ipv6Rule? udpRule? coapRule? endpoint ipv6Part udpPart
        (body.drop (ipv6Length + udpLength))) := rfl

include hipv6 hudp hcoap in
theorem restorePacket_parts (haccepted : device.Accepted) (hdistinct : device.DistinctIds)
    (hlen : ipv6HeaderLength + udpHeaderLength ≤ packet.length) (payload : List UInt8) :
    restorePacket device endpoint ⟨ipv6.rule?, udp.rule?, coap.rule?⟩
        (ipv6.bytes ++ udp.bytes ++ coap.bytes ++ payload) =
      restoreParts ipv6Rule? udpRule? coapRule? endpoint ipv6.bytes udp.bytes
        (coap.bytes ++ payload) := by
  have hipv6Length := hipv6.partLength_eq_ok haccepted (by decide)
  have hudpLength := hudp.partLength_eq_ok haccepted (by decide)
  rw [Layer.length_network hlen] at hipv6Length
  rw [Layer.length_transport hlen] at hudpLength
  have hbody : ipv6.bytes ++ udp.bytes ++ coap.bytes ++ payload =
      ipv6.bytes ++ (udp.bytes ++ (coap.bytes ++ payload)) := by
    simp only [List.append_assoc]
  have hipv6Part : partAt (ipv6.bytes ++ (udp.bytes ++ (coap.bytes ++ payload))) 0
      ipv6.bytes.length = .ok ipv6.bytes := by
    rw [partAt]
    rw [if_pos (by simp), List.drop_zero, List.take_left]
  have hudpPart : partAt (ipv6.bytes ++ (udp.bytes ++ (coap.bytes ++ payload))) ipv6.bytes.length
      udp.bytes.length = .ok udp.bytes := by
    rw [partAt]
    rw [if_pos (by simp), List.drop_left, List.take_left]
  have hcoapPart : (ipv6.bytes ++ (udp.bytes ++ (coap.bytes ++ payload))).drop
      (ipv6.bytes.length + udp.bytes.length) = coap.bytes ++ payload := by
    rw [← List.drop_drop, List.drop_left, List.drop_left]
  rw [restorePacket_eq, hbody, hipv6.mapM_rule hdistinct, hudp.mapM_rule hdistinct,
    hcoap.mapM_rule hdistinct]
  simp only [bind, Except.bind, ipv6HeaderLength, udpHeaderLength, hipv6Length, hudpLength,
    hipv6Part, hudpPart, hcoapPart]

end Restore

namespace LayeredId

theorem ofByte_toByte {id : LayeredId} (hnetwork : id.network.toNat < 4)
    (htransport : id.transport.toNat < 4) (happlication : id.application.toNat < 8) :
    ofByte id.toByte = id := by
  obtain ⟨fragmented, network, transport, application⟩ := id
  have hbit := Bool.toNat_lt fragmented
  dsimp only at hnetwork htransport happlication
  simp only [ofByte, toByte, UInt8.toNat_ofNat', mk.injEq, ← UInt8.toNat_inj]
  refine ⟨?_, by omega, by omega, by omega⟩
  cases fragmented <;> simp <;> omega

theorem ofByte_markByte (fragmented : Bool) (byte : UInt8) :
    ofByte (markByte fragmented byte) = { ofByte byte with fragmented } := by
  have hbit := Bool.toNat_lt fragmented
  simp only [ofByte, markByte, UInt8.toNat_ofNat', mk.injEq, ← UInt8.toNat_inj]
  refine ⟨?_, by omega, by omega, by omega⟩
  cases fragmented <;> simp <;> omega

end LayeredId

/-- What the receiver makes of a compressed packet: it finds the rules of the layers, and restores
the packet from their bytes, with the fragment bit set or not. -/
structure CompressedPacket.Carries (compressed : CompressedPacket) (device : Device)
    (selection : Selection) (body : List UInt8) : Prop where
  selection_eq : compressed.selection device = selection
  restored : ∀ receiver, decompress device receiver compressed.data =
    (⟨·, compressed.code, compressed.layered?⟩) <$> restorePacket device receiver selection body
  marked : compressed.layered?.isSome → ∀ fragmented, ∃ marked code,
    compressed.withFragmentBit fragmented = .ok marked ∧
      ∀ receiver, decompress device receiver marked.data =
        (⟨·, code, marked.layered?⟩) <$> restorePacket device receiver selection body

theorem SentLayer.SentAs.layeredId (h : SentAs device layer endpoint data sent rule?)
    (haccepted : device.Accepted) (hmode : device.mode = .layered) :
    (UInt8.ofNat (sent.rule?.getD 0)).toNat ≤ layer.maxLayeredId ∧
      (if UInt8.ofNat (sent.rule?.getD 0) = 0 then none
        else some (UInt8.ofNat (sent.rule?.getD 0)).toNat) = sent.rule? := by
  cases h with
  | verbatim => exact ⟨Nat.zero_le _, rfl⟩
  | @rule rule _ _ _ h =>
    have hne := haccepted.id_ne_zero h.mem
    have hle := haccepted.id_le hmode h.mem
    have hmax : layer.maxLayeredId < 256 := by cases layer <;> decide
    have hid : (UInt8.ofNat rule.id).toNat = rule.id := by
      rw [UInt8.toNat_ofNat']
      omega
    have hbyte : UInt8.ofNat rule.id ≠ 0 := by
      rw [ne_eq, ← UInt8.toNat_inj, hid]
      exact hne
    simp only [Option.getD_some, hid, if_neg hbyte]
    exact ⟨hle, trivial⟩

theorem carries_of_layeredId (hmode : device.mode = .layered) {id : LayeredId}
    (hid : LayeredId.ofByte id.toByte = id) (packet body : List UInt8) (payload : Nat) :
    (CompressedPacket.ofData packet (id.toByte :: body) ⟨id.toByte.toNat, 8⟩ (some id)
      payload).Carries device id.selection body := by
  refine ⟨rfl, fun receiver => ?_, fun _ fragmented => ⟨_,
    ⟨(LayeredId.markByte fragmented id.toByte).toNat, 8⟩, rfl, fun receiver => ?_⟩⟩
  · simp only [decompress, hmode, CompressedPacket.ofData, hid]
    rfl
  · simp only [decompress, hmode, LayeredId.ofByte_markByte, hid]
    rfl

namespace Device.Accepted

theorem carries_of_composite (haccepted : device.Accepted) (hmode : device.mode = .composite)
    {composite : CompositeRule} (hcomposite : composite ∈ device.composites)
    (packet body : List UInt8) (payload : Nat) :
    (CompressedPacket.ofData packet (composite.code.bytes ++ body) composite.code none
      payload).Carries device composite.selection body := by
  have hentry : (composite.code, CodeMatch.composite composite) ∈ device.entries :=
    List.mem_append_left _ (List.mem_map_of_mem hcomposite)
  have hmatch := haccepted.matchCode_bytes_append hmode hentry body
  have hdrop : (composite.code.bytes ++ body).drop composite.code.byteCount = body := by
    apply List.drop_left'
    simp [RuleCode.bytes, RuleCode.byteCount]
  refine ⟨?_, fun receiver => ?_, by simp [CompressedPacket.ofData]⟩
  · have hsome : (device.composites.find? (·.code == composite.code)).isSome :=
      List.find?_isSome.2 ⟨composite, hcomposite, by simp⟩
    obtain ⟨found, hfound⟩ := Option.isSome_iff_exists.1 hsome
    have hcode : found.code = composite.code := by simpa using List.find?_some hfound
    have hmem : (found.code, CodeMatch.composite found) ∈ device.entries :=
      List.mem_append_left _ (List.mem_map_of_mem (List.mem_of_find?_eq_some hfound))
    have hsame := (haccepted.prefixFree hmode).entry_eq hentry hmem List.prefix_rfl
      (hcode ▸ List.prefix_rfl)
    obtain rfl : composite = found := CodeMatch.composite.inj (congrArg Prod.snd hsame)
    simp only [CompressedPacket.selection, CompressedPacket.ofData, hfound]
  · simp only [decompress, hmode, CompressedPacket.ofData, hmatch, bind, Except.bind, hdrop]
    rfl

theorem uncompressed_restored (haccepted : device.Accepted) (hmode : device.mode = .composite)
    (packet : List UInt8) (payload : Nat) {compressed : CompressedPacket}
    (hcompressed : compressed = .ofData packet (device.uncompressed.bytes ++ packet)
      device.uncompressed none payload) :
    compressed.selection device = ⟨none, none, none⟩ ∧ compressed.layered? = none ∧
      ∀ receiver, decompress device receiver compressed.data =
        .ok ⟨packet, compressed.code, compressed.layered?⟩ := by
  subst hcompressed
  have hentry : (device.uncompressed, CodeMatch.uncompressed) ∈ device.entries :=
    List.mem_append_right _ (List.mem_singleton_self _)
  have hmatch := haccepted.matchCode_bytes_append hmode hentry packet
  have hdrop : (device.uncompressed.bytes ++ packet).drop device.uncompressed.byteCount =
      packet := by
    apply List.drop_left'
    simp [RuleCode.bytes, RuleCode.byteCount]
  refine ⟨?_, rfl, fun receiver => ?_⟩
  · have hnone : device.composites.find? (·.code == device.uncompressed) = none := by
      rw [List.find?_eq_none]
      intro composite hcomposite hcode
      have hmem : (composite.code, CodeMatch.composite composite) ∈ device.entries :=
        List.mem_append_left _ (List.mem_map_of_mem hcomposite)
      have hsame := (haccepted.prefixFree hmode).entry_eq hentry hmem List.prefix_rfl
        (beq_iff_eq.1 hcode ▸ List.prefix_rfl)
      cases congrArg Prod.snd hsame
    simp only [CompressedPacket.selection, CompressedPacket.ofData, hnone]
  · simp only [decompress, hmode, CompressedPacket.ofData, hmatch, bind, Except.bind, hdrop]
    rfl

end Device.Accepted

theorem Device.of_compositeWith? {selection : Selection} {composite : CompositeRule}
    (h : device.compositeWith? selection = some composite) :
    composite ∈ device.composites ∧ composite.selection = selection :=
  ⟨List.mem_of_find?_eq_some h, by simpa using List.find?_some h⟩

section Read

variable (hipv6 : SentLayer.SentAs device .network endpoint (Layer.network.dataOf packet) ipv6
    ipv6Rule?)
  (hudp : SentLayer.SentAs device .transport endpoint (Layer.transport.dataOf packet) udp udpRule?)
  (hcoap : SentLayer.SentAs device .application endpoint (Layer.application.dataOf packet) coap
    coapRule?)

include hipv6 hudp hcoap in
theorem carries_of_layered (haccepted : device.Accepted) (hmode : device.mode = .layered)
    (payload : List UInt8) :
    (assemble device packet ipv6 udp coap payload).Carries device
      ⟨ipv6.rule?, udp.rule?, coap.rule?⟩ (ipv6.bytes ++ udp.bytes ++ coap.bytes ++ payload) := by
  obtain ⟨hnetwork, hnetwork'⟩ := hipv6.layeredId haccepted hmode
  obtain ⟨htransport, htransport'⟩ := hudp.layeredId haccepted hmode
  obtain ⟨happlication, happlication'⟩ := hcoap.layeredId haccepted hmode
  obtain ⟨id, hid⟩ : ∃ id : LayeredId, id = ⟨false, UInt8.ofNat (ipv6.rule?.getD 0),
    UInt8.ofNat (udp.rule?.getD 0), UInt8.ofNat (coap.rule?.getD 0)⟩ := ⟨_, rfl⟩
  have hselection : id.selection = ⟨ipv6.rule?, udp.rule?, coap.rule?⟩ := by
    simp only [hid, LayeredId.selection, hnetwork', htransport', happlication']
  have hbyte : LayeredId.ofByte id.toByte = id := by
    rw [hid]
    exact LayeredId.ofByte_toByte (Nat.lt_succ_of_le hnetwork) (Nat.lt_succ_of_le htransport)
      (Nat.lt_succ_of_le happlication)
  rw [assemble]
  rw [hmode, ← hselection]
  dsimp only
  rw [← hid]
  exact carries_of_layeredId hmode hbyte packet _ payload.length

include hipv6 hudp hcoap in
/-- A compressed packet is the whole packet under the code for that, or it carries its layers. -/
theorem carries_or_uncompressed (haccepted : device.Accepted) (payload : List UInt8)
    (hcompressed : compressed = assemble device packet ipv6 udp coap payload) :
    (compressed.Carries device ⟨ipv6.rule?, udp.rule?, coap.rule?⟩
        (ipv6.bytes ++ udp.bytes ++ coap.bytes ++ payload)) ∨
      compressed.selection device = ⟨none, none, none⟩ ∧ compressed.layered? = none ∧
        ∀ receiver, decompress device receiver compressed.data =
          .ok ⟨packet, compressed.code, compressed.layered?⟩ := by
  cases hmode : device.mode with
  | layered =>
    rw [hcompressed]
    exact .inl (carries_of_layered hipv6 hudp hcoap haccepted hmode payload)
  | composite =>
    rw [assemble] at hcompressed
    rw [hmode] at hcompressed
    dsimp only at hcompressed
    split at hcompressed
    · rename_i composite hfind
      obtain ⟨hmem, hselection⟩ := Device.of_compositeWith? hfind
      rw [hcompressed, ← hselection]
      exact .inl (haccepted.carries_of_composite hmode hmem packet _ _)
    · exact .inr (haccepted.uncompressed_restored hmode packet 0 hcompressed)

end Read

/-- A compressed packet that names the rule of a layer names those that all layers are sent under,
and in composite mode there is a composite rule for them. -/
theorem Device.Accepted.selection_of_compress (haccepted : device.Accepted)
    (h : (compress device packet endpoint).1 = .ok compressed)
    (hlayer : ((compressed.selection device).layer? layer).isSome) :
    compressed.selection device = device.selectionOf packet endpoint ∧
      (device.mode = .composite →
        ∃ composite, device.compositeWith? (device.selectionOf packet endpoint) = some composite) := by
  obtain ⟨ipv6Rule?, hipv6⟩ := SentLayer.exists_sentAs device .network endpoint
    (Layer.network.dataOf packet)
  obtain ⟨udpRule?, hudp⟩ := SentLayer.exists_sentAs device .transport endpoint
    (Layer.transport.dataOf packet)
  obtain ⟨coapRule?, hcoap⟩ := SentLayer.exists_sentAs device .application endpoint
    (Layer.application.dataOf packet)
  rw [compress_fst (compress_eq_ok h).1] at h
  have hcompressed := Endpoint.eq_of_accept h
  cases hmode : device.mode with
  | layered =>
    refine ⟨?_, nofun⟩
    rw [← hcompressed]
    exact (carries_of_layered hipv6 hudp hcoap haccepted hmode _).selection_eq
  | composite =>
    rw [assemble] at hcompressed
    rw [hmode] at hcompressed
    dsimp only at hcompressed
    split at hcompressed
    · rename_i composite hfind
      obtain ⟨hmem, hselection⟩ := Device.of_compositeWith? hfind
      refine ⟨?_, fun _ => ⟨composite, hfind⟩⟩
      rw [← hcompressed]
      exact (haccepted.carries_of_composite hmode hmem packet _ _).selection_eq.trans hselection
    · rw [(haccepted.uncompressed_restored hmode packet 0 hcompressed.symm).1] at hlayer
      cases layer <;> cases hlayer

end HeaderCompression
