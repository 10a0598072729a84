import HeaderCompression.Proofs.Packet.Received

namespace HeaderCompression

open Packet

variable {device : Device} {endpoint : Endpoint} {packet bytes result : List UInt8}
  {ipv6 udp coap : SentLayer} {rule : Rule} {ipv6Rule? udpRule? coapRule? : Option Rule}
  {columns : List Column} {length : Nat} {compressed : CompressedPacket}

structure CoapHeader.Readable (columns : List Column) : Prop where
  version : numberOf columns .coapVersion = 1
  token_short : (tokenOf columns).length ≤ CoapMessage.maxTokenLength
  token_announced : numberOf columns .coapTokenLength = (tokenOf columns).length

def CompressedPacket.Computes (compressed : CompressedPacket) (device : Device)
    (direction : Direction) : Prop :=
  ∃ layer, ∃ rule ∈ device.rules layer,
    (compressed.selection device).layer? layer = some rule.id ∧
      ∃ f ∈ rule.fieldsFor direction, f.isComputed

/-- The packet that is restored has a CoAP message with this payload. -/
def CompressedPacket.Delivers (compressed : CompressedPacket) (device : Device)
    (receiver : Endpoint) (payload : List UInt8) : Prop :=
  ∃ restored message, decompress device receiver compressed.data = .ok restored ∧
    CoapMessage.ofBytes? (restored.data.drop 48) = .ok message ∧ message.payload = payload

namespace CoapHeader

theorem version_described_iff (payload : List UInt8)
    (h : ∀ column ∈ columns, column.field.width?.isSome → column.Proper) :
    (described columns payload).version = 1 ↔ numberOf columns .coapVersion = 1 := by
  have hsmall : numberOf columns .coapVersion < 4 := by
    rw [numberOf]
    cases hfind : Column.find? columns .coapVersion with
    | none => exact Nat.zero_lt_succ _
    | some column =>
      have hfield : column.field = .coapVersion := by simpa using List.find?_some hfind
      have hproper := h column (List.mem_of_find?_eq_some hfind) (hfield ▸ rfl)
      exact (hproper.ofNat_toNat hfield rfl (by decide)).2
  change Fin.ofNat 4 (numberOf columns .coapVersion) = 1 ↔ _
  rw [Fin.ext_iff, Fin.val_ofNat, Nat.mod_eq_of_lt hsmall]
  rfl

end CoapHeader

section Layers

variable (hipv6 : SentLayer.SentAs device .network endpoint (Layer.network.dataOf packet) ipv6
    ipv6Rule?)
  (hudp : SentLayer.SentAs device .transport endpoint (Layer.transport.dataOf packet) udp udpRule?)
  (h : rule.Sends device .application endpoint (Layer.application.dataOf packet) columns length
    bytes)

def Rule.leaveAll (ipv6Rule? udpRule? coapRule? : Option Rule) (direction : Direction) : Pending :=
  leave ipv6Rule? direction (leave udpRule? direction (leave coapRule? direction .none))

theorem Layer.exists_iff {P : Layer → Prop} :
    (∃ layer, P layer) ↔ P .network ∨ P .transport ∨ P .application := by
  constructor
  · rintro ⟨layer, hlayer⟩
    cases layer with
    | network => exact .inl hlayer
    | transport => exact .inr (.inl hlayer)
    | application => exact .inr (.inr hlayer)
  · rintro (hlayer | hlayer | hlayer)
    · exact ⟨.network, hlayer⟩
    · exact ⟨.transport, hlayer⟩
    · exact ⟨.application, hlayer⟩

theorem Rule.any_computed_iff (rule? : Option Rule) (direction : Direction) :
    (∃ rule ∈ rule?, ∃ f ∈ rule.fieldsFor direction, f.isComputed) ↔
      rule?.any (·.leavesLength direction) ∨ rule?.any (·.leavesChecksum direction) := by
  cases rule? with
  | none => simp
  | some rule =>
    simp only [Option.mem_def, Option.some.injEq, exists_eq_left', Option.any_some, leavesLength,
      leavesChecksum, List.any_eq_true, ← exists_or, ← and_or_left, RuleField.isComputed,
      Bool.or_eq_true]

include hipv6 hudp in
theorem computes_iff
    (hcoap : SentLayer.SentAs device .application endpoint (Layer.application.dataOf packet) coap
      coapRule?) (hdistinct : device.DistinctIds)
    (hselection : compressed.selection device = ⟨ipv6.rule?, udp.rule?, coap.rule?⟩) :
    compressed.Computes device endpoint.direction ↔
      (Rule.leaveAll ipv6Rule? udpRule? coapRule? endpoint.direction).length ∨
        (Rule.leaveAll ipv6Rule? udpRule? coapRule? endpoint.direction).checksum := by
  have hnetwork : (compressed.selection device).layer? .network = ipv6.rule? := hselection ▸ rfl
  have htransport : (compressed.selection device).layer? .transport = udp.rule? := hselection ▸ rfl
  have happlication : (compressed.selection device).layer? .application = coap.rule? :=
    hselection ▸ rfl
  rw [CompressedPacket.Computes, Layer.exists_iff, hipv6.exists_selected_iff hdistinct hnetwork,
    hudp.exists_selected_iff hdistinct htransport,
    hcoap.exists_selected_iff hdistinct happlication]
  simp only [Rule.any_computed_iff, Rule.leaveAll, Rule.leave, Pending.none, Bool.or_eq_true,
    Bool.false_eq_true, false_or]
  tauto

theorem restoreParts_eq_ok_iff {ipv6 udp coap front middle : List UInt8}
    (hfront : ∀ pending, restoreHeader .network ipv6Rule? endpoint ipv6 pending =
      .ok (front, Rule.leave ipv6Rule? endpoint.direction pending))
    (hmiddle : ∀ pending, restoreHeader .transport udpRule? endpoint udp pending =
      .ok (middle, Rule.leave udpRule? endpoint.direction pending)) :
    restoreParts ipv6Rule? udpRule? coapRule? endpoint ipv6 udp coap = .ok result ↔
      ∃ message pending, restoreMessage coapRule? endpoint coap .none = .ok (message, pending) ∧
        complete (Rule.leave ipv6Rule? endpoint.direction
          (Rule.leave udpRule? endpoint.direction pending)) (front ++ middle ++ message) =
            .ok () result := by
  simp only [restoreParts, bind_eq_ok_iff, hfront, hmiddle, Except.ok.injEq, exists_eq_left',
    Prod.exists]
  refine exists_congr fun message => exists_congr fun pending => and_congr_right fun _ => ?_
  split
  · rename_i hcomplete
    rw [hcomplete, pure_eq_ok_iff, EStateM.Result.ok.injEq]
    simp
  · rename_i hcomplete
    rw [hcomplete]
    simp

include hipv6 hudp h in
theorem restoreParts_received (haccepted : device.Accepted)
    (hlen : ipv6HeaderLength + udpHeaderLength ≤ packet.length)
    (hkeeps : FieldPair.KeepsTokenLength (rule.pairs endpoint.direction columns))
    {received : List Column} (hreceived : rule.received endpoint.direction columns = received)
    {pending : Pending}
    (hpending : Rule.leaveAll ipv6Rule? udpRule? (some rule) endpoint.direction = pending)
    {message : List UInt8} (hmessage : (CoapHeader.described received
      ((Layer.application.dataOf packet).drop length)).toBytes = message) :
    ∃ front middle : List UInt8, front.length = 40 ∧ middle.length = 8 ∧
      ∀ result, restoreParts ipv6Rule? udpRule? (some rule) endpoint ipv6.bytes udp.bytes
          (bytes ++ (Layer.application.dataOf packet).drop length) = .ok result ↔
        (CoapHeader.tokenOf received).length ≤ CoapMessage.maxTokenLength ∧
          CoapHeader.numberOf received .coapTokenLength = (CoapHeader.tokenOf received).length ∧
          (pending.length ∨ pending.checksum → 48 + message.length ≤ 65575) ∧
          result = completed pending front middle message := by
  obtain ⟨front, hfront, hnetwork⟩ := hipv6.exists_front haccepted (Layer.length_network hlen)
  obtain ⟨middle, hmiddle, hzero, htransport⟩ :=
    hudp.exists_middle haccepted (Layer.length_transport hlen)
  subst hpending
  have hchecksum : (Rule.leaveAll ipv6Rule? udpRule? (some rule) endpoint.direction).checksum →
      wordAt 6 middle = [0, 0] := by
    rw [Rule.leaveAll, leave_layers hipv6 (.rule h) udpRule? haccepted]
    exact hzero
  refine ⟨front, middle, hfront, hmiddle, fun result => ?_⟩
  rw [restoreParts_eq_ok_iff hnetwork htransport,
    ← complete_eq_ok_iff_of_zero hfront hmiddle hchecksum]
  simp only [h.restoreMessage_received haccepted rfl hkeeps, hreceived, hmessage]
  constructor
  · rintro ⟨_, _, ⟨hshort, hannounced, rfl, rfl⟩, hrun⟩
    exact ⟨hshort, hannounced, hrun⟩
  · rintro ⟨hshort, hannounced, hrun⟩
    exact ⟨_, _, ⟨hshort, hannounced, rfl, rfl⟩, hrun⟩

include hipv6 hudp h in
/-- A payload is delivered if the message in front of it can be read and the packet is completed. -/
theorem delivers_iff {receiver : Endpoint} (haccepted : device.Accepted)
    (hdistinct : device.DistinctIds) (hdirection : receiver.direction = endpoint.direction)
    (haddress : receiver.address? = endpoint.address?)
    (hlen : ipv6HeaderLength + udpHeaderLength ≤ packet.length)
    (hcarries : compressed.Carries device ⟨ipv6.rule?, udp.rule?, some rule.id⟩
      (ipv6.bytes ++ udp.bytes ++ bytes ++ (Layer.application.dataOf packet).drop length))
    (hkeeps : FieldPair.KeepsTokenLength (rule.pairs endpoint.direction columns))
    {received : List Column} (hreceived : rule.received endpoint.direction columns = received)
    (hshort : ∀ column ∈ received, column.value.length ≤ 65535)
    {payload : List UInt8} (hpayload : (Layer.application.dataOf packet).drop length = payload) :
    compressed.Delivers device receiver payload ↔ CoapHeader.Readable received ∧
      (compressed.Computes device endpoint.direction →
        48 + (CoapHeader.described received payload).toBytes.length ≤ 65575) := by
  subst hreceived hpayload
  have hcoap := SentLayer.SentAs.rule h
  have hcomputes := computes_iff hipv6 hudp hcoap hdistinct hcarries.selection_eq
  have hversion := CoapHeader.version_described_iff
    ((Layer.application.dataOf packet).drop length)
    fun column hcolumn => h.proper_received haccepted hcolumn
  have hread := fun htoken => (CoapHeader.reads_described_iff h.loads
    (h.map_field_received haccepted) _ htoken hshort).trans hversion
  -- Whatever the headers in front are, the message stands behind 48 bytes.
  obtain ⟨front, middle, hfront, hmiddle, hparts⟩ :=
    restoreParts_received hipv6 hudp h haccepted hlen hkeeps rfl rfl rfl
  have hrestore (restored : RestoredPacket) :
      decompress device receiver compressed.data = .ok restored ↔ ∃ result,
        restoreParts ipv6Rule? udpRule? (some rule) endpoint ipv6.bytes udp.bytes
          (bytes ++ (Layer.application.dataOf packet).drop length) = .ok result ∧
            ⟨result, compressed.code, compressed.layered?⟩ = restored := by
    rw [hcarries.restored, restorePacket_congr hdirection haddress,
      restorePacket_parts hipv6 hudp hcoap haccepted hdistinct hlen, map_eq_ok_iff]
  constructor
  · rintro ⟨restored, message, hrestored, hmessage, hsame⟩
    obtain ⟨result, hrun, rfl⟩ := (hrestore restored).1 hrestored
    obtain ⟨htoken, hannounced, hfits, rfl⟩ := (hparts result).1 hrun
    rw [completed_drop hfront hmiddle] at hmessage
    exact ⟨⟨(hread htoken).1 ⟨message, hmessage, hsame⟩, htoken, hannounced⟩,
      fun hcomputed => hfits (hcomputes.1 hcomputed)⟩
  · rintro ⟨⟨hone, htoken, hannounced⟩, hfits⟩
    obtain ⟨message, hmessage, hsame⟩ := (hread htoken).2 hone
    have hrun := (hparts _).2
      ⟨htoken, hannounced, fun hcomputed => hfits (hcomputes.2 hcomputed), rfl⟩
    refine ⟨_, message, (hrestore _).2 ⟨_, hrun, rfl⟩, ?_, hsame⟩
    rwa [completed_drop hfront hmiddle]

end Layers

namespace Device

/-- The payload of a CoAP message under a rule is delivered exactly if what the receiver gets of its
header makes a message that can be read, in a packet that is not too long for what is left to be
computed in it. This holds unless the rule has another value for the length of a token that is
sent, or a value for an option that is longer than options can be. -/
theorem payload_delivered_iff (device : Device) (sender receiver : Endpoint) (packet : List UInt8)
    (compressed : CompressedPacket) (rule : Rule) (haccepted : device.Accepted)
    (hdistinct : device.DistinctIds) (hdirection : receiver.direction = sender.direction)
    (haddress : receiver.address? = sender.address?)
    (hcompress : (compress device packet sender).1 = .ok compressed)
    (hrule : rule ∈ device.rules .application)
    (hselected : (compressed.selection device).application? = some rule.id) :
    ∃ original columns, CoapMessage.ofBytes? (packet.drop 48) = .ok original ∧
      CoapHeader.messageColumns original = .ok columns ∧
      (FieldPair.KeepsTokenLength (rule.pairs sender.direction columns) →
        (∀ column ∈ rule.received sender.direction columns, column.value.length ≤ 65535) →
        (compressed.Delivers device receiver original.payload ↔
          CoapHeader.Readable (rule.received sender.direction columns) ∧
            (compressed.Computes device sender.direction →
              48 + (CoapHeader.described (rule.received sender.direction columns)
                original.payload).toBytes.length ≤ 65575))) := by
  obtain ⟨hlen, ipv6, udp, coap, ipv6Rule?, udpRule?, coapRule?, hipv6, hudp, hcoap, hassemble⟩ :=
    compress_eq_ok hcompress
  obtain hcarries | ⟨hselection, -, -⟩ :=
    carries_or_uncompressed hipv6 hudp hcoap haccepted _ hassemble
  · have hselection := hcarries.selection_eq
    rw [hselection] at hselected
    cases hcoap with
    | verbatim => cases hselected
    | @rule other columns length bytes h =>
      obtain rfl : other = rule :=
        List.inj_on_of_nodup_map (hdistinct .application) h.mem hrule (Option.some.inj hselected)
      obtain ⟨original, horiginal, hcolumns, hpayload⟩ := CoapHeader.exists_message h.loads
      refine ⟨original, columns, ?_, hcolumns, fun hkeeps hshort => ?_⟩
      · rw [← horiginal, Layer.dataOf, List.drop_drop]
        rfl
      · exact delivers_iff hipv6 hudp h haccepted hdistinct hdirection haddress hlen hcarries hkeeps
          rfl hshort hpayload.symm
  · rw [hselection] at hselected
    cases hselected

def beaconText : String :=
  "[[[1,\"layered\",0,8,null,[],
    [[1,null,[[\"UDP.DEV_PORT\",null,null,5683,\"ignore\",null,\"not-sent\"],
    [\"UDP.APP_PORT\",null,null,5683,\"ignore\",null,\"not-sent\"],
    [\"UDP.LEN\",null,null,null,\"ignore\",null,\"compute-length\"],
    [\"UDP.CKSUM\",null,null,null,\"ignore\",null,\"compute-checksum\"]]]],
    [[1,null,[[\"COAP.VER\",null,null,1,\"equal\",null,\"not-sent\"],
    [\"COAP.TYPE\",null,null,0,\"ignore\",null,\"not-sent\"],
    [\"COAP.TKL\",null,null,null,\"ignore\",null,\"value-sent\"],
    [\"COAP.CODE\",null,null,1,\"equal\",null,\"not-sent\"],
    [\"COAP.MID\",null,null,0,\"ignore\",null,\"not-sent\"],
    [\"COAP.TOKEN\",null,null,\"0xAABB\",\"ignore\",null,\"not-sent\"],
    [\"COAP.PAYLOAD_MARKER\",null,null,255,\"equal\",null,\"not-sent\"]]],
    [2,null,[[\"COAP.VER\",null,null,1,\"equal\",null,\"not-sent\"],
    [\"COAP.TYPE\",null,null,0,\"ignore\",null,\"not-sent\"],
    [\"COAP.TKL\",null,null,1,\"ignore\",null,\"not-sent\"],
    [\"COAP.CODE\",null,null,2,\"equal\",null,\"not-sent\"],
    [\"COAP.MID\",null,null,0,\"ignore\",null,\"not-sent\"],
    [\"COAP.TOKEN\",null,null,null,\"ignore\",null,\"value-sent\"],
    [\"COAP.PAYLOAD_MARKER\",null,null,255,\"equal\",null,\"not-sent\"]]]]]]]"

def beaconRule (id : Nat) (code : UInt8) (tokenLength token : TargetValue)
    (tokenLengthAction tokenAction : CompressionAction) : Rule :=
  ⟨id, none, [
    ⟨.coapVersion, .fixed 2, none, .equal, .single [1], .notSent⟩,
    ⟨.coapType, .fixed 2, none, .ignore, .single [0], .notSent⟩,
    ⟨.coapTokenLength, .fixed 4, none, .ignore, tokenLength, tokenLengthAction⟩,
    ⟨.coapCode, .fixed 8, none, .equal, .single [code], .notSent⟩,
    ⟨.coapMessageId, .fixed 16, none, .ignore, .single [0, 0], .notSent⟩,
    ⟨.coapToken, .token, none, .ignore, token, tokenAction⟩,
    ⟨.coapPayloadMarker, .fixed 8, none, .equal, .single [0xFF], .notSent⟩]⟩

/-- A device that sends next to nothing of its headers. One CoAP rule has a token in the place of
those that are sent, the other a token length. -/
def beacon : Device :=
  ⟨1, .layered, ⟨0, 8⟩, none, [],
    [⟨1, none, [
      ⟨.udpDevicePort, .fixed 16, none, .ignore, .single [0x16, 0x33], .notSent⟩,
      ⟨.udpAppPort, .fixed 16, none, .ignore, .single [0x16, 0x33], .notSent⟩,
      ⟨.udpLength, .fixed 16, none, .ignore, .none, .computeLength⟩,
      ⟨.udpChecksum, .fixed 16, none, .ignore, .none, .computeChecksum⟩]⟩],
    [beaconRule 1 1 .none (.single [0xAA, 0xBB]) .valueSent .notSent,
      beaconRule 2 2 (.single [1]) .none .notSent .valueSent], []⟩

set_option maxRecDepth 8000 in
theorem beacon_accepted : beacon.Accepted := by
  have htext : beaconText = String.ofList _ := rfl
  have hcheck : RuleSet.check ⟨[beacon]⟩ = .ok () := by decide +kernel
  exact accepted_of_chars htext hcheck (by decide +kernel) List.mem_cons_self

theorem beacon_distinctIds : beacon.DistinctIds := by
  intro layer
  cases layer <;> decide

def beaconHeader (length : UInt8) : List UInt8 :=
  [0x60, 0, 0, 0, 0, length, 17, 64] ++ List.replicate 16 0x2A ++ List.replicate 16 0x2B

def beaconPacket (message : List UInt8) : List UInt8 :=
  let length := UInt8.ofNat (udpHeaderLength + message.length)
  beaconHeader length ++ [0x16, 0x34, 0x16, 0x35, 0, length, 0xAB, 0xCD] ++ message

def beaconCompressed : CompressedPacket :=
  ⟨0x14 :: beaconHeader 17 ++ [2, 1, 2], ⟨0x14, 8⟩, some ⟨false, 0, 1, 1⟩, ⟨440, 336⟩⟩

/-- Type, message id and token of the message are lost, and the payload is delivered. -/
theorem beacon_payload_delivered :
    (compress beacon (beaconPacket [0x42, 1, 0x12, 0x34, 0xC0, 0xDE, 0xFF, 1, 2])
        (.ofDirection .up)).1 = .ok beaconCompressed ∧
      beaconCompressed.Delivers beacon (.ofDirection .up) [1, 2] := by
  have hcompress : (compress beacon (beaconPacket [0x42, 1, 0x12, 0x34, 0xC0, 0xDE, 0xFF, 1, 2])
      (.ofDirection .up)).1 = .ok beaconCompressed := by decide +kernel
  refine ⟨hcompress, ?_⟩
  obtain ⟨original, columns, horiginal, hcolumns, hdelivered⟩ :=
    payload_delivered_iff beacon (.ofDirection .up) (.ofDirection .up) _ beaconCompressed _
      beacon_accepted beacon_distinctIds rfl rfl hcompress List.mem_cons_self rfl
  have hmessage : CoapMessage.ofBytes? [0x42, 1, 0x12, 0x34, 0xC0, 0xDE, 0xFF, 1, 2] =
      .ok ⟨1, 0, 1, 0x1234, [0xC0, 0xDE], [], [1, 2]⟩ := by decide +kernel
  cases horiginal.symm.trans hmessage
  cases hcolumns
  refine (hdelivered (fun _ => by decide) (by decide)).2 ⟨⟨?_, ?_, ?_⟩, fun _ => ?_⟩ <;> decide

/-- A token that is not sent comes back in the length of another one, which is not accepted. -/
theorem payload_not_delivered :
    ¬ ∀ (device : Device) (endpoint : Endpoint) (packet : List UInt8)
        (compressed : CompressedPacket) (rule : Rule) (original : CoapMessage),
      device.Accepted → device.DistinctIds → 48 ≤ packet.length → packet.length ≤ 65575 →
      (compress device packet endpoint).1 = .ok compressed → rule ∈ device.rules .application →
      (compressed.selection device).application? = some rule.id →
      CoapMessage.ofBytes? (packet.drop 48) = .ok original →
      compressed.Delivers device endpoint original.payload := by
  intro h
  have hcompress : (compress beacon (beaconPacket [0x41, 1, 0x12, 0x34, 0xC0, 0xFF, 1, 2])
      (.ofDirection .up)).1 = .ok ⟨0x14 :: beaconHeader 16 ++ [1, 1, 2], ⟨0x14, 8⟩,
        some ⟨false, 0, 1, 1⟩, ⟨432, 336⟩⟩ := by decide +kernel
  have hmessage : CoapMessage.ofBytes? [0x41, 1, 0x12, 0x34, 0xC0, 0xFF, 1, 2] =
      .ok ⟨1, 0, 1, 0x1234, [0xC0], [], [1, 2]⟩ := by decide +kernel
  have hrestore : decompress beacon (.ofDirection .up)
      (0x14 :: beaconHeader 16 ++ [1, 1, 2]) =
        .error (.decompression (.tokenLength 1 2)) := by decide +kernel
  obtain ⟨restored, -, hrestored, -⟩ := h beacon (.ofDirection .up) _ _ _ _ beacon_accepted
    beacon_distinctIds (by decide) (by decide) hcompress List.mem_cons_self rfl hmessage
  cases hrestore.symm.trans hrestored

/-- A token that is read in the length of another one ends inside the token that was sent, and the
rest of that is taken for payload. -/
example : (compress beacon (beaconPacket [0x42, 2, 0x12, 0x34, 0xC0, 0xDE, 0xFF, 1, 2])
      (.ofDirection .up)).1.map (·.data) =
        .ok (0x24 :: beaconHeader 17 ++ [0xC0, 0xDE, 1, 2]) ∧
    (decompress beacon (.ofDirection .up)
      (0x24 :: beaconHeader 17 ++ [0xC0, 0xDE, 1, 2])).map (·.data.drop 48) =
        .ok [0x41, 2, 0, 0, 0xC0, 0xFF, 0xDE, 1, 2] := by
  decide +kernel

end Device

end HeaderCompression
