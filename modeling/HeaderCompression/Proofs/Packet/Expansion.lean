import HeaderCompression.Proofs.Coap.Draft
import HeaderCompression.Proofs.Header.Canonical
import HeaderCompression.Proofs.Packet.Heading
import Mathlib.Algebra.Order.BigOperators.Group.List

namespace HeaderCompression

variable {device : Device} {layer : Layer} {direction : Direction} {endpoint : Endpoint}
  {data bytes part packet : List UInt8} {columns : List Column} {rule : Rule}
  {rule? : Option Rule} {sent : SentLayer} {p : FieldPair} {length : Nat}

/-- As many bytes as are sent for a column at most: its value, behind a length if its field has no
fixed width. -/
def Column.sentRoom (column : Column) : Nat :=
  column.value.length + if column.field.width?.isSome then 0 else 1

namespace FieldPair.Sound

theorem sentRoom_pos (h : p.Sound) : 0 < p.2.sentRoom := by
  rw [Column.sentRoom]
  split
  · rename_i hwidth
    obtain ⟨width, hwidth⟩ := Option.isSome_iff_exists.1 hwidth
    have hpos := HeaderField.width_pos hwidth
    have hfield := (RuleField.accepts_iff.1 h.accepts).1
    have hbits := RuleField.bits_eq_of_fixed h.accepts
      (h.wellFormed.width width (hfield ▸ hwidth))
    rw [h.fits.value.1, hbits, bytesFor]
    omega
  · exact Nat.succ_pos _

theorem length_residue_le (h : p.Sound) (hpart : p.1.residue endpoint p.2 = .ok part) :
    part.length ≤ p.2.sentRoom := by
  have hvalue : p.2.value.length ≤ p.2.sentRoom := Nat.le_add_right ..
  rw [RuleField.residue] at hpart
  cases haction : p.1.action <;> rw [haction] at hpart <;> dsimp only at hpart
  case valueSent =>
    rw [RuleField.valueResidue] at hpart
    cases hlength : p.1.length with
    | fixed | token =>
      rw [hlength] at hpart
      cases hpart
      exact hvalue
    | «variable» =>
      have hfield := (RuleField.accepts_iff.1 h.accepts).1
      have hwidth : ¬ p.2.field.width?.isSome := by
        intro hsome
        obtain ⟨width, hwidth⟩ := Option.isSome_iff_exists.1 hsome
        cases hlength.symm.trans (h.wellFormed.width width (hfield ▸ hwidth))
      rw [hlength] at hpart
      dsimp only at hpart
      split at hpart
      · cases hpart
        rw [Column.sentRoom, if_neg hwidth, List.length_cons]
      · cases hpart
  case mappingSent =>
    split at hpart
    · cases hpart
    · cases hpart
      exact h.sentRoom_pos
  case lsb =>
    obtain ⟨count, hoperator⟩ := h.wellFormed.lsb haction
    obtain ⟨low, known, -, -, hlow, hspelt, -, hcount, -⟩ :=
      RuleField.exists_low_of_msb h.wellFormed h.accepts h.fits hoperator
    rw [hoperator] at hpart
    dsimp only at hpart
    rw [Column.lowBits_alignRight hlow hspelt hcount] at hpart
    cases hpart
    refine le_trans ?_ hvalue
    rw [hspelt, length_alignRight, length_alignRight, List.length_drop, bytesFor, bytesFor]
    omega
  case devIid =>
    split at hpart
    · cases hpart
    · split at hpart
      · cases hpart
        exact Nat.zero_le _
      · cases hpart
  case appIid => cases hpart
  all_goals
    cases hpart
    exact Nat.zero_le _

end FieldPair.Sound

theorem Rule.Sends.length_le (h : rule.Sends device layer endpoint data columns length bytes)
    (haccepted : device.Accepted) : bytes.length ≤ (columns.map Column.sentRoom).sum := by
  obtain ⟨parts, hparts, hbytes⟩ := bind_eq_ok_iff.1 h.residue
  cases hbytes
  rw [List.length_flatten, ← h.map_snd_pairs, List.map_map]
  have hle : List.Forall₂ (· ≤ ·) (parts.map List.length)
      ((rule.pairs endpoint.direction columns).map fun p => p.2.sentRoom) := by
    rw [List.forall₂_map_left_iff, List.forall₂_map_right_iff]
    refine (((List.forall₂_and_left _ _).2
      ⟨h.sound haccepted, mapM_eq_ok_iff.1 hparts⟩).imp ?_).flip
    rintro p part ⟨hsound, hpart⟩
    exact hsound.length_residue_le hpart
  exact hle.sum_le_sum

/-- By how many bytes the fields of a header are longer than the header, at most. -/
def Layer.slack : Layer → Nat
  | .network => 1
  | .transport => 0
  | .application => 3

theorem Layout.sum_sentRoom_columns {layout : List Slot} (h : Within layout (8 * length))
    (hwidth : ∀ slot ∈ layout, slot.field.width?.isSome) (hdata : length ≤ data.length) :
    ((Layout.columns layout (data.take length)).map Column.sentRoom).sum =
      (layout.map fun slot => bytesFor slot.width).sum := by
  have hheader : (data.take length).length = length := List.length_take_of_le hdata
  have hwithin : Within layout (8 * (data.take length).length) := by rwa [hheader]
  rw [Layout.columns, List.map_map]
  congr 1
  apply List.map_congr_left
  intro slot hslot
  have hfits := hwithin.fits _ (List.mem_map_of_mem hslot)
  exact (congrArg (_ + ·) (if_pos (hwidth slot hslot))).trans hfits.value.1

namespace CoapHeader

theorem sum_sentRoom_options {options : List CoapOption} (previous : UInt16)
    (h : List.Forall₂ (fun option column => optionColumn option = .ok column) options columns) :
    (columns.map Column.sentRoom).sum ≤ CoapMessage.optionsLength previous options := by
  induction h generalizing previous with
  | nil => exact Nat.le_refl _
  | @cons option column options columns hoption _ ih =>
    obtain ⟨name, -, -, rfl⟩ := optionColumn_eq_ok hoption
    have hfirst : (Column.ofBytes (.coapOption name) option.value).sentRoom =
        option.value.length + 1 := rfl
    have hrest := ih option.number
    rw [List.map_cons, List.sum_cons, hfirst, CoapMessage.optionsLength, CoapOption.encodedLength]
    omega

theorem sum_sentRoom_columns (h : CoapHeader.columns data = .ok (columns, length)) :
    (columns.map Column.sentRoom).sum ≤ length + 3 ∧ length ≤ data.length := by
  obtain ⟨message, options, hparse, rfl, hoptions, rfl⟩ := columns_eq_ok h
  obtain ⟨hwf, rfl⟩ := CoapMessage.parse_eq_ok hparse
  have hfixed : ((fixedColumns message).map Column.sentRoom).sum = 6 := by
    simp [fixedColumns, Column.ofNat, Column.sentRoom, bytesFor, HeaderField.width?]
  have htoken : ((tokenColumns message).map Column.sentRoom).sum ≤ message.token.length + 1 := by
    rw [tokenColumns]
    split
    · exact Nat.zero_le _
    · exact Nat.le_refl _
  have hoptionsRoom := sum_sentRoom_options 0 hoptions
  have hmarker : ((markerColumns message).map Column.sentRoom).sum =
      if message.payload.isEmpty then 0 else 1 := by
    rw [markerColumns]
    split <;> rfl
  rw [CoapMessage.length_toBytes, CoapMessage.headerLength]
  simp only [List.map_append, List.sum_append]
  omega

end CoapHeader

theorem Layer.sum_sentRoom_columns (h : layer.columns direction data = .ok (columns, length)) :
    (columns.map Column.sentRoom).sum ≤ length + layer.slack ∧ length ≤ data.length := by
  cases layer with
  | network =>
    obtain ⟨columns', hcolumns, h⟩ := bind_eq_ok_iff.1 h
    cases h
    obtain ⟨hlen, rfl⟩ := Ipv6Header.columns_eq_ok hcolumns
    have hsum : ((Layout.ipv6 direction).map fun slot => bytesFor slot.width).sum = 41 := by
      cases direction <;> decide
    rw [Layout.sum_sentRoom_columns (Layout.ipv6_within direction) (by cases direction <;> decide)
      hlen, hsum]
    exact ⟨Nat.succ_le_succ hlen, le_rfl⟩
  | transport =>
    obtain ⟨columns', hcolumns, h⟩ := bind_eq_ok_iff.1 h
    cases h
    obtain ⟨hlen, rfl⟩ := UdpHeader.columns_eq_ok hcolumns
    have hsum : ((Layout.udp direction).map fun slot => bytesFor slot.width).sum = 8 := by
      cases direction <;> decide
    rw [Layout.sum_sentRoom_columns (Layout.udp_within direction) (by cases direction <;> decide)
      hlen, hsum]
    exact ⟨hlen, le_rfl⟩
  | application => exact CoapHeader.sum_sentRoom_columns h

theorem SentLayer.SentAs.length_le (h : SentAs device layer endpoint data sent rule?)
    (haccepted : device.Accepted) :
    sent.bytes.length ≤ sent.consumed + layer.slack ∧ sent.consumed ≤ data.length := by
  cases h with
  | verbatim => exact ⟨Nat.le_add_right .., le_rfl⟩
  | rule h =>
    obtain ⟨hroom, hlength⟩ := layer.sum_sentRoom_columns h.loads
    exact ⟨(h.length_le haccepted).trans hroom, hlength⟩

theorem assemble_eq_ofData (device : Device) (packet : List UInt8) (ipv6 udp coap : SentLayer)
    (payload : List UInt8) :
    ∃ id body code layered? count,
      assemble device packet ipv6 udp coap payload =
        .ofData packet (id ++ body) code layered? count ∧
      id.length = code.byteCount ∧ (device.mode = .layered → code.byteCount = 1) ∧
      (device.mode = .composite → code ∈ device.codes) ∧
      (body = ipv6.bytes ++ udp.bytes ++ coap.bytes ++ payload ∧ count = payload.length ∨
        body = packet ∧ count = 0) := by
  have hbytes (code : RuleCode) : code.bytes.length = code.byteCount := by
    rw [RuleCode.bytes, length_bytesOfBits, RuleCode.length_bits, RuleCode.byteCount]
  rw [assemble]
  have hmodes : IdMode.layered ≠ .composite := by decide
  cases hmode : device.mode with
  | layered =>
    exact ⟨[_], _, _, _, _, rfl, (RuleCode.byteCount_layered _).symm,
      fun _ => RuleCode.byteCount_layered _, fun hother => (hmodes hother).elim, .inl ⟨rfl, rfl⟩⟩
  | composite =>
    dsimp only
    split
    · rename_i composite hfound
      have hcode : composite.code ∈ device.codes :=
        List.mem_append_left _ (List.mem_map_of_mem (Device.of_compositeWith? hfound).1)
      exact ⟨_, _, _, _, _, rfl, hbytes composite.code, fun hother => (hmodes hother.symm).elim,
        fun _ => hcode, .inl ⟨rfl, rfl⟩⟩
    · have hcode : device.uncompressed ∈ device.codes := List.mem_append_right _ List.mem_cons_self
      exact ⟨_, _, _, _, _, rfl, hbytes device.uncompressed,
        fun hother => (hmodes hother.symm).elim, fun _ => hcode, .inr ⟨rfl, rfl⟩⟩

theorem Device.Accepted.byteCount_le (haccepted : device.Accepted) {code : RuleCode}
    (hlayered : device.mode = .layered → code.byteCount = 1)
    (hcomposite : device.mode = .composite → code ∈ device.codes) : code.byteCount ≤ 4 := by
  cases hmode : device.mode with
  | layered =>
    rw [hlayered hmode]
    decide
  | composite =>
    have hlength := haccepted.isCodeLength hmode (hcomposite hmode)
    simp only [Device.isCodeLength, Bool.and_eq_true, decide_eq_true_eq] at hlength
    rw [RuleCode.byteCount, bytesFor]
    omega

/-- What follows the headers of a packet, as far as they are compressed. -/
def Device.payloadOf (device : Device) (packet : List UInt8) (endpoint : Endpoint) : List UInt8 :=
  (Layer.application.dataOf packet).drop
    (SentLayer.ofPacket device .application packet endpoint).consumed

theorem length_layers_le (haccepted : device.Accepted) (packet : List UInt8)
    (endpoint : Endpoint) :
    ((SentLayer.ofPacket device .network packet endpoint).bytes ++
      (SentLayer.ofPacket device .transport packet endpoint).bytes ++
      (SentLayer.ofPacket device .application packet endpoint).bytes ++
      device.payloadOf packet endpoint).length ≤ packet.length + 4 ∧
    (device.payloadOf packet endpoint).length ≤ packet.length := by
  obtain ⟨_, hnetwork⟩ := SentLayer.exists_sentAs device .network endpoint
    (Layer.network.dataOf packet)
  obtain ⟨_, htransport⟩ := SentLayer.exists_sentAs device .transport endpoint
    (Layer.transport.dataOf packet)
  obtain ⟨_, happlication⟩ := SentLayer.exists_sentAs device .application endpoint
    (Layer.application.dataOf packet)
  have hnetwork := hnetwork.length_le haccepted
  have htransport := htransport.length_le haccepted
  have happlication := happlication.length_le haccepted
  have hwhole := congrArg List.length (Layer.dataOf_append packet)
  simp only [List.length_append, Layer.slack] at *
  simp only [Device.payloadOf, List.length_drop, SentLayer.ofPacket]
  omega

theorem savedBits_ofData (code : RuleCode) (layered? : Option LayeredId) {count : Nat}
    (hpacket : count ≤ packet.length) (hdata : count ≤ data.length) :
    (CompressedPacket.ofData packet data code layered? count).sizes.savedBits =
      (8 * ((packet.length : Int) - data.length)).bmod UInt64.size := by
  have hsizes : ((8 * (packet.length - count) : Nat) : Int) - (8 * (data.length - count) : Nat) =
      8 * ((packet.length : Int) - data.length) := by omega
  rw [CompressedPacket.ofData, HeaderSizes.savedBits, hsizes]

theorem SentLayer.ofPacket_withCapacity (device : Device) (layer : Layer) (packet : List UInt8)
    (endpoint : Endpoint) (capacity? : Option Nat) :
    ofPacket device layer packet { endpoint with capacity? } =
      ofPacket device layer packet endpoint := by
  rw [ofPacket_eq, ofPacket_eq]
  rfl

theorem Endpoint.accept_withCapacity (endpoint : Endpoint) (capacity? : Option Nat)
    (compressed : CompressedPacket) :
    Endpoint.accept { endpoint with capacity? } compressed =
      match capacity? with
      | none => .ok compressed
      | some capacity =>
        if compressed.data.length ≤ capacity then .ok compressed
        else .error (.smallBuffer compressed.data.length capacity) := by
  rw [accept]
  cases capacity? with
  | none => rfl
  | some capacity =>
    dsimp only
    by_cases hfits : compressed.data.length ≤ capacity
    · rw [if_pos hfits, if_neg (Nat.not_lt.2 hfits)]
    · rw [if_neg hfits, if_pos (Nat.lt_of_not_le hfits)]

/-- A packet with both headers is always compressed, to a form that is at most four bytes longer
than the packet and the rule id. A capacity does not change this form: it is sent if it fits, and
its length is named if not. The payload, which does not count as header, is no longer than either
packet, so the bits that are saved are those of the packet less those of the form, as long as this
is a signed number of 64 bits. -/
theorem Device.compress_bounded (device : Device) (haccepted : device.Accepted)
    (packet : List UInt8) (hpacket : ipv6HeaderLength + udpHeaderLength ≤ packet.length)
    (endpoint : Endpoint) :
    ∃ compressed : CompressedPacket,
      (∀ capacity?, (compress device packet { endpoint with capacity? }).1 =
        match capacity? with
        | none => .ok compressed
        | some capacity =>
          if compressed.data.length ≤ capacity then .ok compressed
          else .error (.smallBuffer compressed.data.length capacity)) ∧
      (device.mode = .layered → compressed.code.byteCount = 1) ∧
      (device.mode = .composite → compressed.code ∈ device.codes) ∧
      compressed.data.length ≤ packet.length + compressed.code.byteCount + 4 ∧
      (∃ payload ∈ [(device.payloadOf packet endpoint).length, 0],
        compressed.sizes =
          ⟨8 * (packet.length - payload), 8 * (compressed.data.length - payload)⟩ ∧
        payload ≤ packet.length ∧ payload ≤ compressed.data.length) ∧
      compressed.sizes.savedBits =
        (8 * ((packet.length : Int) - compressed.data.length)).bmod UInt64.size ∧
      (8 * ((packet.length : Int) - compressed.data.length) < 2 ^ 63 →
        compressed.sizes.savedBits = 8 * ((packet.length : Int) - compressed.data.length) ∧
        -8 * ((compressed.code.byteCount : Int) + 4) ≤ compressed.sizes.savedBits) := by
  obtain ⟨id, body, code, layered?, count, hform, hid, hlayered, hcomposite, hbody⟩ :=
    assemble_eq_ofData device packet (.ofPacket device .network packet endpoint)
      (.ofPacket device .transport packet endpoint)
      (.ofPacket device .application packet endpoint) (device.payloadOf packet endpoint)
  obtain ⟨hlayers, hpayload⟩ := length_layers_le haccepted packet endpoint
  have hbounds : body.length ≤ packet.length + 4 ∧ count ≤ body.length ∧ count ≤ packet.length ∧
      count ∈ [(device.payloadOf packet endpoint).length, 0] := by
    rcases hbody with ⟨rfl, rfl⟩ | ⟨rfl, rfl⟩
    · refine ⟨hlayers, ?_, hpayload, List.mem_cons_self⟩
      rw [List.length_append]
      exact Nat.le_add_left ..
    · exact ⟨Nat.le_add_right .., Nat.zero_le _, Nat.zero_le _, by simp⟩
  obtain ⟨hlength, hinside, hshort, hcount⟩ := hbounds
  have hcode := haccepted.byteCount_le hlayered hcomposite
  have hdata : (id ++ body).length = code.byteCount + body.length := by
    rw [List.length_append, hid]
  have hsaved := savedBits_ofData code layered? hshort (show count ≤ (id ++ body).length by omega)
  refine ⟨.ofData packet (id ++ body) code layered? count, fun capacity? => ?_, hlayered,
    hcomposite, ?_, ⟨count, hcount, rfl, hshort, ?_⟩, hsaved, fun hsigned => ?_⟩
  · rw [compress_fst hpacket, ← hform]
    simp only [SentLayer.ofPacket_withCapacity]
    exact Endpoint.accept_withCapacity endpoint capacity? _
  · change (id ++ body).length ≤ packet.length + code.byteCount + 4
    omega
  · change count ≤ (id ++ body).length
    omega
  · have hexact : (8 * ((packet.length : Int) - (id ++ body).length)).bmod UInt64.size =
        8 * ((packet.length : Int) - (id ++ body).length) := by
      change 8 * ((packet.length : Int) - (id ++ body).length) < 2 ^ 63 at hsigned
      apply Int.bmod_eq_of_le_mul_two <;> rw [UInt64.size] <;> omega
    rw [hsaved, hexact]
    refine ⟨rfl, ?_⟩
    change -8 * ((code.byteCount : Int) + 4) ≤ _
    omega

def Device.strangerText : String :=
  "[[[1,\"layered\",0,8,null,
    [[1,null,[[\"IPV6.VER\",null,null,null,\"ignore\",null,\"value-sent\"],
    [\"IPV6.TC\",null,null,null,\"ignore\",null,\"value-sent\"],
    [\"IPV6.FL\",null,null,null,\"ignore\",null,\"value-sent\"],
    [\"IPV6.LEN\",null,null,null,\"ignore\",null,\"value-sent\"],
    [\"IPV6.NXT\",null,null,null,\"ignore\",null,\"value-sent\"],
    [\"IPV6.HOP_LMT\",null,null,null,\"ignore\",null,\"value-sent\"],
    [\"IPV6.DEV_PREFIX\",null,null,null,\"ignore\",null,\"value-sent\"],
    [\"IPV6.DEV_IID\",null,null,null,\"ignore\",null,\"value-sent\"],
    [\"IPV6.APP_PREFIX\",null,null,null,\"ignore\",null,\"value-sent\"],
    [\"IPV6.APP_IID\",null,null,null,\"ignore\",null,\"value-sent\"]]]],
    [[1,null,[[\"UDP.DEV_PORT\",null,null,null,\"ignore\",null,\"value-sent\"],
    [\"UDP.APP_PORT\",null,null,null,\"ignore\",null,\"value-sent\"],
    [\"UDP.LEN\",null,null,null,\"ignore\",null,\"value-sent\"],
    [\"UDP.CKSUM\",null,null,null,\"ignore\",null,\"value-sent\"]]]],
    [[1,null,[[\"COAP.VER\",null,null,null,\"ignore\",null,\"value-sent\"],
    [\"COAP.TYPE\",null,null,null,\"ignore\",null,\"value-sent\"],
    [\"COAP.TKL\",null,null,null,\"ignore\",null,\"value-sent\"],
    [\"COAP.CODE\",null,null,null,\"ignore\",null,\"value-sent\"],
    [\"COAP.MID\",null,null,null,\"ignore\",null,\"value-sent\"],
    [\"COAP.TOKEN\",\"var\",null,null,\"ignore\",null,\"value-sent\"]]]]]]]"

/-- A device whose rules know nothing about its packets: every field is sent in full. -/
def Device.stranger : Device :=
  ⟨1, .layered, ⟨0, 8⟩, none,
    [⟨1, none, [
      ⟨.ipv6Version, .fixed 4, none, .ignore, .none, .valueSent⟩,
      ⟨.ipv6TrafficClass, .fixed 8, none, .ignore, .none, .valueSent⟩,
      ⟨.ipv6FlowLabel, .fixed 20, none, .ignore, .none, .valueSent⟩,
      ⟨.ipv6PayloadLength, .fixed 16, none, .ignore, .none, .valueSent⟩,
      ⟨.ipv6NextHeader, .fixed 8, none, .ignore, .none, .valueSent⟩,
      ⟨.ipv6HopLimit, .fixed 8, none, .ignore, .none, .valueSent⟩,
      ⟨.ipv6DevicePrefix, .fixed 64, none, .ignore, .none, .valueSent⟩,
      ⟨.ipv6DeviceIid, .fixed 64, none, .ignore, .none, .valueSent⟩,
      ⟨.ipv6AppPrefix, .fixed 64, none, .ignore, .none, .valueSent⟩,
      ⟨.ipv6AppIid, .fixed 64, none, .ignore, .none, .valueSent⟩]⟩],
    [⟨1, none, [
      ⟨.udpDevicePort, .fixed 16, none, .ignore, .none, .valueSent⟩,
      ⟨.udpAppPort, .fixed 16, none, .ignore, .none, .valueSent⟩,
      ⟨.udpLength, .fixed 16, none, .ignore, .none, .valueSent⟩,
      ⟨.udpChecksum, .fixed 16, none, .ignore, .none, .valueSent⟩]⟩],
    [⟨1, none, [
      ⟨.coapVersion, .fixed 2, none, .ignore, .none, .valueSent⟩,
      ⟨.coapType, .fixed 2, none, .ignore, .none, .valueSent⟩,
      ⟨.coapTokenLength, .fixed 4, none, .ignore, .none, .valueSent⟩,
      ⟨.coapCode, .fixed 8, none, .ignore, .none, .valueSent⟩,
      ⟨.coapMessageId, .fixed 16, none, .ignore, .none, .valueSent⟩,
      ⟨.coapToken, .variable, none, .ignore, .none, .valueSent⟩]⟩], []⟩

set_option maxRecDepth 8000 in
theorem Device.stranger_accepted : stranger.Accepted := by
  have htext : strangerText = String.ofList _ := rfl
  have hcheck : RuleSet.check ⟨[stranger]⟩ = .ok () := by decide +kernel
  exact accepted_of_chars htext hcheck (by decide +kernel) List.mem_cons_self

def Device.strangerPacket : List UInt8 :=
  [0x60, 0, 0, 0, 0, 13, 17, 64] ++ List.replicate 16 0x2A ++ List.replicate 16 0x2B ++
    [0x16, 0x33, 0x16, 0x33, 0, 13, 0, 0] ++ [0x41, 1, 0x12, 0x34, 0xAA]

/-- The bound is met: the packet of 53 bytes becomes five bytes longer, and is refused where only
57 bytes fit. -/
theorem Device.stranger_compress_bounded :
    ∃ compressed : CompressedPacket, strangerPacket.length = 53 ∧
      (compress stranger strangerPacket (.ofDirection .up)).1 = .ok compressed ∧
      compressed.data.length = 58 ∧ compressed.sizes.savedBits = -40 ∧
      (compress stranger strangerPacket ((Endpoint.ofDirection .up).withCapacity 57)).1 =
        .error (.smallBuffer 58 57) := by
  obtain ⟨compressed, hrun, -, -, -, -, -, hsaved⟩ := compress_bounded stranger stranger_accepted
    strangerPacket (by decide) (.ofDirection .up)
  have hpacket : strangerPacket.length = 53 := rfl
  have hfree : (compress stranger strangerPacket (.ofDirection .up)).1 = .ok compressed :=
    hrun none
  have hlength : (compress stranger strangerPacket (.ofDirection .up)).1.map (·.data.length) =
      .ok 58 := by decide +kernel
  rw [hfree] at hlength
  have hdata : compressed.data.length = 58 := Except.ok.inj hlength
  have hfull := hrun (some 57)
  rw [hdata] at hfull
  rw [hpacket, hdata] at hsaved
  exact ⟨compressed, hpacket, hfree, hdata, (hsaved (by decide)).1, hfull⟩

end HeaderCompression
