import HeaderCompression.Proofs.Packet.Heading
import HeaderCompression.Proofs.Rule.Refusal

namespace HeaderCompression

def Device.extend (device : Device) (more : Layer → List Rule) (composites : List CompositeRule) :
    Device :=
  { device with
    ipv6Rules := device.ipv6Rules ++ more .network
    udpRules := device.udpRules ++ more .transport
    coapRules := device.coapRules ++ more .application
    composites := device.composites ++ composites }

variable {device : Device} {more : Layer → List Rule} {composites : List CompositeRule}
  {layer : Layer} {rule : Rule} {rules others : List Rule} {columns : List Column}
  {direction : Direction} {endpoint : Endpoint} {packet data body result : List UInt8}
  {selection : Selection} {compressed : CompressedPacket}

theorem Rule.select?_append (h : select? rules columns direction = some rule) :
    select? (rules ++ others) columns direction = some rule :=
  (List.prefix_append ..).find?_eq_some h

namespace Device

theorem rules_extend (device : Device) (more : Layer → List Rule) (composites : List CompositeRule)
    (layer : Layer) : (device.extend more composites).rules layer =
      device.rules layer ++ more layer := by
  cases layer <;> rfl

theorem rule_extend {id : Nat} (h : device.rule layer id = .ok rule) :
    (device.extend more composites).rule layer id = .ok rule := by
  rw [Device.rule] at h
  split at h
  · cases h
  · rename_i found hfind
    cases h
    rw [Device.rule, rules_extend, (List.prefix_append ..).find?_eq_some hfind]

theorem mapM_rule_extend {id? : Option Nat} {rule? : Option Rule}
    (h : id?.mapM (device.rule layer) = .ok rule?) :
    id?.mapM ((device.extend more composites).rule layer) = .ok rule? := by
  cases id? with
  | none => exact h
  | some id =>
    obtain ⟨rule, hrule, rfl⟩ := map_eq_ok_iff.1 h
    exact map_eq_ok_iff.2 ⟨rule, rule_extend hrule, rfl⟩

theorem compositeWith?_extend {composite : CompositeRule}
    (h : device.compositeWith? selection = some composite) :
    (device.extend more composites).compositeWith? selection = some composite :=
  (List.prefix_append ..).find?_eq_some h

theorem mem_entries_extend {entry : RuleCode × CodeMatch} (h : entry ∈ device.entries) :
    entry ∈ (device.extend more composites).entries := by
  rw [entries, List.mem_append] at h ⊢
  refine h.imp_left fun h => ?_
  rw [extend, List.map_append]
  exact List.mem_append_left _ h

section Received

variable (haccepted : device.Accepted) (hextended : (device.extend more composites).Accepted)

include haccepted hextended in
/-- No new code leads data that an old one leads. -/
theorem matchCode_extend (hmode : device.mode = .composite) {found : CodeMatch}
    (h : device.matchCode data = .ok found) :
    (device.extend more composites).matchCode data = .ok found := by
  obtain ⟨hdata, entry, hentry, rfl, hlead⟩ := haccepted.exists_entry hmode h
  exact hextended.matchCode_eq_ok hmode (mem_entries_extend hentry) hdata hlead

theorem Resolves.extend {ipv6Rule? udpRule? coapRule? : Option Rule}
    (h : device.Resolves selection ipv6Rule? udpRule? coapRule?) :
    (device.extend more composites).Resolves selection ipv6Rule? udpRule? coapRule? :=
  ⟨mapM_rule_extend h.network, mapM_rule_extend h.transport, mapM_rule_extend h.application⟩

theorem restorePacket_extend (h : restorePacket device endpoint selection body = .ok result) :
    restorePacket (device.extend more composites) endpoint selection body = .ok result := by
  obtain ⟨_, _, _, _, _, hrules, hparts⟩ := restorePacket_eq_ok_iff.1 h
  exact restorePacket_eq_ok_iff.2 ⟨_, _, _, _, _, hrules.extend, hparts⟩

include haccepted hextended in
theorem decompress_extend {restored : RestoredPacket}
    (h : decompress device endpoint data = .ok restored) :
    decompress (device.extend more composites) endpoint data = .ok restored := by
  have hmode : (device.extend more composites).mode = device.mode := rfl
  unfold decompress at h ⊢
  rw [hmode]
  split at h
  · split at h
    · cases h
    · obtain ⟨packet, hpacket, h⟩ := bind_eq_ok_iff.1 h
      exact bind_eq_ok_iff.2 ⟨packet, restorePacket_extend hpacket, h⟩
  · rename_i hcomposite
    obtain ⟨found, hfound, h⟩ := bind_eq_ok_iff.1 h
    refine bind_eq_ok_iff.2 ⟨found, matchCode_extend haccepted hextended hcomposite hfound, ?_⟩
    cases found with
    | uncompressed => exact h
    | composite composite =>
      obtain ⟨packet, hpacket, h⟩ := bind_eq_ok_iff.1 h
      exact bind_eq_ok_iff.2 ⟨packet, restorePacket_extend hpacket, h⟩

end Received

theorem underRule?_extend {sent : SentLayer}
    (h : SentLayer.underRule? device layer packet endpoint = some sent) :
    SentLayer.underRule? (device.extend more composites) layer packet endpoint = some sent := by
  unfold SentLayer.underRule? at h ⊢
  split at h
  · cases h
  · rename_i columns length hcolumns
    split at h
    · cases h
    · rename_i rule hselect
      rw [rules_extend, Rule.select?_append hselect]
      exact h

theorem ofPacket_extend (h : (SentLayer.ofPacket device layer packet endpoint).rule?.isSome) :
    SentLayer.ofPacket (device.extend more composites) layer packet endpoint =
      SentLayer.ofPacket device layer packet endpoint := by
  rw [SentLayer.ofPacket_eq (device.extend more composites),
    underRule?_extend (SentLayer.underRule?_eq_some h)]
  rfl

theorem compress_extend (haccepted : device.Accepted)
    (h : (compress device packet endpoint).1 = .ok compressed)
    (hlayers : ∀ layer, ((compressed.selection device).layer? layer).isSome) :
    (compress (device.extend more composites) packet endpoint).1 = .ok compressed := by
  obtain ⟨hselection, hcomposite⟩ := haccepted.selection_of_compress h (hlayers .network)
  have hlen := (compress_eq_ok h).1
  have hsame (layer : Layer) : SentLayer.ofPacket (device.extend more composites) layer packet
      endpoint = SentLayer.ofPacket device layer packet endpoint := by
    apply ofPacket_extend
    rw [← layer?_selectionOf, ← hselection]
    exact hlayers layer
  rw [compress_fst hlen] at h ⊢
  rw [hsame .network, hsame .transport, hsame .application, ← h]
  congr 1
  have hmode : (device.extend more composites).mode = device.mode := rfl
  unfold assemble
  rw [hmode]
  split
  · rfl
  · rename_i hcomposite'
    obtain ⟨composite, hfind⟩ := hcomposite hcomposite'
    rw [selectionOf] at hfind
    rw [hfind, compositeWith?_extend hfind]

/-- A device that is given further rules understands everything that it understood before, and
compresses packets as before if all of their layers were sent under rules. -/
theorem extend_compatible (device : Device) (haccepted : device.Accepted)
    (more : Layer → List Rule) (composites : List CompositeRule)
    (hextended : (device.extend more composites).Accepted) :
    (∀ endpoint data restored, decompress device endpoint data = .ok restored →
      decompress (device.extend more composites) endpoint data = .ok restored) ∧
    ∀ endpoint packet compressed, (compress device packet endpoint).1 = .ok compressed →
      (∀ layer, ((compressed.selection device).layer? layer).isSome) →
      (compress (device.extend more composites) packet endpoint).1 = .ok compressed :=
  ⟨fun _ _ _ => decompress_extend haccepted hextended, fun _ _ _ => compress_extend haccepted⟩

def settledText : String :=
  "[[[1,\"composite\",0,8,null,
    [[1,null,[[\"IPV6.VER\",null,null,6,\"equal\",null,\"not-sent\"],
    [\"IPV6.TC\",null,null,null,\"ignore\",null,\"value-sent\"],
    [\"IPV6.FL\",null,null,0,\"ignore\",null,\"not-sent\"],
    [\"IPV6.LEN\",null,null,null,\"ignore\",null,\"compute-length\"],
    [\"IPV6.NXT\",null,null,17,\"equal\",null,\"not-sent\"],
    [\"IPV6.HOP_LMT\",null,null,64,\"ignore\",null,\"not-sent\"],
    [\"IPV6.DEV_PREFIX\",null,null,null,\"ignore\",null,\"value-sent\"],
    [\"IPV6.DEV_IID\",null,null,null,\"ignore\",null,\"DevIID\"],
    [\"IPV6.APP_PREFIX\",null,null,null,\"ignore\",null,\"value-sent\"],
    [\"IPV6.APP_IID\",null,null,null,\"ignore\",null,\"value-sent\"]]]],
    [[1,null,[[\"UDP.DEV_PORT\",null,null,5683,\"MSB\",12,\"LSB\"],
    [\"UDP.APP_PORT\",null,null,null,\"ignore\",null,\"value-sent\"],
    [\"UDP.LEN\",null,null,null,\"ignore\",null,\"compute-length\"],
    [\"UDP.CKSUM\",null,null,null,\"ignore\",null,\"compute-checksum\"]]],
    [2,null,[[\"UDP.DEV_PORT\",null,null,5683,\"equal\",null,\"not-sent\"],
    [\"UDP.APP_PORT\",null,null,61616,\"equal\",null,\"not-sent\"],
    [\"UDP.LEN\",null,null,null,\"ignore\",null,\"compute-length\"],
    [\"UDP.CKSUM\",null,null,null,\"ignore\",null,\"compute-checksum\"]]]],
    [[1,null,[[\"COAP.VER\",null,null,1,\"equal\",null,\"not-sent\"],
    [\"COAP.TYPE\",null,null,null,\"ignore\",null,\"value-sent\"],
    [\"COAP.TKL\",null,null,0,\"equal\",null,\"not-sent\"],
    [\"COAP.CODE\",null,null,null,\"ignore\",null,\"value-sent\"],
    [\"COAP.MID\",null,null,null,\"ignore\",null,\"value-sent\"]]]],
    [[1,4,null,1,1,1],[513,10,null,1,2,1],[3,2,null,1,2,null]]]]]"

/-- The nomad with a rule for the ports that it uses most, under a longer code and a shorter one. -/
def settled : Device :=
  nomad.extend
    (fun layer => if layer = .transport then [⟨2, none, [
      ⟨.udpDevicePort, .fixed 16, none, .equal, .single [0x16, 0x33], .notSent⟩,
      ⟨.udpAppPort, .fixed 16, none, .equal, .single [0xF0, 0xB0], .notSent⟩,
      ⟨.udpLength, .fixed 16, none, .ignore, .none, .computeLength⟩,
      ⟨.udpChecksum, .fixed 16, none, .ignore, .none, .computeChecksum⟩]⟩] else [])
    [⟨⟨513, 10⟩, none, ⟨some 1, some 2, some 1⟩⟩, ⟨⟨3, 2⟩, none, ⟨some 1, some 2, none⟩⟩]

set_option maxRecDepth 8000 in
theorem settled_accepted : settled.Accepted := by
  have htext : settledText = String.ofList _ := rfl
  have hcheck : RuleSet.check ⟨[settled]⟩ = .ok () := by decide +kernel
  exact accepted_of_chars htext hcheck (by decide +kernel) List.mem_cons_self

def nomadPacket : List UInt8 :=
  nomadHeader ++ [0x16, 0x33, 0xF0, 0xB0, 0, 12, 0x70, 0x87] ++ [0x40, 1, 0x12, 0x34]

def nomadCompressed : CompressedPacket :=
  ⟨[0x10] ++ (0 :: List.replicate 8 0x2A ++ List.replicate 16 0x2B) ++ [3, 0xF0, 0xB0] ++
    [0, 1, 0x12, 0x34], ⟨1, 4⟩, none, ⟨416, 264⟩⟩

theorem compress_nomadPacket :
    (compress nomad nomadPacket (nomadEndpoint .up)).1 = .ok nomadCompressed := by
  decide +kernel

/-- The packet is compressed as before, though a rule that knows both of its ports is there now. -/
theorem settled_compatible :
    (compress settled nomadPacket (nomadEndpoint .up)).1 = .ok nomadCompressed ∧
      decompress settled (nomadEndpoint .up) nomadCompressed.data =
        .ok ⟨nomadPacket, ⟨1, 4⟩, none⟩ := by
  have hcompatible := extend_compatible nomad nomad_accepted _ _ settled_accepted
  refine ⟨hcompatible.2 _ _ _ compress_nomadPacket fun layer => ?_,
    hcompatible.1 _ _ _ (by decide +kernel)⟩
  cases layer <;> decide

end Device

end HeaderCompression
