import HeaderCompression.Proofs.Packet.Verbatim

namespace HeaderCompression

open Packet

structure Heading where
  selection : Selection
  code : RuleCode
  layered? : Option LayeredId
  deriving DecidableEq, Repr

/-- The id in front of some data; none if there is no id or if the packet behind it was sent as it
is. -/
def Device.heading? (device : Device) (data : List UInt8) : Option Heading :=
  match device.mode with
  | .layered => data.head?.map fun byte =>
    ⟨(LayeredId.ofByte byte).selection, ⟨byte.toNat, 8⟩, some (LayeredId.ofByte byte)⟩
  | .composite =>
    match device.matchCode data with
    | .ok (.composite rule) => some ⟨rule.selection, rule.code, none⟩
    | _ => none

/-- The rules of the layers that a selection names, each looked up in the table of its layer. -/
structure Device.Resolves (device : Device) (selection : Selection)
    (ipv6Rule? udpRule? coapRule? : Option Rule) : Prop where
  network : selection.network?.mapM (device.rule .network) = .ok ipv6Rule?
  transport : selection.transport?.mapM (device.rule .transport) = .ok udpRule?
  application : selection.application?.mapM (device.rule .application) = .ok coapRule?

variable {device : Device} {endpoint : Endpoint} {data other body result : List UInt8}
  {heading : Heading} {selection : Selection} {layer : Layer} {rule : Rule}
  {rule? ipv6Rule? udpRule? coapRule? : Option Rule} {id? : Option Nat} {columns : List Column}
  {decoder : Decoder} {pending : Pending}

theorem partAt_eq_ok_iff {start length : Nat} :
    partAt body start length = .ok result ↔
      start + length ≤ body.length ∧ result = (body.drop start).take length := by
  unfold partAt
  split
  · rename_i h
    simp [h, eq_comm]
  · rename_i h
    simp [h]

theorem length_part_of_none {direction : Direction} {verbatim length : Nat} (start : Nat)
    (h : partLength none direction verbatim = .ok length) (hlen : start + length ≤ body.length) :
    ((body.drop start).take length).length = verbatim := by
  cases h
  rw [List.length_take_of_le]
  rw [List.length_drop]
  omega

theorem Device.mem_of_rule_eq_ok {id : Nat} (h : device.rule layer id = .ok rule) :
    rule ∈ device.rules layer ∧ rule.id = id := by
  rw [Device.rule] at h
  split at h
  · cases h
  · rename_i found hfind
    cases h
    exact ⟨List.mem_of_find?_eq_some hfind, by simpa using List.find?_some hfind⟩

theorem Device.of_mapM_rule_eq_ok (h : id?.mapM (device.rule layer) = .ok rule?) :
    id? = rule?.map (·.id) ∧ ∀ rule ∈ rule?, rule ∈ device.rules layer ∧
      device.rule layer rule.id = .ok rule := by
  cases id? with
  | none =>
    cases h
    exact ⟨rfl, fun rule hrule => by cases hrule⟩
  | some id =>
    obtain ⟨found, hfound, h⟩ := map_eq_ok_iff.1 h
    subst h
    obtain ⟨hmem, rfl⟩ := Device.mem_of_rule_eq_ok hfound
    refine ⟨rfl, fun rule hrule => ?_⟩
    cases hrule
    exact ⟨hmem, hfound⟩

namespace Device.Resolves

variable (h : device.Resolves selection ipv6Rule? udpRule? coapRule?)

include h in
theorem network_eq {id : Nat} (hid : selection.network? = some id)
    (hrule : device.rule .network id = .ok rule) : ipv6Rule? = some rule := by
  have hmap := h.network
  rw [hid] at hmap
  obtain ⟨found, hfound, rfl⟩ := map_eq_ok_iff.1 hmap
  rw [Except.ok.inj (hfound.symm.trans hrule)]

include h in
theorem transport_eq {id : Nat} (hid : selection.transport? = some id)
    (hrule : device.rule .transport id = .ok rule) : udpRule? = some rule := by
  have hmap := h.transport
  rw [hid] at hmap
  obtain ⟨found, hfound, rfl⟩ := map_eq_ok_iff.1 hmap
  rw [Except.ok.inj (hfound.symm.trans hrule)]

include h in
theorem mem_network : ∀ rule ∈ ipv6Rule?, rule ∈ device.rules .network :=
  fun rule hrule => ((Device.of_mapM_rule_eq_ok h.network).2 rule hrule).1

include h in
theorem mem_transport : ∀ rule ∈ udpRule?, rule ∈ device.rules .transport :=
  fun rule hrule => ((Device.of_mapM_rule_eq_ok h.transport).2 rule hrule).1

include h in
theorem mem_application : ∀ rule ∈ coapRule?, rule ∈ device.rules .application :=
  fun rule hrule => ((Device.of_mapM_rule_eq_ok h.application).2 rule hrule).1

end Device.Resolves

/-- A packet is restored from its parts, if there are enough bytes for those of IPv6 and UDP. -/
theorem restorePacket_eq_ok_iff :
    restorePacket device endpoint selection body = .ok result ↔
      ∃ ipv6Rule? udpRule? coapRule? ipv6Length udpLength,
        device.Resolves selection ipv6Rule? udpRule? coapRule? ∧
        partLength ipv6Rule? endpoint.direction ipv6HeaderLength = .ok ipv6Length ∧
        partLength udpRule? endpoint.direction udpHeaderLength = .ok udpLength ∧
        ipv6Length + udpLength ≤ body.length ∧
        restoreParts ipv6Rule? udpRule? coapRule? endpoint (body.take ipv6Length)
          ((body.drop ipv6Length).take udpLength) (body.drop (ipv6Length + udpLength)) =
            .ok result := by
  rw [restorePacket_eq]
  constructor
  · intro h
    obtain ⟨ipv6Rule?, hipv6, h⟩ := bind_eq_ok_iff.1 h
    obtain ⟨udpRule?, hudp, h⟩ := bind_eq_ok_iff.1 h
    obtain ⟨coapRule?, hcoap, h⟩ := bind_eq_ok_iff.1 h
    obtain ⟨ipv6Length, hipv6Length, h⟩ := bind_eq_ok_iff.1 h
    obtain ⟨udpLength, hudpLength, h⟩ := bind_eq_ok_iff.1 h
    obtain ⟨ipv6Part, hipv6Part, h⟩ := bind_eq_ok_iff.1 h
    obtain ⟨udpPart, hudpPart, h⟩ := bind_eq_ok_iff.1 h
    obtain ⟨-, rfl⟩ := partAt_eq_ok_iff.1 hipv6Part
    obtain ⟨hlen, rfl⟩ := partAt_eq_ok_iff.1 hudpPart
    exact ⟨ipv6Rule?, udpRule?, coapRule?, ipv6Length, udpLength, ⟨hipv6, hudp, hcoap⟩,
      hipv6Length, hudpLength, hlen, h⟩
  · rintro ⟨ipv6Rule?, udpRule?, coapRule?, ipv6Length, udpLength, hrules, hipv6Length, hudpLength,
      hlen, h⟩
    have hipv6Part : partAt body 0 ipv6Length = .ok (body.take ipv6Length) :=
      partAt_eq_ok_iff.2 ⟨by omega, rfl⟩
    have hudpPart : partAt body ipv6Length udpLength = .ok ((body.drop ipv6Length).take udpLength) :=
      partAt_eq_ok_iff.2 ⟨hlen, rfl⟩
    exact bind_eq_ok_iff.2 ⟨_, hrules.network, bind_eq_ok_iff.2 ⟨_, hrules.transport,
      bind_eq_ok_iff.2 ⟨_, hrules.application, bind_eq_ok_iff.2 ⟨_, hipv6Length,
      bind_eq_ok_iff.2 ⟨_, hudpLength, bind_eq_ok_iff.2 ⟨_, hipv6Part,
      bind_eq_ok_iff.2 ⟨_, hudpPart, h⟩⟩⟩⟩⟩⟩⟩

theorem restoreColumns_eq_ok_iff :
    restoreColumns rule endpoint data pending = .ok (columns, decoder) ↔
      rule.restore endpoint (.ofBytes data pending) = .ok columns decoder := by
  rw [restoreColumns]
  split
  · rename_i hrun
    rw [hrun]
    simp
  · rename_i hrun
    rw [hrun]
    simp

theorem restoreParts_eq_ok_iff_layers {ipv6 udp coap : List UInt8} :
    restoreParts ipv6Rule? udpRule? coapRule? endpoint ipv6 udp coap = .ok result ↔
      ∃ message front middle pending pending' pending'',
        restoreMessage coapRule? endpoint coap .none = .ok (message, pending) ∧
        restoreHeader .transport udpRule? endpoint udp pending = .ok (middle, pending') ∧
        restoreHeader .network ipv6Rule? endpoint ipv6 pending' = .ok (front, pending'') ∧
        complete pending'' (front ++ middle ++ message) = .ok () result := by
  constructor
  · intro h
    obtain ⟨⟨message, pending⟩, hmessage, h⟩ := bind_eq_ok_iff.1 h
    obtain ⟨⟨middle, pending'⟩, hmiddle, h⟩ := bind_eq_ok_iff.1 h
    obtain ⟨⟨front, pending''⟩, hfront, h⟩ := bind_eq_ok_iff.1 h
    dsimp only at h
    split at h
    · rename_i hcomplete
      cases h
      exact ⟨message, front, middle, pending, pending', pending'', hmessage, hmiddle, hfront,
        hcomplete⟩
    · cases h
  · rintro ⟨message, front, middle, pending, pending', pending'', hmessage, hmiddle, hfront,
      hcomplete⟩
    refine bind_eq_ok_iff.2 ⟨_, hmessage, bind_eq_ok_iff.2 ⟨_, hmiddle, bind_eq_ok_iff.2
      ⟨_, hfront, ?_⟩⟩⟩
    dsimp only
    rw [hcomplete]
    rfl

theorem RuleCode.byteCount_layered (id : Nat) : RuleCode.byteCount ⟨id, 8⟩ = 1 := by
  simp [byteCount, bytesFor]

theorem decompress_eq (h : device.heading? data = some heading) (endpoint : Endpoint) :
    decompress device endpoint data = (⟨·, heading.code, heading.layered?⟩) <$>
      restorePacket device endpoint heading.selection (data.drop heading.code.byteCount) := by
  unfold Device.heading? at h
  unfold decompress
  cases hmode : device.mode with
  | layered =>
    rw [hmode] at h
    cases data with
    | nil => cases h
    | cons byte body =>
      cases h
      dsimp only
      rw [RuleCode.byteCount_layered, List.drop_one, List.tail_cons]
      exact bind_pure_comp _ (restorePacket device endpoint (LayeredId.ofByte byte).selection body)
  | composite =>
    rw [hmode] at h
    dsimp only at h ⊢
    split at h
    · rename_i composite hmatch
      cases h
      rw [hmatch]
      exact bind_pure_comp _ (restorePacket device endpoint composite.selection _)
    · cases h

namespace Device.Accepted

variable (haccepted : device.Accepted)

include haccepted in
theorem exists_entry (hmode : device.mode = .composite) {found : CodeMatch}
    (h : device.matchCode data = .ok found) :
    data ≠ [] ∧ ∃ entry ∈ device.entries, entry.2 = found ∧
      entry.1.bits <+: bitsOfBytes data := by
  rw [matchCode] at h
  split at h
  · cases h
  rename_i hdata
  dsimp only at h
  split at h
  · cases h
  · rename_i entry hfind
    cases h
    have hmem := device.codeMatches_perm.mem_iff.1 (List.mem_of_find?_eq_some hfind)
    have hleads := List.find?_some hfind
    exact ⟨by simpa using hdata, _, hmem, rfl, (haccepted.leads_iff hmode hmem).1 hleads⟩

end Device.Accepted

theorem RuleCode.bits_prefix_take_iff {code : RuleCode} {count : Nat} :
    code.bits <+: bitsOfBytes (data.take count) ↔
      code.bits <+: bitsOfBytes data ∧ code.byteCount ≤ count := by
  rw [bitsOfBytes_take, List.prefix_take_iff, length_bits, byteCount, bytesFor]
  refine and_congr_right fun _ => ?_
  omega

theorem RuleCode.byteCount_le {code : RuleCode} (h : code.bits <+: bitsOfBytes data) :
    code.byteCount ≤ data.length := by
  have hlen := h.length_le
  rw [length_bitsOfBytes, length_bits] at hlen
  rw [byteCount, bytesFor]
  omega

theorem prefix_bitsOfBytes (h : data <+: other) : bitsOfBytes data <+: bitsOfBytes other := by
  obtain ⟨rest, rfl⟩ := h
  rw [bitsOfBytes_append]
  exact List.prefix_append ..

theorem Device.entry_code {entry : RuleCode × CodeMatch} {composite : CompositeRule}
    (hentry : entry ∈ device.entries) (h : entry.2 = .composite composite) :
    entry.1 = composite.code := by
  rw [entries, List.mem_append, List.mem_map, List.mem_singleton] at hentry
  rcases hentry with ⟨other, -, rfl⟩ | rfl
  · cases h
    rfl
  · cases h

theorem Device.entry_uncompressed {entry : RuleCode × CodeMatch} (hentry : entry ∈ device.entries)
    (h : entry.2 = .uncompressed) : entry.1 = device.uncompressed := by
  rw [entries, List.mem_append, List.mem_map, List.mem_singleton] at hentry
  rcases hentry with ⟨other, -, rfl⟩ | rfl
  · cases h
  · rfl

theorem Device.mem_composites_of_entry {entry : RuleCode × CodeMatch} {composite : CompositeRule}
    (hentry : entry ∈ device.entries) (h : entry.2 = .composite composite) :
    composite ∈ device.composites := by
  rw [entries, List.mem_append, List.mem_map, List.mem_singleton] at hentry
  rcases hentry with ⟨other, hother, rfl⟩ | rfl
  · cases h
    exact hother
  · cases h

namespace Device.Accepted

variable (haccepted : device.Accepted)

include haccepted in
theorem byteCount_pos (hmode : device.mode = .composite) {entry : RuleCode × CodeMatch}
    (hentry : entry ∈ device.entries) : 0 < entry.1.byteCount := by
  have hlength := haccepted.isCodeLength hmode (codes_eq device ▸ List.mem_map_of_mem hentry)
  simp only [Device.isCodeLength, Bool.and_eq_true, decide_eq_true_eq] at hlength
  rw [RuleCode.byteCount, bytesFor]
  omega

include haccepted in
theorem matchCode_of_take (hmode : device.mode = .composite) {composite : CompositeRule}
    (h : device.matchCode data = .ok (.composite composite)) :
    0 < composite.code.byteCount ∧ composite.code.byteCount ≤ data.length ∧
      ∀ other, data.take composite.code.byteCount <+: other →
        device.matchCode other = .ok (.composite composite) := by
  obtain ⟨-, entry, hentry, hfound, hlead⟩ := haccepted.exists_entry hmode h
  have hcode : entry.1 = composite.code := entry_code hentry hfound
  have hpos := hcode ▸ haccepted.byteCount_pos hmode hentry
  refine ⟨hpos, hcode ▸ RuleCode.byteCount_le hlead, ?_⟩
  intro other hother
  have hlead' : entry.1.bits <+: bitsOfBytes other :=
    (RuleCode.bits_prefix_take_iff.2 ⟨hlead, hcode ▸ le_rfl⟩).trans (prefix_bitsOfBytes hother)
  have hne : other ≠ [] := by
    rintro rfl
    have hnil := hlead'.length_le
    rw [RuleCode.length_bits, hcode] at hnil
    simp only [bitsOfBytes_nil, List.length_nil, Nat.le_zero] at hnil
    simp [RuleCode.byteCount, bytesFor, hnil] at hpos
  rw [haccepted.matchCode_eq_ok hmode hentry hne hlead', hfound]

include haccepted in
theorem heading?_of_take (h : device.heading? data = some heading) :
    0 < heading.code.byteCount ∧ heading.code.byteCount ≤ data.length ∧
      ∀ other, data.take heading.code.byteCount <+: other →
        device.heading? other = some heading := by
  unfold Device.heading? at h ⊢
  cases hmode : device.mode with
  | layered =>
    rw [hmode] at h
    cases data with
    | nil => cases h
    | cons byte body =>
      cases h
      dsimp only
      rw [RuleCode.byteCount_layered]
      refine ⟨Nat.zero_lt_one, Nat.succ_le_of_lt (Nat.zero_lt_succ _), ?_⟩
      rintro _ ⟨rest, rfl⟩
      rfl
  | composite =>
    rw [hmode] at h
    dsimp only at h ⊢
    split at h
    · rename_i composite hmatch
      cases h
      obtain ⟨hpos, hlen, hother⟩ := haccepted.matchCode_of_take hmode hmatch
      refine ⟨hpos, hlen, fun other hprefix => ?_⟩
      rw [hother other hprefix]
    · cases h

include haccepted in
/-- If the id is cut short, no other id is found in what is left of it. -/
theorem decompress_cut_heading (h : device.heading? data = some heading) (endpoint : Endpoint)
    {k : Nat} (hk : k < heading.code.byteCount) :
    ∃ error, decompress device endpoint (data.take k) = .error error := by
  unfold Device.heading? at h
  unfold decompress
  cases hmode : device.mode with
  | layered =>
    rw [hmode] at h
    cases data with
    | nil => cases h
    | cons byte body =>
      cases h
      dsimp only at hk
      rw [RuleCode.byteCount_layered] at hk
      obtain rfl : k = 0 := by omega
      exact ⟨_, rfl⟩
  | composite =>
    rw [hmode] at h
    dsimp only at h ⊢
    split at h
    · rename_i composite hmatch
      cases h
      obtain ⟨-, entry, hentry, hfound, hlead⟩ := haccepted.exists_entry hmode hmatch
      cases hcut : device.matchCode (data.take k) with
      | error error => exact ⟨error, rfl⟩
      | ok found =>
        -- The codes that lead the data and their front are the same, and the cut is behind it.
        obtain ⟨-, other, hother, -, hlead'⟩ := haccepted.exists_entry hmode hcut
        obtain ⟨hlead', hcount⟩ := RuleCode.bits_prefix_take_iff.1 hlead'
        obtain rfl := (haccepted.prefixFree hmode).entry_eq hentry hother hlead hlead'
        rw [entry_code hentry hfound] at hcount
        exact (Nat.not_le.2 hk hcount).elim
    · cases h

end Device.Accepted

end HeaderCompression
