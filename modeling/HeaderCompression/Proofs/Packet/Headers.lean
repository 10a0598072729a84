import HeaderCompression.Proofs.Packet.Layers

namespace HeaderCompression

open Packet

variable {device : Device} {layer : Layer} {endpoint : Endpoint} {data bytes packet : List UInt8}
  {rule : Rule} {columns : List Column} {length : Nat} {direction : Direction}

namespace Layout

theorem ipv6_blanked (direction : Direction) (hlen : data.length = 40)
    (computed : HeaderField → Bool)
    (hothers : ∀ field, field ≠ .ipv6PayloadLength → field ≠ .udpLength → field ≠ .udpChecksum →
      computed field = false) :
    ((Layout.columns (ipv6 direction) data).map fun column =>
      if computed column.field then column.blanked else column) =
      Layout.columns (ipv6 direction) (blankIf (computed .ipv6PayloadLength) 4 data) := by
  have hslots : ∀ slot ∈ ipv6 direction,
      (slot.field = .ipv6PayloadLength ∧ slot.position = 32 ∧ slot.width = 16) ∨
        slot.field ≠ .ipv6PayloadLength ∧ slot.field ≠ .udpLength ∧ slot.field ≠ .udpChecksum ∧
          (slot.position + slot.width ≤ 32 ∨ 48 ≤ slot.position) := by
    cases direction <;> decide
  rw [Layout.columns, List.map_map]
  apply List.map_congr_left
  intro slot hslot
  rcases hslots slot hslot with ⟨hfield, hposition, hwidth⟩ | ⟨hipv6, hlength, hchecksum, hdisjoint⟩
  · cases hcomputed : computed .ipv6PayloadLength with
    | false => simp [cut, hfield, hcomputed, blankIf]
    | true =>
      rw [cut_blankIf_of_eq hposition hwidth (by omega)]
      simp [cut, hfield, hcomputed, Column.blanked, hwidth, bytesFor]
  · rw [cut_blankIf_of_disjoint _ hdisjoint (by omega)]
    simp [cut, hothers _ hipv6 hlength hchecksum]

theorem udp_blanked (direction : Direction) (hlen : data.length = 8) (computed : HeaderField → Bool)
    (hothers : ∀ field, field ≠ .ipv6PayloadLength → field ≠ .udpLength → field ≠ .udpChecksum →
      computed field = false) :
    ((Layout.columns (udp direction) data).map fun column =>
      if computed column.field then column.blanked else column) =
      Layout.columns (udp direction)
        (blankIf (computed .udpLength) 4 (blankIf (computed .udpChecksum) 6 data)) := by
  have hslots : ∀ slot ∈ udp direction,
      (slot.field = .udpLength ∧ slot.position = 32 ∧ slot.width = 16) ∨
        (slot.field = .udpChecksum ∧ slot.position = 48 ∧ slot.width = 16) ∨
          slot.field ≠ .ipv6PayloadLength ∧ slot.field ≠ .udpLength ∧ slot.field ≠ .udpChecksum ∧
            slot.position + slot.width ≤ 32 := by
    cases direction <;> decide
  have hinner : (blankIf (computed .udpChecksum) 6 data).length = 8 := by
    rw [length_blankIf _ (by omega), hlen]
  rw [Layout.columns, List.map_map]
  apply List.map_congr_left
  intro slot hslot
  obtain ⟨hfield, hposition, hwidth⟩ | ⟨hfield, hposition, hwidth⟩ |
    ⟨hipv6, hlength, hchecksum, hfront⟩ := hslots slot hslot
  · cases hcomputed : computed .udpLength with
    | false =>
      change _ = cut (bitsOfBytes (blankIf _ 6 data)) slot
      rw [cut_blankIf_of_disjoint _ (by omega) (by omega)]
      simp [cut, hfield, hcomputed]
    | true =>
      rw [cut_blankIf_of_eq hposition hwidth (by omega)]
      simp [cut, hfield, hcomputed, Column.blanked, hwidth, bytesFor]
  · rw [cut_blankIf_of_disjoint _ (by omega) (by omega)]
    cases hcomputed : computed .udpChecksum with
    | false => simp [cut, hfield, hcomputed, blankIf]
    | true =>
      rw [cut_blankIf_of_eq hposition hwidth (by omega)]
      simp [cut, hfield, hcomputed, Column.blanked, hwidth, bytesFor]
  · rw [cut_blankIf_of_disjoint _ (by omega) (by omega),
      cut_blankIf_of_disjoint _ (by omega) (by omega)]
    simp [cut, hothers _ hipv6 hlength hchecksum]

end Layout

theorem Layer.columns_network (hlen : data.length = 40)
    (h : Layer.network.columns direction data = .ok (columns, length)) :
    columns = Layout.columns (Layout.ipv6 direction) data := by
  obtain ⟨columns', hcolumns, h⟩ := bind_eq_ok_iff.1 h
  cases h
  obtain ⟨-, rfl⟩ := Ipv6Header.columns_eq_ok hcolumns
  rw [ipv6HeaderLength, List.take_of_length_le hlen.le]

theorem Layer.columns_transport (hlen : data.length = 8)
    (h : Layer.transport.columns direction data = .ok (columns, length)) :
    columns = Layout.columns (Layout.udp direction) data := by
  obtain ⟨columns', hcolumns, h⟩ := bind_eq_ok_iff.1 h
  cases h
  obtain ⟨-, rfl⟩ := UdpHeader.columns_eq_ok hcolumns
  rw [udpHeaderLength, List.take_of_length_le hlen.le]

namespace Rule.Sends

variable (h : rule.Sends device layer endpoint data columns length bytes)
  (haccepted : device.Accepted)
  (hexact : ∀ p ∈ rule.pairs endpoint.direction columns, p.Exact packet)

include h haccepted in
theorem computes_length {field : HeaderField}
    (hfield : layer = .network ∧ field = .ipv6PayloadLength ∨
      layer = .transport ∧ field = .udpLength) :
    FieldPair.computes (rule.pairs endpoint.direction columns) field =
      rule.leavesLength endpoint.direction := by
  rw [leavesLength, h.any_fieldsFor, FieldPair.computes]
  apply any_congr
  intro p hp
  rw [Bool.eq_iff_iff]
  simp only [RuleField.isComputed, Bool.and_eq_true, Bool.or_eq_true, decide_eq_true_eq, beq_iff_eq]
  constructor
  · rintro ⟨haction | haction, rfl⟩
    · exact haction
    · rw [(h.sound haccepted p hp).wellFormed.computeChecksum haction] at hfield
      simp at hfield
  · intro haction
    refine ⟨.inl haction, ?_⟩
    obtain ⟨hlayer, hlen⟩ | ⟨hlayer, hlen⟩ := h.field_of_computeLength haccepted hp haction <;>
      obtain ⟨hlayer', rfl⟩ | ⟨hlayer', rfl⟩ := hfield <;> simp_all

include h haccepted in
theorem computes_checksum :
    FieldPair.computes (rule.pairs endpoint.direction columns) .udpChecksum =
      rule.leavesChecksum endpoint.direction := by
  rw [leavesChecksum, h.any_fieldsFor, FieldPair.computes]
  apply any_congr
  intro p hp
  have hwf := (h.sound haccepted p hp).wellFormed
  rw [Bool.eq_iff_iff]
  simp only [RuleField.isComputed, Bool.and_eq_true, Bool.or_eq_true, decide_eq_true_eq, beq_iff_eq]
  constructor
  · rintro ⟨haction | haction, hp⟩
    · obtain hlen | hlen := hwf.computeLength haction <;> rw [hp] at hlen <;> cases hlen
    · exact haction
  · intro haction
    exact ⟨.inr haction, hwf.computeChecksum haction⟩

include h haccepted hexact in
/-- A header of fixed layout comes back with zeros for what is left to be computed. -/
theorem restoreHeader_eq_ok {layout : List Slot} {blanked : List UInt8} {n : Nat}
    (hcolumns : columns = Layout.columns layout data) (htiles : Layout.Tiles layout (8 * n))
    (hlen : blanked.length = n)
    (hblanked : ((Layout.columns layout data).map fun column =>
      if FieldPair.computes (rule.pairs endpoint.direction columns) column.field then column.blanked
      else column) = Layout.columns layout blanked)
    (hheader : ∀ columns, layer.header endpoint.direction columns =
      Layout.header layout n columns) (pending : Pending) :
    restoreHeader layer (some rule) endpoint bytes pending =
      .ok (blanked, ⟨pending.length || rule.leavesLength endpoint.direction,
        pending.checksum || rule.leavesChecksum endpoint.direction⟩) := by
  have hsound := h.sound haccepted
  have hdistinct : (columns.map (·.field)).Nodup := by
    rw [hcolumns, Layout.columns, List.map_map]
    exact htiles.distinct
  obtain ⟨restored, hrun, hr⟩ := h.restoreColumns_eq_ok haccepted
    (FieldPair.keepsTokenLength_of_exact hsound hexact) [] pending
  have hrestored : restored = Layout.columns layout blanked := by
    rw [FieldPair.restored_columns hsound hexact h.map_snd_pairs hdistinct hr, ← hblanked,
      ← hcolumns]
  rw [hrestored, List.append_nil] at hrun
  have hbuild := (hheader _).trans (Layout.header_columns (hlen ▸ htiles) hlen)
  exact bind_eq_ok_iff.2 ⟨_, hrun, bind_eq_ok_iff.2 ⟨_, hbuild, rfl⟩⟩

include h haccepted hexact in
theorem restoreHeader_network (hlayer : layer = .network) (hlen : data.length = 40)
    (pending : Pending) :
    restoreHeader layer (some rule) endpoint bytes pending =
      .ok (blankIf (rule.leavesLength endpoint.direction) 4 data,
        ⟨pending.length || rule.leavesLength endpoint.direction, pending.checksum⟩) := by
  subst hlayer
  have hcolumns := Layer.columns_network hlen h.loads
  have hblank : (blankIf (rule.leavesLength endpoint.direction) 4 data).length = 40 := by
    rw [length_blankIf _ (by omega), hlen]
  have hblanked := Layout.ipv6_blanked endpoint.direction hlen _ fun _ hipv6 hlength hchecksum =>
    FieldPair.computes_eq_false (h.sound haccepted) hipv6 hlength hchecksum
  rw [h.computes_length haccepted (.inl ⟨rfl, rfl⟩)] at hblanked
  have hrestore := h.restoreHeader_eq_ok haccepted hexact hcolumns
    (Layout.ipv6_tiles endpoint.direction) hblank hblanked (Layout.ofColumns_ipv6 _) pending
  rwa [h.leavesChecksum_eq_false haccepted (by decide), Bool.or_false] at hrestore

include h haccepted hexact in
theorem restoreHeader_transport (hlayer : layer = .transport) (hlen : data.length = 8)
    (pending : Pending) :
    restoreHeader layer (some rule) endpoint bytes pending =
      .ok (blankIf (rule.leavesLength endpoint.direction) 4
          (blankIf (rule.leavesChecksum endpoint.direction) 6 data),
        ⟨pending.length || rule.leavesLength endpoint.direction,
          pending.checksum || rule.leavesChecksum endpoint.direction⟩) := by
  subst hlayer
  have hcolumns := Layer.columns_transport hlen h.loads
  have hblank : (blankIf (rule.leavesLength endpoint.direction) 4
      (blankIf (rule.leavesChecksum endpoint.direction) 6 data)).length = 8 := by
    have hinner : (blankIf (rule.leavesChecksum endpoint.direction) 6 data).length = 8 := by
      rw [length_blankIf _ (by omega), hlen]
    rw [length_blankIf _ (by omega), hinner]
  have hblanked := Layout.udp_blanked endpoint.direction hlen _ fun _ hipv6 hlength hchecksum =>
    FieldPair.computes_eq_false (h.sound haccepted) hipv6 hlength hchecksum
  rw [h.computes_length haccepted (.inr ⟨rfl, rfl⟩), h.computes_checksum haccepted] at hblanked
  exact h.restoreHeader_eq_ok haccepted hexact hcolumns
    (Layout.udp_tiles endpoint.direction) hblank hblanked (Layout.ofColumns_udp _) pending

include h haccepted hexact in
theorem restoreMessage_eq_ok (hlayer : layer = .application) (pending : Pending) :
    restoreMessage (some rule) endpoint (bytes ++ data.drop length) pending =
      .ok (data, pending) := by
  subst hlayer
  have hsound := h.sound haccepted
  have hsame : ∀ p ∈ rule.pairs endpoint.direction columns, p.1.isComputed = false := by
    intro p hp
    have hfield := h.field_layer haccepted hp
    rw [Bool.eq_false_iff, ne_eq, RuleField.isComputed, Bool.or_eq_true, decide_eq_true_eq,
      decide_eq_true_eq]
    rintro (haction | haction)
    · obtain hlen | hlen := (hsound p hp).wellFormed.computeLength haction <;>
        rw [hlen] at hfield <;> cases hfield
    · rw [(hsound p hp).wellFormed.computeChecksum haction] at hfield
      cases hfield
  obtain ⟨restored, hrun, hr⟩ := h.restoreColumns_eq_ok haccepted
    (FieldPair.keepsTokenLength_of_exact hsound hexact) (data.drop length) pending
  have hrestored : restored = columns := by
    refine (FieldPair.restored_eq hsound hexact hr).trans
      (.trans (List.map_congr_left fun p hp => ?_) h.map_snd_pairs)
    rw [hsame p hp]
    rfl
  rw [hrestored, h.leavesLength_eq_false haccepted rfl,
    h.leavesChecksum_eq_false haccepted (by decide), Bool.or_false, Bool.or_false] at hrun
  refine bind_eq_ok_iff.2 ⟨_, hrun, bind_eq_ok_iff.2 ⟨_, CoapHeader.ofColumns_columns h.loads, ?_⟩⟩
  simp only [Decoder.behind, BitTape.byteHead_behind, List.drop_left, List.take_append_drop]
  rfl

end Rule.Sends

end HeaderCompression
