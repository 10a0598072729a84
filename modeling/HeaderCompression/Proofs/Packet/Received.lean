import HeaderCompression.Proofs.Header.Described
import HeaderCompression.Proofs.Packet.Verbatim
import HeaderCompression.Proofs.Rule.Received

namespace HeaderCompression

open Packet

variable {device : Device} {layer : Layer} {endpoint : Endpoint}
  {data bytes message : List UInt8} {sent : SentLayer} {rule : Rule} {rule? : Option Rule}
  {columns : List Column} {column : Column} {length : Nat} {pending pending' : Pending}

namespace Rule

def received (rule : Rule) (direction : Direction) (columns : List Column) : List Column :=
  (rule.pairs direction columns).map (·.received)

end Rule

namespace Rule.Sends

variable (h : rule.Sends device layer endpoint data columns length bytes)
  (haccepted : device.Accepted)

include h haccepted in
theorem map_field_received : (rule.received endpoint.direction columns).map (·.field) =
    columns.map (·.field) :=
  FieldPair.map_field_received (h.sound haccepted) h.map_snd_pairs

include h haccepted in
theorem proper_received (hcolumn : column ∈ rule.received endpoint.direction columns)
    (hwidth : column.field.width?.isSome) : column.Proper :=
  FieldPair.proper_of_mem_received (h.sound haccepted) hcolumn hwidth

include h haccepted in
theorem keepsTokenLength (hlayer : layer ≠ .application) :
    FieldPair.KeepsTokenLength (rule.pairs endpoint.direction columns) := by
  rintro ⟨p, hp, -, hlength⟩
  have hfield := layer.field_columns h.loads p.2 (List.of_mem_zip hp).2
  rw [(h.sound haccepted p hp).field_eq_token hlength] at hfield
  exact (hlayer hfield.symm).elim

include h haccepted in
theorem restoreColumns_received
    (hkeeps : FieldPair.KeepsTokenLength (rule.pairs endpoint.direction columns))
    (rest : List UInt8) (pending : Pending) :
    restoreColumns rule endpoint (bytes ++ rest) pending =
      .ok (rule.received endpoint.direction columns,
        .behind bytes rest (leave (some rule) endpoint.direction pending)) := by
  obtain ⟨restored, hrun, hr⟩ := h.restoreColumns_eq_ok haccepted hkeeps rest pending
  rw [hrun, FieldPair.eq_map_received hr]
  rfl

include h haccepted in
theorem canonical_received (hlayer : layer ≠ .application) :
    layer.Canonical (rule.received endpoint.direction columns) where
  order := by
    rw [h.map_field_received haccepted]
    exact Layer.fieldOrder_columns hlayer h.loads
  proper := by
    intro column hcolumn
    obtain ⟨p, hp, rfl⟩ := List.mem_map.1 hcolumn
    have hwidth := (Layer.of_mem_columns hlayer h.loads (List.of_mem_zip hp).2).2
    rw [← (h.sound haccepted p hp).field_received] at hwidth
    exact h.proper_received haccepted hcolumn hwidth

include h haccepted in
theorem restoreHeader_received {header : List UInt8} (hlayer : layer ≠ .application)
    (hheader : layer.header endpoint.direction (rule.received endpoint.direction columns) =
      .ok header) (pending : Pending) :
    restoreHeader layer (some rule) endpoint bytes pending =
      .ok (header, leave (some rule) endpoint.direction pending) := by
  have hrun := h.restoreColumns_received haccepted (h.keepsTokenLength haccepted hlayer) [] pending
  rw [List.append_nil] at hrun
  exact bind_eq_ok_iff.2 ⟨_, hrun, bind_eq_ok_iff.2 ⟨_, hheader, rfl⟩⟩

include h haccepted in
theorem wordAt_checksum {header : List UInt8}
    (hcolumns : Layout.columns (Layout.udp endpoint.direction) header =
      rule.received endpoint.direction columns)
    (hleft : rule.leavesChecksum endpoint.direction) : wordAt 6 header = [0, 0] := by
  rw [← h.computes_checksum haccepted, FieldPair.computes_iff] at hleft
  obtain ⟨p, hp, hcomputed, hfield⟩ := hleft
  have hsound := h.sound haccepted p hp
  have hfield' : p.2.field = .udpChecksum := (RuleField.accepts_iff.1 hsound.accepts).1 ▸ hfield
  have hslots : ∀ slot ∈ Layout.udp endpoint.direction, slot.field = .udpChecksum →
      slot.position = 8 * 6 ∧ slot.width = 16 := by
    cases endpoint.direction <;> decide
  have hmem : p.received ∈ Layout.columns (Layout.udp endpoint.direction) header := by
    rw [hcolumns]
    exact List.mem_map_of_mem hp
  -- Only the slot of bytes 6 and 7 gives a column for the checksum.
  obtain ⟨slot, hslot, hcut⟩ := List.mem_map.1 hmem
  have hslotField : slot.field = .udpChecksum := by
    rw [← hfield', ← hsound.field_received, ← hcut]
    rfl
  obtain ⟨hposition, hwidth⟩ := hslots slot hslot hslotField
  rw [← Layout.value_cut hposition hwidth, hcut, FieldPair.received_of_isComputed hcomputed,
    Column.blanked, (hsound.bits_eq (hfield' ▸ rfl : p.2.field.width? = some 16)).2]
  rfl

include h haccepted in
/-- A CoAP message comes back if the token that the receiver gets is as long as it is announced; it
is then the message that its columns describe. -/
theorem restoreMessage_received (hlayer : layer = .application)
    (hkeeps : FieldPair.KeepsTokenLength (rule.pairs endpoint.direction columns)) :
    restoreMessage (some rule) endpoint (bytes ++ data.drop length) pending =
        .ok (message, pending') ↔
      (CoapHeader.tokenOf (rule.received endpoint.direction columns)).length ≤
          CoapMessage.maxTokenLength ∧
        CoapHeader.numberOf (rule.received endpoint.direction columns) .coapTokenLength =
          (CoapHeader.tokenOf (rule.received endpoint.direction columns)).length ∧
        message = (CoapHeader.described (rule.received endpoint.direction columns)
          (data.drop length)).toBytes ∧
        pending' = leave (some rule) endpoint.direction pending := by
  subst hlayer
  have hrun := h.restoreColumns_received haccepted hkeeps (data.drop length) pending
  have hbuild (header : List UInt8) :
      CoapHeader.ofColumns (rule.received endpoint.direction columns) = .ok header ↔ _ :=
    CoapHeader.ofColumns_received h.loads (h.map_field_received haccepted)
  have hrest : (bytes ++ data.drop length).drop (Decoder.behind bytes (data.drop length)
      (leave (some rule) endpoint.direction pending)).tape.byteHead = data.drop length := by
    simp only [Decoder.behind, BitTape.byteHead_behind, List.drop_left]
  simp only [restoreMessage, bind_eq_ok_iff, hrun, Except.ok.injEq, exists_eq_left', hbuild,
    pure_eq_ok_iff, Prod.mk.injEq, hrest, CoapMessage.toBytes_eq]
  constructor
  · rintro ⟨_, ⟨hshort, hannounced, rfl⟩, rfl, rfl⟩
    exact ⟨hshort, hannounced, rfl, rfl⟩
  · rintro ⟨hshort, hannounced, rfl, rfl⟩
    exact ⟨_, ⟨hshort, hannounced, rfl⟩, rfl, rfl⟩

end Rule.Sends

namespace SentLayer.SentAs

variable (haccepted : device.Accepted)

include haccepted in
theorem exists_front (h : SentAs device .network endpoint data sent rule?)
    (hlen : data.length = 40) : ∃ front : List UInt8, front.length = 40 ∧
      ∀ pending, restoreHeader .network rule? endpoint sent.bytes pending =
        .ok (front, Rule.leave rule? endpoint.direction pending) := by
  cases h with
  | verbatim => exact ⟨data, hlen, fun pending => by rw [Rule.leave_none]; rfl⟩
  | rule h =>
    obtain ⟨header, hlength, hheader, -⟩ := Ipv6Header.exists_header
      (h.canonical_received haccepted (by decide)) endpoint.direction
    exact ⟨header, hlength, h.restoreHeader_received haccepted (by decide) hheader⟩

include haccepted in
theorem exists_middle (h : SentAs device .transport endpoint data sent rule?)
    (hlen : data.length = 8) : ∃ middle : List UInt8, middle.length = 8 ∧
      (rule?.any (·.leavesChecksum endpoint.direction) → wordAt 6 middle = [0, 0]) ∧
      ∀ pending, restoreHeader .transport rule? endpoint sent.bytes pending =
        .ok (middle, Rule.leave rule? endpoint.direction pending) := by
  cases h with
  | verbatim => exact ⟨data, hlen, by simp, fun pending => by rw [Rule.leave_none]; rfl⟩
  | rule h =>
    obtain ⟨header, hlength, hheader, hcolumns⟩ := UdpHeader.exists_header
      (h.canonical_received haccepted (by decide)) endpoint.direction
    exact ⟨header, hlength, h.wordAt_checksum haccepted hcolumns,
      h.restoreHeader_received haccepted (by decide) hheader⟩

end SentLayer.SentAs

end HeaderCompression
