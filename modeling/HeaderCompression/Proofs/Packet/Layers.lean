import HeaderCompression.Packet.Compressed
import HeaderCompression.Packet.Restored
import HeaderCompression.Proofs.Header.Coap
import HeaderCompression.Proofs.Header.Layout
import HeaderCompression.Proofs.Rule.Exact

namespace HeaderCompression

open Packet

variable {device : Device} {layer : Layer} {endpoint : Endpoint} {data bytes packet : List UInt8}
  {sent : SentLayer} {rule : Rule} {rule? : Option Rule} {columns restored : List Column}
  {length : Nat} {direction : Direction} {p : FieldPair} {part : List UInt8}

structure Rule.Sends (rule : Rule) (device : Device) (layer : Layer) (endpoint : Endpoint)
    (data : List UInt8) (columns : List Column) (length : Nat) (bytes : List UInt8) : Prop where
  mem : rule ∈ device.rules layer
  loads : layer.columns endpoint.direction data = .ok (columns, length)
  accepts : rule.accepts columns endpoint.direction
  residue : rule.residue endpoint columns = .ok bytes

inductive SentLayer.SentAs (device : Device) (layer : Layer) (endpoint : Endpoint)
    (data : List UInt8) : SentLayer → Option Rule → Prop
  | verbatim : SentAs device layer endpoint data (.verbatim data) none
  | rule {rule : Rule} {columns : List Column} {length : Nat} {bytes : List UInt8}
      (h : rule.Sends device layer endpoint data columns length bytes) :
      SentAs device layer endpoint data ⟨some rule.id, bytes, length⟩ (some rule)

theorem SentLayer.exists_sentAs (device : Device) (layer : Layer) (endpoint : Endpoint)
    (data : List UInt8) :
    ∃ rule?, SentAs device layer endpoint data (ofData device layer data endpoint).1 rule? := by
  rw [ofData, Endpoint.load]
  cases hcolumns : layer.columns endpoint.direction data with
  | error error => exact ⟨none, .verbatim⟩
  | ok result =>
    obtain ⟨columns, length⟩ := result
    dsimp only
    split
    · exact ⟨none, .verbatim⟩
    · rename_i rule hselect
      split
      · exact ⟨none, .verbatim⟩
      · rename_i bytes hresidue
        have haccepts : rule.accepts columns endpoint.direction := by
          simpa using List.find?_some hselect
        exact ⟨some rule, .rule ⟨List.mem_of_find?_eq_some hselect, hcolumns, haccepts, hresidue⟩⟩

def Device.DistinctIds (device : Device) : Prop :=
  ∀ layer, ((device.rules layer).map (·.id)).Nodup

theorem Device.DistinctIds.rule_eq_ok (h : device.DistinctIds) (hrule : rule ∈ device.rules layer) :
    device.rule layer rule.id = .ok rule := by
  rw [Device.rule]
  rw [find?_eq_of_nodup (h layer) hrule]

/-- The receiver finds the rule that the layer was sent under. -/
theorem SentLayer.SentAs.mapM_rule (h : SentAs device layer endpoint data sent rule?)
    (hdistinct : device.DistinctIds) : sent.rule?.mapM (device.rule layer) = .ok rule? := by
  cases h with
  | verbatim => rfl
  | rule h =>
    have hrule := hdistinct.rule_eq_ok h.mem
    change some <$> device.rule layer _ = _
    rw [hrule]
    rfl

namespace FieldPair.Sound

theorem residueLength_eq_ok (h : p.Sound) {width : Nat} (hwidth : p.2.field.width? = some width)
    (hresidue : p.1.residue endpoint p.2 = .ok part) : p.1.residueLength = .ok part.length := by
  have hfield := (RuleField.accepts_iff.1 h.accepts).1
  have hlength := h.wellFormed.width width (hfield ▸ hwidth)
  have hbits := RuleField.bits_eq_of_fixed h.accepts hlength
  rw [RuleField.residue] at hresidue
  rw [RuleField.residueLength, RuleField.fixedBits?]
  rw [hlength]
  dsimp only
  cases haction : p.1.action <;> rw [haction] at hresidue <;> dsimp only at hresidue ⊢
  case valueSent =>
    simp only [RuleField.valueResidue, hlength, Except.ok.injEq] at hresidue
    rw [← hresidue, h.fits.value.1, hbits]
  case mappingSent =>
    split at hresidue
    · cases hresidue
    · cases hresidue
      rfl
  case lsb =>
    obtain ⟨count, hoperator⟩ := h.wellFormed.lsb haction
    obtain ⟨low, known, -, -, hlow, hvalue, -, hcount, -⟩ :=
      RuleField.exists_low_of_msb h.wellFormed h.accepts h.fits hoperator
    rw [hoperator] at hresidue ⊢
    dsimp only at hresidue ⊢
    rw [Column.lowBits_alignRight hlow hvalue hcount] at hresidue
    cases hresidue
    rw [length_alignRight, List.length_drop, ← hlow, hbits]
  case devIid =>
    split at hresidue
    · cases hresidue
    · split at hresidue
      · cases hresidue
        rfl
      · cases hresidue
  case appIid => cases hresidue
  all_goals
    cases hresidue
    rfl

end FieldPair.Sound

theorem Rule.residueLength_eq_ok
    (hlen : (rule.fieldsFor endpoint.direction).length = columns.length)
    (hsound : ∀ p ∈ rule.pairs endpoint.direction columns, p.Sound)
    (hwidth : ∀ column ∈ columns, column.field.width?.isSome)
    (hresidue : rule.residue endpoint columns = .ok bytes) :
    rule.residueLength endpoint.direction = .ok bytes.length := by
  obtain ⟨parts, hparts, h⟩ := bind_eq_ok_iff.1 hresidue
  cases h
  have hfields : (rule.pairs endpoint.direction columns).map (·.1) =
      rule.fieldsFor endpoint.direction := List.map_fst_zip (by omega)
  refine bind_eq_ok_iff.2 ⟨parts.map List.length, ?_, by rw [List.length_flatten, List.sum_eq_foldl]; rfl⟩
  rw [mapM_eq_ok_iff, ← hfields, List.forall₂_map_left_iff, List.forall₂_map_right_iff]
  have hknown : ∀ p ∈ rule.pairs endpoint.direction columns,
      p.Sound ∧ p.2.field.width?.isSome := fun p hp =>
    ⟨hsound p hp, hwidth p.2 (List.of_mem_zip hp).2⟩
  apply ((List.forall₂_and_left _ _).2 ⟨hknown, mapM_eq_ok_iff.1 hparts⟩).imp
  rintro p part ⟨⟨hp, hsome⟩, hpart⟩
  obtain ⟨width, hwidth⟩ := Option.isSome_iff_exists.1 hsome
  exact hp.residueLength_eq_ok hwidth hpart

namespace Rule

def leavesLength (rule : Rule) (direction : Direction) : Bool :=
  (rule.fieldsFor direction).any (·.action = .computeLength)

def leavesChecksum (rule : Rule) (direction : Direction) : Bool :=
  (rule.fieldsFor direction).any (·.action = .computeChecksum)

namespace Sends

variable (h : rule.Sends device layer endpoint data columns length bytes)
  (haccepted : device.Accepted)

include h in
theorem length_eq : (rule.fieldsFor endpoint.direction).length = columns.length :=
  (Rule.accepts_iff.1 h.accepts).1

include h haccepted in
theorem sound : ∀ p ∈ rule.pairs endpoint.direction columns, p.Sound :=
  haccepted.sound_pairs h.mem h.loads h.accepts

include h in
theorem map_fst_pairs : (rule.pairs endpoint.direction columns).map (·.1) =
    rule.fieldsFor endpoint.direction :=
  List.map_fst_zip (by rw [h.length_eq])

include h in
theorem map_snd_pairs : (rule.pairs endpoint.direction columns).map (·.2) = columns :=
  List.map_snd_zip (by rw [h.length_eq])

include h in
theorem any_fieldsFor (action : CompressionAction) :
    (rule.fieldsFor endpoint.direction).any (·.action = action) =
      (rule.pairs endpoint.direction columns).any (·.1.action = action) := by
  rw [← h.map_fst_pairs, List.any_map]
  rfl

include h haccepted in
theorem field_layer (hp : p ∈ rule.pairs endpoint.direction columns) : p.1.field.layer = layer := by
  rw [(RuleField.accepts_iff.1 (h.sound haccepted p hp).accepts).1]
  exact layer.field_columns h.loads p.2 (List.of_mem_zip hp).2

include h haccepted in
theorem field_of_computeLength (hp : p ∈ rule.pairs endpoint.direction columns)
    (haction : p.1.action = .computeLength) :
    layer = .network ∧ p.1.field = .ipv6PayloadLength ∨
      layer = .transport ∧ p.1.field = .udpLength := by
  have hlayer := h.field_layer haccepted hp
  rcases (h.sound haccepted p hp).wellFormed.computeLength haction with hfield | hfield
  · rw [hfield] at hlayer
    exact .inl ⟨hlayer.symm, hfield⟩
  · rw [hfield] at hlayer
    exact .inr ⟨hlayer.symm, hfield⟩

include h haccepted in
theorem leavesLength_eq_false (hlayer : layer = .application) :
    rule.leavesLength endpoint.direction = false := by
  rw [leavesLength, h.any_fieldsFor, List.any_eq_false]
  intro p hp haction
  have haction' := of_decide_eq_true haction
  rcases h.field_of_computeLength haccepted hp haction' with ⟨rfl, -⟩ | ⟨rfl, -⟩ <;> cases hlayer

include h haccepted in
theorem leavesChecksum_eq_false (hlayer : layer ≠ .transport) :
    rule.leavesChecksum endpoint.direction = false := by
  rw [leavesChecksum, h.any_fieldsFor, List.any_eq_false]
  intro p hp haction
  have hfield := h.field_layer haccepted hp
  rw [(h.sound haccepted p hp).wellFormed.computeChecksum (of_decide_eq_true haction)] at hfield
  exact hlayer hfield.symm

include h haccepted in
theorem restoreColumns_eq_ok
    (hkeeps : FieldPair.KeepsTokenLength (rule.pairs endpoint.direction columns))
    (rest : List UInt8) (pending : Pending) :
    ∃ restored, restoreColumns rule endpoint (bytes ++ rest) pending =
        .ok (restored, .behind bytes rest
          ⟨pending.length || rule.leavesLength endpoint.direction,
            pending.checksum || rule.leavesChecksum endpoint.direction⟩) ∧
      List.Forall₂ (fun p restored => p.1.Restores p.2 restored)
        (rule.pairs endpoint.direction columns) restored := by
  obtain ⟨restored, hrun, hr⟩ := Rule.restore_ofBytes h.length_eq (h.sound haccepted)
    (layer.tokenAnnounced_columns h.loads) hkeeps h.residue rest pending
  rw [Rule.foldl_leave] at hrun
  refine ⟨restored, ?_, hr⟩
  rw [restoreColumns]
  rw [hrun]
  rfl

end Sends

end Rule

end HeaderCompression
