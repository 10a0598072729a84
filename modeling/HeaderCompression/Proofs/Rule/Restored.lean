import HeaderCompression.Proofs.Header.Canonical
import HeaderCompression.Proofs.Rule.Reading

namespace HeaderCompression

variable {device : Device} {layer : Layer} {rule : Rule} {f : RuleField} {endpoint : Endpoint}
  {previous columns : List Column} {column : Column} {unit data : List UInt8}
  {field : HeaderField} {pending : Packet.Pending} {decoder : Decoder}

theorem HeaderField.isSome_width? (h : field.layer ≠ .application) : field.width?.isSome := by
  cases field with
  | coapToken => exact (h rfl).elim
  | coapOption option => exact (h rfl).elim
  | _ => rfl

theorem RuleField.Reads.eq_of_isComputed (hwf : f.WellFormed) (hcomputed : f.isComputed)
    (h : f.Reads endpoint previous unit column) : column = ⟨f.field, 16, [0, 0]⟩ := by
  have haction := isComputed_iff.1 hcomputed
  cases h with
  | computed _ hlength =>
    cases (hwf.length_of_isComputed hcomputed).symm.trans hlength
    rfl
  | _ => simp_all

theorem RuleField.WellFormed.residueLength_le (hwf : f.WellFormed) (hwidth : f.field.width?.isSome) :
    ∃ n ≤ 8, f.residueLength = .ok n := by
  obtain ⟨width, hwidth⟩ := Option.isSome_iff_exists.1 hwidth
  have hsmall := HeaderField.width_le hwidth
  have hlength := hwf.width width hwidth
  have hbytes {bits : Nat} (h : bits ≤ 64) : bytesFor bits ≤ 8 := by
    rw [bytesFor]
    omega
  rw [RuleField.residueLength, RuleField.fixedBits?]
  rw [hlength]
  dsimp only
  cases haction : f.action with
  | valueSent => exact ⟨_, hbytes hsmall, rfl⟩
  | mappingSent => exact ⟨1, by decide, rfl⟩
  | lsb =>
    obtain ⟨count, hoperator⟩ := hwf.lsb haction
    rw [hoperator]
    exact ⟨_, hbytes (by omega), rfl⟩
  | _ => exact ⟨0, Nat.zero_le _, rfl⟩

namespace Device.Accepted

variable (haccepted : device.Accepted)

include haccepted in
theorem exists_readAll (hrule : rule ∈ device.rules layer)
    (h : rule.restore endpoint (.ofBytes data pending) = .ok columns decoder) :
    ∃ units, ReadAll endpoint [] (rule.fieldsFor endpoint.direction) units columns := by
  obtain ⟨units, _, -, hread, -⟩ := (haccepted.wellFormed layer rule hrule).restore_eq_ok_iff.1 h
  exact ⟨units, hread⟩

include haccepted in
/-- The columns of a layer of fixed layout are those of a header. -/
theorem canonical_of_restore (hrule : rule ∈ device.rules layer) (hlayer : layer ≠ .application)
    (h : rule.restore endpoint (.ofBytes data pending) = .ok columns decoder) :
    layer.Canonical columns := by
  obtain ⟨units, hread⟩ := haccepted.exists_readAll hrule h
  refine ⟨?_, fun column hcolumn => ?_⟩
  · rw [hread.map_field]
    cases layer with
    | network => rw [haccepted.map_field_fieldsFor hrule rfl]; rfl
    | transport => rw [haccepted.map_field_fieldsFor hrule rfl]; rfl
    | application => exact (hlayer rfl).elim
  · obtain ⟨f, hf, _, _, hreads⟩ := hread.exists_reads hcolumn
    have hmem := List.mem_of_mem_filter hf
    have hfield := haccepted.field_layer hrule f hmem
    exact hreads.proper (haccepted.wellFormed layer rule hrule f hmem)
      (HeaderField.isSome_width? (hfield ▸ hlayer))

include haccepted in
theorem residueLengths_le (hrule : rule ∈ device.rules layer) (hlayer : layer ≠ .application)
    (direction : Direction) :
    ∀ f ∈ rule.fieldsFor direction, ∃ n ≤ 8, f.residueLength = .ok n := by
  intro f hf
  have hmem := List.mem_of_mem_filter hf
  have hfield := haccepted.field_layer hrule f hmem
  exact (haccepted.wellFormed layer rule hrule f hmem).residueLength_le
    (HeaderField.isSome_width? (hfield ▸ hlayer))

end Device.Accepted

end HeaderCompression
