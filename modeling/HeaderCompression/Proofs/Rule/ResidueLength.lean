import HeaderCompression.Proofs.Packet.Layers
import HeaderCompression.Proofs.Rule.Refusal
import HeaderCompression.Proofs.Rule.Restored

namespace HeaderCompression

variable {f : RuleField} {rule : Rule} {device : Device} {layer : Layer} {endpoint : Endpoint}
  {direction : Direction} {data : List UInt8} {fields : List RuleField} {lengths : List Nat}
  {error : Error} {n : Nat}

namespace RuleField

/-- Why a field is not restored though its bytes are there: no value has the received place, the
device's address is not known, or the application's interface id is asked for. -/
inductive Unrestorable (f : RuleField) (endpoint : Endpoint) : Error → Prop
  | unlisted {values : List (List UInt8)} {place : Nat} (haction : f.action = .mappingSent)
      (htarget : f.target = .list values) (hplace : values.length ≤ place) :
      Unrestorable f endpoint (.decompression (.mappingIndex f.field place values.length))
  | unaddressed (haction : f.action = .devIid) (hiid : endpoint.interfaceId? = none) :
      Unrestorable f endpoint (.decompression .noDeviceAddress)
  | unsupported (haction : f.action = .appIid) : Unrestorable f endpoint .appIid

theorem Unrestorable.ne_exhausted (h : f.Unrestorable endpoint error)
    (needed position remaining : Nat) : error ≠ .exhausted needed position remaining := by
  rintro rfl
  cases h

/-- A field of fixed width is restored from as many bytes as the rule says, or for none of them. -/
theorem WellFormed.reads_or_unrestorable (hwf : f.WellFormed) (hn : f.residueLength = .ok n)
    (hdata : n ≤ data.length) (endpoint : Endpoint) (previous : List Column) (front : List UInt8)
    (pending : Packet.Pending) :
    (∃ unit rest column, data = unit ++ rest ∧ unit.length = n ∧
      f.Reads endpoint previous unit column) ∨
    ∃ error decoder, f.restore endpoint previous (.behind front data pending) =
      .error error decoder ∧ f.Unrestorable endpoint error := by
  have hsplit : data = data.take n ++ data.drop n := (List.take_append_drop n data).symm
  have htake : (data.take n).length = n := List.length_take_of_le hdata
  rw [residueLength, fixedBits?] at hn
  cases hlength : f.length with
  | token | «variable» =>
    rw [hlength] at hn
    cases hn
  | fixed bits =>
    rw [hlength] at hn
    dsimp only at hn
    cases haction : f.action <;> rw [haction] at hn
    case notSent =>
      obtain ⟨value, htarget⟩ := hwf.notSent haction
      cases hn
      exact .inl ⟨[], data, _, rfl, rfl, .target haction htarget⟩
    case valueSent =>
      cases hn
      exact .inl ⟨_, _, _, hsplit, htake, .fixed haction hlength htake⟩
    case mappingSent =>
      obtain ⟨values, htarget, -⟩ := hwf.mapping (hwf.mappingSent haction)
      cases hn
      obtain ⟨byte, rest, rfl⟩ := List.exists_cons_of_length_pos hdata
      cases hvalue : values[byte.toNat]? with
      | some value => exact .inl ⟨[byte], rest, _, rfl, rfl, .listed haction htarget hvalue⟩
      | none =>
        refine .inr ⟨_, .behind (front ++ [byte]) rest pending, ?_,
          .unlisted haction htarget (List.getElem?_eq_none_iff.1 hvalue)⟩
        have hread : f.readMapping (.behind front (byte :: rest)) =
            .error (.decompression (.mappingIndex f.field byte.toNat values.length))
              (.behind (front ++ [byte]) rest) := by
          rw [readMapping, TargetValue.list?_eq_some_iff.2 htarget]
          refine run_bind_eq_error_iff.2 (.inr ⟨_, _, BitTape.readByte_behind front byte rest, ?_⟩)
          rw [hvalue]
          rfl
        rw [RuleField.restore, haction]
        simp only [Decoder.onTape, Decoder.behind, hread]
    case lsb =>
      obtain ⟨count, known, hoperator, hknown, htarget, hcount⟩ := hwf.exists_known haction
      cases hknown.symm.trans hlength
      rw [hoperator] at hn
      cases hn
      exact .inl ⟨_, _, _, hsplit, htake, .lowBits haction hoperator hlength htarget hcount htake⟩
    case computeLength | computeChecksum =>
      cases hn
      exact .inl ⟨[], data, _, rfl, rfl, .computed (isComputed_iff.2 (by simp [haction])) hlength⟩
    case devIid =>
      cases hn
      cases hiid : endpoint.interfaceId? with
      | some iid => exact .inl ⟨[], data, _, rfl, rfl, .deviceIid haction hiid⟩
      | none =>
        refine .inr ⟨_, .behind front data pending, ?_, .unaddressed haction hiid⟩
        rw [RuleField.restore, haction, hiid]
        rfl
    case appIid =>
      refine .inr ⟨_, .behind front data pending, ?_, .unsupported haction⟩
      rw [RuleField.restore, haction]
      rfl

end RuleField

theorem ReadAll.exists_or_unrestorable (hwf : ∀ f ∈ fields, f.WellFormed)
    (hlengths : List.Forall₂ (fun f n => f.residueLength = .ok n) fields lengths)
    (hdata : data.length = lengths.sum) (endpoint : Endpoint) (previous : List Column)
    (front : List UInt8) (pending : Packet.Pending) :
    (∃ units columns, data = units.flatten ∧ ReadAll endpoint previous fields units columns) ∨
    ∃ error decoder, FieldPair.restoreAll endpoint fields previous (.behind front data pending) =
      .error error decoder ∧ ∃ f ∈ fields, f.Unrestorable endpoint error := by
  induction hlengths generalizing previous front data pending with
  | nil => exact .inl ⟨[], [], List.length_eq_zero_iff.1 hdata, .nil⟩
  | @cons f n fields lengths hn _ ih =>
    obtain ⟨hf, hfields⟩ := List.forall_mem_cons.1 hwf
    rw [List.sum_cons] at hdata
    have hle : n ≤ data.length := by omega
    rw [FieldPair.restoreAll, List.foldlM_cons]
    rcases hf.reads_or_unrestorable hn hle endpoint previous front pending with
      ⟨unit, rest, column, rfl, hunit, hreads⟩ | ⟨error, decoder, hrun, hreason⟩
    · have hrest : rest.length = lengths.sum := by
        rw [List.length_append] at hdata
        omega
      have hstep := hreads.restore front rest pending
      rcases ih hfields hrest (previous ++ [column]) (front ++ unit) (f.leave pending) with
        ⟨units, columns, rfl, hread⟩ | ⟨error, decoder, hrun, g, hg, hreason⟩
      · exact .inl ⟨unit :: units, column :: columns, rfl, .cons hreads hread⟩
      · refine .inr ⟨error, decoder, ?_, g, List.mem_cons_of_mem _ hg, hreason⟩
        exact run_bind_eq_error_iff.2
          (.inr ⟨_, _, run_bind_eq_ok_iff.2 ⟨_, _, hstep, rfl⟩, hrun⟩)
    · refine .inr ⟨error, decoder, ?_, f, List.mem_cons_self, hreason⟩
      exact run_bind_eq_error_iff.2 (.inl (run_bind_eq_error_iff.2 (.inl hrun)))

theorem Rule.residueLength_eq_ok_iff : rule.residueLength direction = .ok n ↔
    ∃ lengths, lengths.sum = n ∧
      List.Forall₂ (fun f n => f.residueLength = .ok n) (rule.fieldsFor direction) lengths := by
  rw [residueLength, bind_eq_ok_iff]
  simp only [mapM_eq_ok_iff, pure_eq_ok_iff, List.sum_eq_foldl, and_comm]

theorem Device.Accepted.exists_residueLength (haccepted : device.Accepted)
    (hrule : rule ∈ device.rules layer) (hlayer : layer ≠ .application) (direction : Direction) :
    ∃ n, rule.residueLength direction = .ok n := by
  obtain ⟨lengths, hlengths⟩ := exists_mapM_eq_ok fun f hf =>
    (haccepted.residueLengths_le hrule hlayer direction f hf).imp fun _ hn => hn.2
  exact ⟨_, Rule.residueLength_eq_ok_iff.2 ⟨lengths, rfl, mapM_eq_ok_iff.1 hlengths⟩⟩

theorem Rule.WellFormed.restore_or_unrestorable (hwf : rule.WellFormed)
    (hn : rule.residueLength endpoint.direction = .ok n) (hdata : data.length = n)
    (pending : Packet.Pending) :
    (∃ columns decoder, rule.restore endpoint (.ofBytes data pending) = .ok columns decoder ∧
      decoder.tape = ⟨bitsOfBytes data, 8 * n⟩) ∨
    ∃ error decoder, rule.restore endpoint (.ofBytes data pending) = .error error decoder ∧
      ∃ f ∈ rule.fieldsFor endpoint.direction, f.Unrestorable endpoint error := by
  obtain ⟨lengths, rfl, hlengths⟩ := Rule.residueLength_eq_ok_iff.1 hn
  rcases ReadAll.exists_or_unrestorable (fun f hf => hwf f (List.mem_of_mem_filter hf)) hlengths
    hdata endpoint [] [] pending with ⟨units, columns, rfl, hread⟩ | hfailed
  · have hrun : rule.restore endpoint (.ofBytes units.flatten pending) = _ :=
      hwf.restore_eq_ok_iff.2 ⟨units, [], (List.append_nil _).symm, hread, rfl⟩
    refine .inl ⟨columns, _, hrun, ?_⟩
    rw [← hdata, Decoder.behind, BitTape.behind, List.append_nil]
  · exact .inr hfailed

/-- A rule of IPv6 or UDP alone gives the length of its residue. Whatever header it is sent for, the
residue has this length, and from any bytes of this length all of them are read, or a field is not
restored though its bytes are there. -/
theorem Device.residueLength_exact (device : Device) (haccepted : device.Accepted) (layer : Layer)
    (hlayer : layer ≠ .application) (rule : Rule) (hrule : rule ∈ device.rules layer)
    (direction : Direction) :
    ∃ n, rule.residueLength direction = .ok n ∧
      ∀ endpoint : Endpoint, endpoint.direction = direction →
        (∀ data columns length residue,
          layer.columns direction data = .ok (columns, length) →
          rule.accepts columns direction →
          rule.residue endpoint columns = .ok residue → (bitsOfBytes residue).length = 8 * n) ∧
        ∀ (data : List UInt8) (pending : Packet.Pending), data.length = n →
          (∃ columns decoder,
            rule.restore endpoint (.ofBytes data pending) = .ok columns decoder ∧
            decoder.tape = ⟨bitsOfBytes data, 8 * n⟩) ∨
          ∃ error decoder,
            rule.restore endpoint (.ofBytes data pending) = .error error decoder ∧
            (∃ f ∈ rule.fieldsFor direction, f.Unrestorable endpoint error) ∧
            ∀ needed position remaining, error ≠ .exhausted needed position remaining := by
  obtain ⟨n, hn⟩ := haccepted.exists_residueLength hrule hlayer direction
  refine ⟨n, hn, ?_⟩
  rintro endpoint rfl
  constructor
  · intro data columns length residue hcolumns haccepts hresidue
    have hlength := Rule.residueLength_eq_ok (Rule.accepts_iff.1 haccepts).1
      (haccepted.sound_pairs hrule hcolumns haccepts)
      (fun column hcolumn => (layer.of_mem_columns hlayer hcolumns hcolumn).2) hresidue
    cases hn.symm.trans hlength
    exact length_bitsOfBytes residue
  · intro data pending hdata
    rcases (haccepted.wellFormed layer rule hrule).restore_or_unrestorable hn hdata pending with
      hread | ⟨error, decoder, hrun, f, hf, hreason⟩
    · exact .inl hread
    · exact .inr ⟨error, decoder, hrun, ⟨f, hf, hreason⟩, hreason.ne_exhausted⟩

/-- Of a header from the device, 25 bytes are sent. Any 25 bytes are read to their end where the
device's address is known, and without it a field is not restored. -/
theorem Device.nomad_residueLength :
    ∃ rule ∈ nomad.rules .network, rule.residueLength .up = .ok 25 ∧
      (∃ columns residue, Layer.columns .network .up nomadHeader = .ok (columns, 40) ∧
        rule.accepts columns .up ∧ rule.residue (nomadEndpoint .up) columns = .ok residue ∧
        (bitsOfBytes residue).length = 8 * 25) ∧
      (∃ columns decoder, rule.restore (nomadEndpoint .up)
          (.ofBytes (List.replicate 25 7) .none) = .ok columns decoder ∧
        decoder.tape = ⟨bitsOfBytes (List.replicate 25 7), 8 * 25⟩) ∧
      ∃ error decoder, rule.restore (.ofDirection .up)
          (.ofBytes (List.replicate 25 7) .none) = .error error decoder ∧
        ∃ f ∈ rule.fieldsFor .up, f.Unrestorable (.ofDirection .up) error := by
  have hrule : nomad.ipv6Rules.head (by decide) ∈ nomad.rules .network := List.head_mem _
  have hlength : (nomad.ipv6Rules.head (by decide)).residueLength .up = .ok 25 := by
    decide +kernel
  obtain ⟨n, hn, hexact⟩ :=
    residueLength_exact nomad nomad_accepted .network (by decide) _ hrule .up
  cases hn.symm.trans hlength
  refine ⟨_, hrule, hlength, ?_, ?_, ?_⟩
  · have hcolumns : Layer.columns .network .up nomadHeader =
        .ok (Layout.columns (Layout.ipv6 .up) nomadHeader, 40) := by decide +kernel
    have haccepts : (nomad.ipv6Rules.head (by decide)).accepts
        (Layout.columns (Layout.ipv6 .up) nomadHeader) .up := by decide +kernel
    have hresidue : (nomad.ipv6Rules.head (by decide)).residue (nomadEndpoint .up)
        (Layout.columns (Layout.ipv6 .up) nomadHeader) =
        .ok (0 :: List.replicate 8 0x2A ++ List.replicate 16 0x2B) := by decide +kernel
    exact ⟨_, _, hcolumns, haccepts, hresidue,
      (hexact (nomadEndpoint .up) rfl).1 nomadHeader _ 40 _ hcolumns haccepts hresidue⟩
  · have hread : (nomad.ipv6Rules.head (by decide)).restore (nomadEndpoint .up)
        (.ofBytes (List.replicate 25 7) .none) matches .ok .. := by decide +kernel
    rcases (hexact (nomadEndpoint .up) rfl).2 (List.replicate 25 7) .none rfl with
      hrun | ⟨error, decoder, hrun, -⟩
    · exact hrun
    · rw [hrun] at hread
      cases hread
  · have hfailed : (nomad.ipv6Rules.head (by decide)).restore (.ofDirection .up)
        (.ofBytes (List.replicate 25 7) .none) matches .error .. := by decide +kernel
    rcases (hexact (.ofDirection .up) rfl).2 (List.replicate 25 7) .none rfl with
      ⟨columns, decoder, hrun, -⟩ | ⟨error, decoder, hrun, hreason, -⟩
    · rw [hrun] at hfailed
      cases hfailed
    · exact ⟨error, decoder, hrun, hreason⟩

end HeaderCompression
