import HeaderCompression.Proofs.Rule.Exact
import HeaderCompression.Proofs.Rule.Pending

namespace HeaderCompression

variable {f : RuleField} {endpoint : Endpoint} {previous : List Column} {column column' : Column}
  {unit data front rest rest' iid : List UInt8} {decoder : Decoder}
  {pending : Packet.Pending} {bits count : Nat}

theorem Decoder.onTape_eq_ok {α : Type} {read : EStateM Error BitTape α} {a : α}
    {decoder' : Decoder} (h : onTape read decoder = .ok a decoder') :
    ∃ tape, read decoder.tape = .ok a tape ∧ decoder' = { decoder with tape } := by
  rw [onTape] at h
  split at h
  · rename_i tape hread
    cases h
    exact ⟨tape, hread, rfl⟩
  · cases h

namespace RuleField

/-- What the bytes of a field in the residue make of it, behind the columns in front. -/
inductive Reads (f : RuleField) (endpoint : Endpoint) (previous : List Column) :
    List UInt8 → Column → Prop
  | target {value : List UInt8} (haction : f.action = .notSent)
      (htarget : f.target = .single value) : Reads f endpoint previous [] (f.columnOf value)
  | fixed {bits : Nat} {unit : List UInt8} (haction : f.action = .valueSent)
      (hlength : f.length = .fixed bits) (hunit : unit.length = bytesFor bits) :
      Reads f endpoint previous unit ⟨f.field, bits, alignRight (usedBits bits unit)⟩
  | token {announced : Column} {unit : List UInt8} (haction : f.action = .valueSent)
      (hlength : f.length = .token)
      (hfind : Column.find? previous .coapTokenLength = some announced)
      (hunit : unit.length = announced.toNat) :
      Reads f endpoint previous unit (.ofBytes f.field unit)
  | counted {byte : UInt8} {value : List UInt8} (haction : f.action = .valueSent)
      (hlength : f.length = .variable) (hunit : value.length = byte.toNat) :
      Reads f endpoint previous (byte :: value) (.ofBytes f.field value)
  | listed {byte : UInt8} {value : List UInt8} {values : List (List UInt8)}
      (haction : f.action = .mappingSent) (htarget : f.target = .list values)
      (hvalue : values[byte.toNat]? = some value) :
      Reads f endpoint previous [byte] (f.columnOf value)
  | lowBits {count : Nat} {known : List Bool} {unit : List UInt8} (haction : f.action = .lsb)
      (hoperator : f.operator = .msb count) (hlength : f.length = .fixed known.length)
      (htarget : f.target = .single (alignRight known)) (hcount : count ≤ known.length)
      (hunit : unit.length = bytesFor (known.length - count)) :
      Reads f endpoint previous unit ⟨f.field, known.length,
        alignRight (known.take count ++ usedBits (known.length - count) unit)⟩
  | computed {bits : Nat} (haction : f.isComputed) (hlength : f.length = .fixed bits) :
      Reads f endpoint previous [] ⟨f.field, bits, List.replicate (bytesFor bits) 0⟩
  | deviceIid {iid : List UInt8} (haction : f.action = .devIid)
      (hiid : endpoint.interfaceId? = some iid) :
      Reads f endpoint previous [] (.ofBytes f.field iid)

theorem isComputed_iff :
    f.isComputed ↔ f.action = .computeLength ∨ f.action = .computeChecksum := by
  simp [isComputed]

theorem WellFormed.length_of_isComputed (hwf : f.WellFormed) (h : f.isComputed) :
    f.length = .fixed 16 := by
  apply hwf.width
  rcases isComputed_iff.1 h with haction | haction
  · rcases hwf.computeLength haction with hfield | hfield <;> rw [hfield] <;> rfl
  · rw [hwf.computeChecksum haction]
    rfl

theorem WellFormed.exists_known (hwf : f.WellFormed) (h : f.action = .lsb) :
    ∃ (count : Nat) (known : List Bool), f.operator = .msb count ∧
      f.length = .fixed known.length ∧ f.target = .single (alignRight known) ∧
      count ≤ known.length := by
  obtain ⟨count, hoperator⟩ := hwf.lsb h
  obtain ⟨⟨bits, hlength, hcount⟩, value, htarget⟩ := hwf.msb count hoperator
  have hfits := hwf.targets bits hlength value (by simp [htarget, TargetValue.values])
  obtain ⟨known, rfl, rfl⟩ := hfits.exists_low
  exact ⟨count, known, hoperator, hlength, htarget, hcount⟩

theorem leave_of_not_computed (h : f.isComputed = false) (pending : Packet.Pending) :
    f.leave pending = pending := by
  rw [isComputed, Bool.or_eq_false_iff] at h
  rw [leave, h.1, h.2, Bool.or_false, Bool.or_false]

/-- A field is restored from its bytes, whatever stands behind them. -/
theorem Reads.restore (h : f.Reads endpoint previous unit column) (front rest : List UInt8)
    (pending : Packet.Pending) :
    f.restore endpoint previous (.behind front (unit ++ rest) pending) =
      .ok column (.behind (front ++ unit) rest (f.leave pending)) := by
  unfold RuleField.restore
  cases h with
  | target haction htarget =>
    rw [leave_of_not_computed (by simp [isComputed, haction]), haction, restoreTarget, htarget,
      List.append_nil]
    rfl
  | fixed haction hlength hunit =>
    have hread := BitTape.readWhole_behind front unit rest
    rw [hunit] at hread
    rw [leave_of_not_computed (by simp [isComputed, haction]), haction]
    apply Decoder.onTape_behind
    rw [readValue, hlength]
    refine run_bind_eq_ok_iff.2 ⟨_, _, hread, ?_⟩
    rw [clear_unused hunit]
    rfl
  | token haction hlength hfind hunit =>
    have hread := BitTape.readWhole_behind front unit rest
    rw [hunit] at hread
    rw [leave_of_not_computed (by simp [isComputed, haction]), haction]
    apply Decoder.onTape_behind
    rw [readValue, hlength]
    dsimp only
    rw [hfind]
    exact run_bind_eq_ok_iff.2 ⟨_, _, hread, rfl⟩
  | @counted byte value haction hlength hunit =>
    have hbyte := BitTape.readByte_behind front byte (value ++ rest)
    have hread := BitTape.readWhole_behind (front ++ [byte]) value rest
    rw [hunit, List.append_assoc] at hread
    rw [leave_of_not_computed (by simp [isComputed, haction]), haction]
    apply Decoder.onTape_behind
    rw [readValue, hlength]
    exact run_bind_eq_ok_iff.2 ⟨_, _, hbyte, run_bind_eq_ok_iff.2 ⟨_, _, hread, rfl⟩⟩
  | @listed byte value values haction htarget hvalue =>
    have hbyte := BitTape.readByte_behind front byte rest
    rw [leave_of_not_computed (by simp [isComputed, haction]), haction]
    apply Decoder.onTape_behind
    rw [readMapping, TargetValue.list?_eq_some_iff.2 htarget]
    refine run_bind_eq_ok_iff.2 ⟨_, _, hbyte, ?_⟩
    rw [hvalue]
    rfl
  | lowBits haction hoperator hlength htarget hcount hunit =>
    rw [leave_of_not_computed (by simp [isComputed, haction]), haction]
    apply Decoder.onTape_behind
    rw [BitTape.behind_append_right, BitTape.behind_append_left]
    exact readLowBits_append hoperator hlength htarget hcount hunit _ _
  | computed haction hlength =>
    have hplaceholder : f.placeholder = .ok _ := bind_eq_ok_iff.2 ⟨_, requireBits_eq_ok hlength, rfl⟩
    rcases isComputed_iff.1 haction with haction | haction <;> rw [haction, List.append_nil] <;>
      rw [leave, haction] <;> dsimp only <;> rw [hplaceholder]
    · simp
      rfl
    · simp
      rfl
  | deviceIid haction hiid =>
    rw [leave_of_not_computed (by simp [isComputed, haction]), haction, hiid, List.append_nil]
    rfl

section Readers

variable {tape : BitTape}

theorem exists_reads_of_readValue (haction : f.action = .valueSent)
    (h : f.readValue previous (.behind front data) = .ok column tape) :
    ∃ unit rest, data = unit ++ rest ∧ f.Reads endpoint previous unit column := by
  rw [readValue] at h
  cases hlength : f.length with
  | fixed bits =>
    rw [hlength] at h
    obtain ⟨unit, _, hread, h⟩ := run_bind_eq_ok_iff.1 h
    obtain ⟨rest, rfl, hunit, rfl⟩ := BitTape.readWhole_eq_ok_iff.1 hread
    rw [clear_unused hunit] at h
    cases h
    exact ⟨unit, rest, rfl, .fixed haction hlength hunit⟩
  | token =>
    rw [hlength] at h
    cases hfind : Column.find? previous .coapTokenLength with
    | none =>
      rw [hfind] at h
      cases h
    | some announced =>
      rw [hfind] at h
      obtain ⟨unit, _, hread, h⟩ := run_bind_eq_ok_iff.1 h
      obtain ⟨rest, rfl, hunit, rfl⟩ := BitTape.readWhole_eq_ok_iff.1 hread
      cases h
      exact ⟨unit, rest, rfl, .token haction hlength hfind hunit⟩
  | «variable» =>
    rw [hlength] at h
    obtain ⟨_, _, hbyte, h⟩ := run_bind_eq_ok_iff.1 h
    obtain ⟨byte, data, rfl, rfl, rfl⟩ := BitTape.readByte_eq_ok_iff.1 hbyte
    obtain ⟨value, _, hread, h⟩ := run_bind_eq_ok_iff.1 h
    obtain ⟨rest, rfl, hunit, rfl⟩ := BitTape.readWhole_eq_ok_iff.1 hread
    cases h
    exact ⟨byte :: value, rest, rfl, .counted haction hlength hunit⟩

theorem exists_reads_of_readMapping (hwf : f.WellFormed) (haction : f.action = .mappingSent)
    (h : f.readMapping (.behind front data) = .ok column tape) :
    ∃ unit rest, data = unit ++ rest ∧ f.Reads endpoint previous unit column := by
  obtain ⟨values, htarget, -⟩ := hwf.mapping (hwf.mappingSent haction)
  rw [readMapping, TargetValue.list?_eq_some_iff.2 htarget] at h
  obtain ⟨_, _, hbyte, h⟩ := run_bind_eq_ok_iff.1 h
  obtain ⟨byte, rest, rfl, rfl, rfl⟩ := BitTape.readByte_eq_ok_iff.1 hbyte
  cases hvalue : values[byte.toNat]? with
  | none =>
    rw [hvalue] at h
    cases h
  | some value =>
    rw [hvalue] at h
    cases h
    exact ⟨[byte], rest, rfl, .listed haction htarget hvalue⟩

theorem exists_reads_of_readLowBits (hwf : f.WellFormed) (haction : f.action = .lsb)
    (h : f.readLowBits (.behind front data) = .ok column tape) :
    ∃ unit rest, data = unit ++ rest ∧ f.Reads endpoint previous unit column := by
  obtain ⟨count, known, hoperator, hlength, htarget, hcount⟩ := hwf.exists_known haction
  rw [readLowBits, hoperator, htarget] at h
  dsimp only [TargetValue.single?] at h
  rw [requireBits_eq_ok hlength] at h
  obtain ⟨_, _, hbits, h⟩ := run_bind_eq_ok_iff.1 h
  cases hbits
  rw [clear_low hcount] at h
  obtain ⟨_, _, hclear, h⟩ := run_bind_eq_ok_iff.1 h
  cases hclear
  obtain ⟨unit, _, hread, h⟩ := run_bind_eq_ok_iff.1 h
  obtain ⟨rest, rfl, hunit, rfl⟩ := BitTape.readWhole_eq_ok_iff.1 hread
  rw [merge_used hcount hunit] at h
  cases h
  exact ⟨unit, rest, rfl, .lowBits haction hoperator hlength htarget hcount hunit⟩

end Readers

theorem WellFormed.exists_reads (hwf : f.WellFormed)
    (h : f.restore endpoint previous (.behind front data pending) = .ok column decoder) :
    ∃ unit rest, data = unit ++ rest ∧ f.Reads endpoint previous unit column := by
  unfold RuleField.restore at h
  cases haction : f.action <;> rw [haction] at h <;> dsimp only at h
  case notSent =>
    obtain ⟨value, htarget⟩ := hwf.notSent haction
    rw [restoreTarget, htarget] at h
    cases h
    exact ⟨[], data, rfl, .target haction htarget⟩
  case valueSent =>
    obtain ⟨tape, hread, -⟩ := Decoder.onTape_eq_ok h
    exact exists_reads_of_readValue haction hread
  case mappingSent =>
    obtain ⟨tape, hread, -⟩ := Decoder.onTape_eq_ok h
    exact exists_reads_of_readMapping hwf haction hread
  case lsb =>
    obtain ⟨tape, hread, -⟩ := Decoder.onTape_eq_ok h
    exact exists_reads_of_readLowBits hwf haction hread
  case computeLength | computeChecksum =>
    have hcomputed : f.isComputed := by simp [isComputed, haction]
    have hlength := hwf.length_of_isComputed hcomputed
    have hplaceholder : f.placeholder = .ok _ := bind_eq_ok_iff.2 ⟨_, requireBits_eq_ok hlength, rfl⟩
    obtain ⟨_, _, -, h⟩ := run_bind_eq_ok_iff.1 h
    obtain ⟨hcolumn, -⟩ := run_ofExcept_eq_ok_iff.1 h
    rw [hplaceholder] at hcolumn
    cases hcolumn
    exact ⟨[], data, rfl, .computed hcomputed hlength⟩
  case devIid =>
    cases hiid : endpoint.interfaceId? with
    | none =>
      rw [hiid] at h
      cases h
    | some iid =>
      rw [hiid] at h
      cases h
      exact ⟨[], data, rfl, .deviceIid haction hiid⟩
  case appIid => cases h

/-- A run on a field is a derivation, and the rest of the data is left. -/
theorem WellFormed.restore_eq_ok_iff (hwf : f.WellFormed) :
    f.restore endpoint previous (.behind front data pending) = .ok column decoder ↔
      ∃ unit rest, data = unit ++ rest ∧ f.Reads endpoint previous unit column ∧
        decoder = .behind (front ++ unit) rest (f.leave pending) := by
  constructor
  · intro h
    obtain ⟨unit, rest, rfl, hreads⟩ := hwf.exists_reads h
    rw [hreads.restore front rest pending] at h
    cases h
    exact ⟨unit, rest, rfl, hreads, rfl⟩
  · rintro ⟨unit, rest, rfl, hreads, rfl⟩
    exact hreads.restore front rest pending

theorem Reads.field_eq (h : f.Reads endpoint previous unit column) : column.field = f.field := by
  cases h with
  | target => exact field_columnOf ..
  | listed => exact field_columnOf ..
  | _ => rfl

theorem Reads.fitsWidth (hwf : f.WellFormed) (h : f.Reads endpoint previous unit column)
    (hbits : f.length = .fixed bits) : column.bits = bits ∧ FitsWidth bits column.value := by
  have hcolumnOf {value : List UInt8} (hvalue : value ∈ f.target.values) :
      (f.columnOf value).bits = bits ∧ FitsWidth bits (f.columnOf value).value := by
    rw [columnOf, hbits]
    exact ⟨rfl, hwf.targets bits hbits value hvalue⟩
  cases h with
  | target haction htarget => exact hcolumnOf (by simp [htarget, TargetValue.values])
  | fixed haction hlength hunit =>
    cases hlength.symm.trans hbits
    refine ⟨rfl, ?_⟩
    have hfits := fitsWidth_alignRight (usedBits bits unit)
    rwa [length_usedBits hunit] at hfits
  | token haction hlength => cases hlength.symm.trans hbits
  | counted haction hlength => cases hlength.symm.trans hbits
  | listed haction htarget hvalue =>
    exact hcolumnOf (by simp [htarget, TargetValue.values, List.mem_of_getElem? hvalue])
  | @lowBits count known unit haction hoperator hlength htarget hcount hunit =>
    cases hlength.symm.trans hbits
    refine ⟨rfl, ?_⟩
    have hfits := fitsWidth_alignRight (known.take count ++ usedBits (known.length - count) unit)
    rwa [List.length_append, List.length_take_of_le hcount, length_usedBits hunit,
      Nat.add_sub_cancel' hcount] at hfits
  | computed haction hlength =>
    cases hlength.symm.trans hbits
    have hfits := fitsWidth_alignRight (List.replicate bits false)
    refine ⟨rfl, by simp, ?_⟩
    have hzero := natOfBytes_replicate_zero_append (bytesFor bits) []
    rw [List.append_nil] at hzero
    rw [hzero]
    exact Nat.two_pow_pos bits
  | @deviceIid iid haction hiid =>
    have hwidth := hwf.width 64 (by rw [hwf.devIid haction]; rfl)
    cases hwidth.symm.trans hbits
    obtain ⟨address, -, rfl⟩ := Option.map_eq_some_iff.1 hiid
    have hfits := fitsWidth_of_bytes address.interfaceId
    rw [address.length_interfaceId] at hfits
    exact ⟨by rw [Column.ofBytes, address.length_interfaceId], hfits⟩

theorem Reads.proper (hwf : f.WellFormed) (h : f.Reads endpoint previous unit column)
    (hwidth : f.field.width?.isSome) : column.Proper := by
  obtain ⟨bits, hbits⟩ := Option.isSome_iff_exists.1 hwidth
  obtain ⟨hcolumn, hfits⟩ := h.fitsWidth hwf (hwf.width bits hbits)
  refine ⟨fun other hother => ?_, hcolumn ▸ hfits⟩
  rw [h.field_eq, hbits] at hother
  exact hcolumn.trans (Option.some.inj hother)

end RuleField

inductive ReadAll (endpoint : Endpoint) :
    List Column → List RuleField → List (List UInt8) → List Column → Prop
  | nil {previous : List Column} : ReadAll endpoint previous [] [] []
  | cons {previous columns : List Column} {f : RuleField} {fields : List RuleField}
      {unit : List UInt8} {units : List (List UInt8)} {column : Column}
      (hfield : f.Reads endpoint previous unit column)
      (hfields : ReadAll endpoint (previous ++ [column]) fields units columns) :
      ReadAll endpoint previous (f :: fields) (unit :: units) (column :: columns)

variable {fields : List RuleField} {units units' : List (List UInt8)}
  {columns columns' : List Column} {rule : Rule}

namespace ReadAll

theorem restoreAll (h : ReadAll endpoint previous fields units columns) (front rest : List UInt8)
    (pending : Packet.Pending) :
    FieldPair.restoreAll endpoint fields previous (.behind front (units.flatten ++ rest) pending) =
      .ok (previous ++ columns) (.behind (front ++ units.flatten) rest
        (fields.foldl (fun pending f => f.leave pending) pending)) := by
  induction h generalizing front pending with
  | nil => simp [FieldPair.restoreAll, pure, EStateM.pure]
  | @cons previous columns f fields unit units column hfield _ ih =>
    have hrun := hfield.restore front (units.flatten ++ rest) pending
    have hruns := ih (front ++ unit) (f.leave pending)
    rw [List.append_assoc, List.append_assoc] at hruns
    rw [FieldPair.restoreAll, List.foldlM_cons, List.flatten_cons, List.append_assoc]
    exact run_bind_eq_ok_iff.2 ⟨_, _, run_bind_eq_ok_iff.2 ⟨_, _, hrun, rfl⟩, hruns⟩

theorem exists_of_restoreAll (hwf : ∀ f ∈ fields, f.WellFormed)
    (h : FieldPair.restoreAll endpoint fields previous (.behind front data pending) =
      .ok columns decoder) :
    ∃ units rest restored, data = units.flatten ++ rest ∧
      ReadAll endpoint previous fields units restored := by
  induction fields generalizing previous front data pending with
  | nil => exact ⟨[], data, [], rfl, .nil⟩
  | cons f fields ih =>
    obtain ⟨hf, hfields⟩ := List.forall_mem_cons.1 hwf
    rw [FieldPair.restoreAll, List.foldlM_cons] at h
    obtain ⟨_, _, hstep, h⟩ := run_bind_eq_ok_iff.1 h
    obtain ⟨column, _, hfield, hstep⟩ := run_bind_eq_ok_iff.1 hstep
    cases hstep
    obtain ⟨unit, data, rfl, hreads, rfl⟩ := hf.restore_eq_ok_iff.1 hfield
    obtain ⟨units, rest, restored, rfl, hread⟩ := ih hfields h
    exact ⟨unit :: units, rest, column :: restored, by simp, .cons hreads hread⟩

end ReadAll

namespace ReadAll

theorem map_field (h : ReadAll endpoint previous fields units columns) :
    columns.map (·.field) = fields.map (·.field) := by
  induction h with
  | nil => rfl
  | cons hfield _ ih => rw [List.map_cons, List.map_cons, hfield.field_eq, ih]

theorem exists_reads (h : ReadAll endpoint previous fields units columns)
    (hcolumn : column ∈ columns) :
    ∃ f ∈ fields, ∃ previous unit, f.Reads endpoint previous unit column := by
  induction h with
  | nil => cases hcolumn
  | @cons previous columns f fields unit units column' hfield _ ih =>
    rcases List.mem_cons.1 hcolumn with rfl | hcolumn
    · exact ⟨f, List.mem_cons_self, previous, unit, hfield⟩
    · obtain ⟨g, hg, hreads⟩ := ih hcolumn
      exact ⟨g, List.mem_cons_of_mem _ hg, hreads⟩

theorem exists_column (h : ReadAll endpoint previous fields units columns) (hf : f ∈ fields) :
    ∃ column ∈ columns, ∃ previous unit, f.Reads endpoint previous unit column := by
  induction h with
  | nil => cases hf
  | @cons previous columns g fields unit units column hfield _ ih =>
    rcases List.mem_cons.1 hf with rfl | hf
    · exact ⟨column, List.mem_cons_self, previous, unit, hfield⟩
    · obtain ⟨other, hother, hreads⟩ := ih hf
      exact ⟨other, List.mem_cons_of_mem _ hother, hreads⟩

/-- The bytes themselves say how many of them are read. -/
theorem length_eq (h : ReadAll endpoint previous fields units columns)
    (h' : ReadAll endpoint previous fields units' columns')
    (hdata : units.flatten ++ rest = units'.flatten ++ rest') :
    units.flatten.length = units'.flatten.length := by
  have hrun := h.restoreAll [] rest .none
  rw [hdata, h'.restoreAll [] rest' .none] at hrun
  have htape := congrArg (·.tape.byteHead) (EStateM.Result.ok.inj hrun).2
  simpa [Decoder.behind] using htape.symm

end ReadAll

namespace Rule

theorem WellFormed.restore_eq_ok_iff (hwf : rule.WellFormed) :
    rule.restore endpoint (.ofBytes data pending) = .ok columns decoder ↔
      ∃ units rest, data = units.flatten ++ rest ∧
        ReadAll endpoint [] (rule.fieldsFor endpoint.direction) units columns ∧
        decoder = .behind units.flatten rest
          ((rule.fieldsFor endpoint.direction).foldl (fun pending f => f.leave pending) pending) := by
  have hfields : ∀ f ∈ rule.fieldsFor endpoint.direction, f.WellFormed :=
    fun f hf => hwf f (List.mem_of_mem_filter hf)
  constructor
  · intro h
    change FieldPair.restoreAll endpoint _ [] (.behind [] data pending) = _ at h
    obtain ⟨units, rest, restored, rfl, hread⟩ := ReadAll.exists_of_restoreAll hfields h
    have hrun := hread.restoreAll [] rest pending
    cases hrun.symm.trans h
    exact ⟨units, rest, rfl, hread, rfl⟩
  · rintro ⟨units, rest, rfl, hread, rfl⟩
    exact hread.restoreAll [] rest pending

variable {k : Nat} {decoder' : Decoder} {pending' : Packet.Pending}

theorem WellFormed.byteHead_le (hwf : rule.WellFormed)
    (h : rule.restore endpoint (.ofBytes data pending) = .ok columns decoder) :
    decoder.tape.byteHead ≤ data.length := by
  obtain ⟨units, rest, rfl, -, rfl⟩ := hwf.restore_eq_ok_iff.1 h
  rw [Decoder.behind, BitTape.byteHead_behind, List.length_append]
  exact Nat.le_add_right ..

theorem WellFormed.restore_take_append (hwf : rule.WellFormed)
    (h : rule.restore endpoint (.ofBytes data pending) = .ok columns decoder) (rest : List UInt8) :
    rule.restore endpoint (.ofBytes (data.take decoder.tape.byteHead ++ rest) pending) =
      .ok columns (.behind (data.take decoder.tape.byteHead) rest decoder.pending) := by
  obtain ⟨units, _, rfl, hread, rfl⟩ := hwf.restore_eq_ok_iff.1 h
  rw [Decoder.behind, BitTape.byteHead_behind, List.take_left]
  exact hwf.restore_eq_ok_iff.2 ⟨units, rest, rfl, hread, rfl⟩

theorem WellFormed.restore_take_ne_ok (hwf : rule.WellFormed)
    (h : rule.restore endpoint (.ofBytes data pending) = .ok columns decoder)
    (hk : k < decoder.tape.byteHead) :
    rule.restore endpoint (.ofBytes (data.take k) pending') ≠ .ok columns' decoder' := by
  intro hcut
  obtain ⟨units, rest, hdata, hread, rfl⟩ := hwf.restore_eq_ok_iff.1 h
  obtain ⟨units', rest', hdata', hread', -⟩ := hwf.restore_eq_ok_iff.1 hcut
  rw [Decoder.behind, BitTape.byteHead_behind] at hk
  have hsame : units.flatten ++ rest = units'.flatten ++ (rest' ++ data.drop k) := by
    rw [← List.append_assoc, ← hdata', List.take_append_drop, hdata]
  have hlen := hread.length_eq hread' hsame
  have hcutLen := congrArg List.length hdata'
  rw [List.length_take, List.length_append] at hcutLen
  omega

end Rule

end HeaderCompression
