import HeaderCompression.Proofs.Rule.Reading

namespace HeaderCompression

/-- The number of bits that are sent of a field of fixed length; none where all of its bits are sent
as whole bytes or where something else is sent for it. -/
def RuleField.sentBits? (f : RuleField) : Option Nat :=
  match f.action, f.length, f.operator with
  | .valueSent, .fixed bits, _ => some bits
  | .lsb, .fixed bits, .msb count => some (bits - count)
  | _, _, _ => none

def RuleField.PadsWithZeros (f : RuleField) (unit : List UInt8) : Prop :=
  ∀ bits ∈ f.sentBits?, ∀ bit ∈ (bitsOfBytes unit).take (8 * unit.length - bits), bit = false

instance (f : RuleField) (unit : List UInt8) : Decidable (f.PadsWithZeros unit) :=
  inferInstanceAs (Decidable (∀ bits ∈ f.sentBits?, _))

def unitsFrom (endpoint : Endpoint) (data : List UInt8) :
    List RuleField → List Column → Decoder → List (List UInt8)
  | [], _, _ => []
  | f :: fields, previous, decoder =>
    match f.restore endpoint previous decoder with
    | .error _ _ => []
    | .ok column after =>
      (data.drop decoder.tape.byteHead).take (after.tape.byteHead - decoder.tape.byteHead) ::
        unitsFrom endpoint data fields (previous ++ [column]) after

namespace Rule

def units (rule : Rule) (endpoint : Endpoint) (residue : List UInt8) : List (List UInt8) :=
  unitsFrom endpoint residue (rule.fieldsFor endpoint.direction) [] (.ofBytes residue .none)

/-- Values in the residue that do not fill their bytes stand behind zeros. -/
def ZeroPadded (rule : Rule) (endpoint : Endpoint) (residue : List UInt8) : Prop :=
  ∀ p ∈ (rule.fieldsFor endpoint.direction).zip (rule.units endpoint residue),
    p.1.PadsWithZeros p.2

instance (rule : Rule) (endpoint : Endpoint) (residue : List UInt8) :
    Decidable (rule.ZeroPadded endpoint residue) :=
  inferInstanceAs (Decidable (∀ p ∈ List.zip _ _, RuleField.PadsWithZeros p.1 p.2))

def DistinctLists (rule : Rule) : Prop :=
  ∀ f ∈ rule.fields, ∀ values ∈ f.target.list?, values.Nodup

instance (rule : Rule) : Decidable rule.DistinctLists :=
  inferInstanceAs (Decidable (∀ f ∈ rule.fields, _))

end Rule

variable {f : RuleField} {endpoint : Endpoint} {previous columns : List Column} {column : Column}
  {unit front rest residue : List UInt8} {units : List (List UInt8)} {fields : List RuleField}
  {bits : Nat} {decoder : Decoder} {pending : Packet.Pending} {rule : Rule}

theorem alignRight_usedBits_eq_iff (h : unit.length = bytesFor bits) :
    alignRight (usedBits bits unit) = unit ↔
      ∀ bit ∈ (bitsOfBytes unit).take (8 * unit.length - bits), bit = false := by
  have hunused : 8 * unit.length - bits = padding bits := by
    have hpad := add_padding bits
    omega
  have hlen : ((bitsOfBytes unit).take (padding bits)).length = padding bits := by
    rw [List.length_take, length_bitsOfBytes]
    omega
  have hsplit : bitsOfBytes unit = (bitsOfBytes unit).take (padding bits) ++ usedBits bits unit :=
    (List.take_append_drop ..).symm
  rw [hunused]
  constructor
  · intro hsame
    have hbits := congrArg bitsOfBytes hsame
    rw [bitsOfBytes_alignRight, length_usedBits h, hsplit, List.append_cancel_right_eq] at hbits
    rw [← hbits]
    exact fun bit hbit => List.eq_of_mem_replicate hbit
  · intro hzero
    apply bitsOfBytes_injective
    rw [bitsOfBytes_alignRight, length_usedBits h, hsplit]
    congr 1
    exact (List.eq_replicate_iff.2 ⟨hlen, hzero⟩).symm

theorem Column.placeIn?_of_nodup {values : List (List UInt8)} {index : Nat}
    (hdistinct : values.Nodup) (hvalue : values[index]? = some column.value) :
    column.placeIn? values = some index := by
  obtain ⟨hindex, hget⟩ := List.getElem?_eq_some_iff.1 hvalue
  rw [placeIn?, List.findIdx?_eq_some_iff_getElem]
  refine ⟨hindex, by simp [matchesValue, hget], ?_⟩
  intro other hother hmatch
  have hsame : values[other] = values[index] := by
    rw [hget]
    exact (eq_of_beq hmatch).symm
  exact hother.ne ((hdistinct.getElem_inj_iff).1 hsame)

namespace RuleField

theorem PadsWithZeros.of_none (h : f.sentBits? = none) (unit : List UInt8) :
    f.PadsWithZeros unit := by
  intro bits hbits
  rw [h] at hbits
  cases hbits

theorem padsWithZeros_iff (h : f.sentBits? = some bits) :
    f.PadsWithZeros unit ↔
      ∀ bit ∈ (bitsOfBytes unit).take (8 * unit.length - bits), bit = false := by
  simp [PadsWithZeros, h]

/-- What is sent for the column that a field was restored to is as long as what it was restored
from, and is the same unless that had unused bits that are set. -/
theorem Reads.exists_residue (hdistinct : ∀ values ∈ f.target.list?, values.Nodup)
    (h : f.Reads endpoint previous unit column) :
    ∃ sent, f.residue endpoint column = .ok sent ∧ sent.length = unit.length ∧
      (sent = unit ↔ f.PadsWithZeros unit) := by
  have hsame (hsent : f.residue endpoint column = .ok unit) (hnone : f.sentBits? = none) :
      ∃ sent, f.residue endpoint column = .ok sent ∧ sent.length = unit.length ∧
        (sent = unit ↔ f.PadsWithZeros unit) :=
    ⟨unit, hsent, rfl, iff_of_true rfl (.of_none hnone unit)⟩
  cases h with
  | target haction htarget =>
    apply hsame
    · rw [residue, haction]
    · rw [sentBits?, haction]
  | @fixed bits unit haction hlength hunit =>
    refine ⟨alignRight (usedBits bits unit), ?_, ?_, ?_⟩
    · rw [residue, haction]
      dsimp only
      rw [valueResidue, hlength]
    · rw [length_alignRight, length_usedBits hunit, hunit]
    · rw [alignRight_usedBits_eq_iff hunit, padsWithZeros_iff (by rw [sentBits?, haction, hlength])]
  | token haction hlength hfind hunit =>
    apply hsame
    · rw [residue, haction]
      dsimp only
      rw [valueResidue, hlength]
      rfl
    · rw [sentBits?, haction, hlength]
  | @counted byte value haction hlength hunit =>
    apply hsame
    · rw [residue, haction]
      dsimp only
      rw [valueResidue, hlength]
      dsimp only [Column.ofBytes]
      rw [if_pos (hunit ▸ byte.toNat_lt), hunit, UInt8.ofNat_toNat]
    · rw [sentBits?, haction, hlength]
  | @listed byte value values haction htarget hvalue =>
    have hlist := TargetValue.list?_eq_some_iff.2 htarget
    have hplace : (f.columnOf value).placeIn? values = some byte.toNat := by
      apply Column.placeIn?_of_nodup (hdistinct values hlist)
      rw [hvalue, columnOf]
      split <;> rfl
    apply hsame
    · rw [residue, haction]
      dsimp only
      rw [hlist, Option.bind_some, hplace]
      dsimp only
      rw [UInt8.ofNat_toNat]
    · rw [sentBits?, haction]
  | @lowBits count known unit haction hoperator hlength htarget hcount hunit =>
    have hused := length_usedBits hunit
    have hlow : (known.take count ++ usedBits (known.length - count) unit).length = known.length := by
      rw [List.length_append, List.length_take_of_le hcount, hused]
      omega
    have hdrop : (known.take count ++ usedBits (known.length - count) unit).drop count =
        usedBits (known.length - count) unit :=
      List.drop_left' (List.length_take_of_le hcount)
    refine ⟨alignRight (usedBits (known.length - count) unit), ?_, ?_, ?_⟩
    · rw [residue, haction, hoperator]
      dsimp only
      rw [Column.lowBits_alignRight hlow.symm rfl (hlow.symm ▸ hcount), hdrop]
    · rw [length_alignRight, hused, hunit]
    · rw [alignRight_usedBits_eq_iff hunit,
        padsWithZeros_iff (by rw [sentBits?, haction, hlength, hoperator])]
  | computed haction hlength =>
    apply hsame
    · rcases isComputed_iff.1 haction with haction | haction <;> rw [residue, haction]
    · rcases isComputed_iff.1 haction with haction | haction <;> rw [sentBits?, haction]
  | deviceIid haction hiid =>
    apply hsame
    · rw [residue, haction]
      dsimp only
      rw [hiid]
      exact if_pos rfl
    · rw [sentBits?, haction]

end RuleField

namespace ReadAll

theorem unitsFrom_eq (h : ReadAll endpoint previous fields units columns) (front rest : List UInt8)
    (pending : Packet.Pending) :
    unitsFrom endpoint (front ++ (units.flatten ++ rest)) fields previous
      (.behind front (units.flatten ++ rest) pending) = units := by
  induction h generalizing front pending with
  | nil => rfl
  | @cons previous columns f fields unit units column hfield _ ih =>
    have hrun := hfield.restore front (units.flatten ++ rest) pending
    have hothers := ih (front ++ unit) (f.leave pending)
    rw [List.append_assoc] at hothers
    rw [List.flatten_cons, List.append_assoc, unitsFrom, hrun]
    dsimp only
    rw [hothers, Decoder.behind, Decoder.behind, BitTape.byteHead_behind, BitTape.byteHead_behind,
      List.length_append, Nat.add_sub_cancel_left, List.drop_left, List.take_left]

theorem exists_residue (hdistinct : ∀ f ∈ fields, ∀ values ∈ f.target.list?, values.Nodup)
    (h : ReadAll endpoint previous fields units columns) :
    ∃ parts, (fields.zip columns).mapM (fun (f, column) => f.residue endpoint column) = .ok parts ∧
      parts.flatten.length = units.flatten.length ∧
      (parts.flatten = units.flatten ↔ ∀ p ∈ fields.zip units, p.1.PadsWithZeros p.2) := by
  induction h with
  | nil => exact ⟨[], rfl, rfl, by simp⟩
  | @cons previous columns f fields unit units column hfield _ ih =>
    obtain ⟨hf, hfields⟩ := List.forall_mem_cons.1 hdistinct
    obtain ⟨sent, hsent, hlen, hpads⟩ := hfield.exists_residue hf
    obtain ⟨parts, hparts, hlens, hpad⟩ := ih hfields
    refine ⟨sent :: parts, ?_, ?_, ?_⟩
    · rw [mapM_eq_ok_iff] at hparts ⊢
      exact .cons hsent hparts
    · rw [List.flatten_cons, List.flatten_cons, List.length_append, List.length_append, hlen, hlens]
    · have happend : sent ++ parts.flatten = unit ++ units.flatten ↔
          sent = unit ∧ parts.flatten = units.flatten :=
        ⟨fun hsame => List.append_inj hsame hlen, fun ⟨hfirst, hrest⟩ => by rw [hfirst, hrest]⟩
      rw [List.flatten_cons, List.flatten_cons, happend, hpads, hpad, List.zip_cons_cons,
        List.forall_mem_cons]

end ReadAll

theorem Rule.WellFormed.exists_residue (hwf : rule.WellFormed) (hdistinct : rule.DistinctLists)
    (hrestore : rule.restore endpoint (.ofBytes residue pending) = .ok columns decoder)
    (hall : decoder.tape.remaining = 0) :
    ∃ sent, rule.residue endpoint columns = .ok sent ∧ sent.length = residue.length ∧
      (sent = residue ↔ rule.ZeroPadded endpoint residue) := by
  obtain ⟨units, rest, rfl, hread, rfl⟩ := hwf.restore_eq_ok_iff.1 hrestore
  rw [Decoder.behind, BitTape.remaining_behind] at hall
  obtain rfl : rest = [] := List.length_eq_zero_iff.1 (by omega)
  have hunits := hread.unitsFrom_eq [] [] .none
  rw [List.nil_append] at hunits
  have hfields : ∀ f ∈ rule.fieldsFor endpoint.direction, ∀ values ∈ f.target.list?, values.Nodup :=
    fun f hf => hdistinct f (List.mem_of_mem_filter hf)
  obtain ⟨parts, hparts, hlen, hpads⟩ := hread.exists_residue hfields
  rw [List.append_nil] at hunits ⊢
  refine ⟨parts.flatten, bind_eq_ok_iff.2 ⟨parts, hparts, rfl⟩, hlen, ?_⟩
  rw [hpads, ZeroPadded, Rule.units, Decoder.ofBytes_eq, hunits]

/-- A residue that is restored to its end is sent again, and is the same exactly if it is padded
with zeros; two residues that are padded so are not restored to the same columns. -/
theorem Device.residue_canonical (device : Device) (haccepted : device.Accepted) (layer : Layer)
    (rule : Rule) (hrule : rule ∈ device.rules layer) (hdistinct : rule.DistinctLists)
    (endpoint : Endpoint) (residue : List UInt8) (pending : Packet.Pending)
    (columns : List Column) (decoder : Decoder)
    (hrestore : rule.restore endpoint (.ofBytes residue pending) = .ok columns decoder)
    (hall : decoder.tape.remaining = 0) :
    (∃ sent, rule.residue endpoint columns = .ok sent ∧ sent.length = residue.length ∧
      (sent = residue ↔ rule.ZeroPadded endpoint residue)) ∧
    (rule.ZeroPadded endpoint residue → ∀ (other : List UInt8) (pending' : Packet.Pending)
      (decoder' : Decoder), rule.ZeroPadded endpoint other →
      rule.restore endpoint (.ofBytes other pending') = .ok columns decoder' →
      decoder'.tape.remaining = 0 → other = residue) := by
  have hwf := haccepted.wellFormed layer rule hrule
  obtain ⟨sent, hsent, hlen, hpads⟩ := hwf.exists_residue hdistinct hrestore hall
  refine ⟨⟨sent, hsent, hlen, hpads⟩, fun hpadded other pending' decoder' hpadded' hrestore' hall' => ?_⟩
  obtain ⟨sent', hsent', -, hpads'⟩ := hwf.exists_residue hdistinct hrestore' hall'
  have hsame : sent = sent' := Except.ok.inj (hsent.symm.trans hsent')
  rw [← hpads.2 hpadded, ← hpads'.2 hpadded', hsame]

/-- The token length is sent in the lower half of a byte, and the type as a place in a list. -/
theorem Device.sensor_residue_canonical :
    ∃ rule ∈ sensor.rules .application, rule.DistinctLists ∧
      rule.restore (.ofDirection .up) (.ofBytes [1, 2, 0x12, 0x34, 0xAA, 0xBB] .none) =
        .ok (sensorColumns.set 1 ⟨.coapType, 2, [1]⟩)
          (.behind [1, 2, 0x12, 0x34, 0xAA, 0xBB] [] .none) ∧
      rule.ZeroPadded (.ofDirection .up) [1, 2, 0x12, 0x34, 0xAA, 0xBB] ∧
      rule.residue (.ofDirection .up) (sensorColumns.set 1 ⟨.coapType, 2, [1]⟩) =
        .ok [1, 2, 0x12, 0x34, 0xAA, 0xBB] := by
  have hdistinct : (sensor.coapRules.head (by decide)).DistinctLists := by decide
  have hrestore : (sensor.coapRules.head (by decide)).restore (.ofDirection .up)
      (.ofBytes [1, 2, 0x12, 0x34, 0xAA, 0xBB] .none) =
        .ok (sensorColumns.set 1 ⟨.coapType, 2, [1]⟩)
          (.behind [1, 2, 0x12, 0x34, 0xAA, 0xBB] [] .none) := by
    rfl
  have hpadded : (sensor.coapRules.head (by decide)).ZeroPadded (.ofDirection .up)
      [1, 2, 0x12, 0x34, 0xAA, 0xBB] := by
    decide +kernel
  obtain ⟨⟨sent, hsent, -, hpads⟩, -⟩ := residue_canonical sensor sensor_accepted .application
    (sensor.coapRules.head (by decide)) (by decide) hdistinct (.ofDirection .up)
    [1, 2, 0x12, 0x34, 0xAA, 0xBB] .none _ _ hrestore (by decide)
  exact ⟨_, List.head_mem (by decide), hdistinct, hrestore, hpadded, hpads.2 hpadded ▸ hsent⟩

end HeaderCompression
