import HeaderCompression.Proofs.Bits.Range
import HeaderCompression.Proofs.Bits.Tape
import HeaderCompression.Proofs.Header.Columns
import HeaderCompression.Proofs.Rule.Accepted
import HeaderCompression.Rule.Residue

namespace HeaderCompression

variable {f : RuleField} {endpoint : Endpoint} {column announced : Column}
  {previous columns : List Column} {sent target unit : List UInt8} {bits count : Nat}
  {pending : Packet.Pending} {values : List (List UInt8)}

section LowBits

variable {low known : List Bool}

theorem bitsOfBytes_alignRight_split (low : List Bool) (count : Nat) :
    bitsOfBytes (alignRight low) =
      (List.replicate (padding low.length) false ++ low.take count) ++ low.drop count ++ [] := by
  simp

theorem length_low_start (hcount : count ≤ low.length) :
    8 * (alignRight low).length - (low.length - count) =
      (List.replicate (padding low.length) false ++ low.take count).length := by
  rw [(fitsWidth_alignRight low).add_padding, List.length_append, List.length_replicate,
    List.length_take]
  omega

theorem Column.lowBits_alignRight (hbits : column.bits = low.length)
    (hvalue : column.value = alignRight low) (hcount : count ≤ low.length) :
    column.lowBits count = .ok (alignRight (low.drop count)) := by
  have hlength : (low.drop count).length = low.length - count := List.length_drop
  unfold lowBits
  dsimp only
  rw [hbits, hvalue]
  split
  · rename_i hzero
    rw [List.drop_eq_nil_of_le (by omega)]
    rfl
  · have hpad := add_padding (low.length - count)
    have hzeros : bitsOfBytes (List.replicate (bytesFor (low.length - count)) 0) =
        List.replicate (padding (low.length - count)) false ++
          List.replicate (low.drop count).length false ++ [] := by
      rw [bitsOfBytes_replicate_zero, ← hpad, hlength, List.append_nil,
        List.replicate_append_replicate, Nat.add_comm]
    rw [Bits.merge_append hzeros (bitsOfBytes_alignRight_split low count) (by simp; omega)
      (length_low_start hcount) (by simp) (by simp), Bits.zipWith_or_replicate_false, alignRight,
      hlength, List.append_nil]

theorem clear_low (hcount : count ≤ low.length) :
    Bits.clear (alignRight low) (8 * (alignRight low).length - (low.length - count))
      (low.length - count) =
      .ok (alignRight (low.take count ++ List.replicate (low.length - count) false)) := by
  rw [Bits.clear_append (bitsOfBytes_alignRight_split low count) (length_low_start hcount)
    (by simp)]
  simp [alignRight, hcount]

/-- The bits at the right end of the bytes of `bits` bits; what stands in front of them is unused.
-/
def usedBits (bits : Nat) (unit : List UInt8) : List Bool :=
  (bitsOfBytes unit).drop (padding bits)

theorem length_usedBits (h : unit.length = bytesFor bits) : (usedBits bits unit).length = bits := by
  have hpad := add_padding bits
  rw [usedBits, List.length_drop, length_bitsOfBytes, h]
  omega

theorem clear_unused (h : unit.length = bytesFor bits) :
    Bits.clear unit 0 (8 * unit.length - bits) = .ok (alignRight (usedBits bits unit)) := by
  have hpad := add_padding bits
  have hunused : ((bitsOfBytes unit).take (padding bits)).length = padding bits := by
    rw [List.length_take, length_bitsOfBytes, h]
    omega
  have hsplit : bitsOfBytes unit =
      [] ++ (bitsOfBytes unit).take (padding bits) ++ usedBits bits unit :=
    (List.take_append_drop ..).symm
  rw [Bits.clear_append hsplit List.length_nil.symm (by rw [hunused, h]; omega), hunused,
    alignRight, length_usedBits h]
  rfl

theorem merge_used (hcount : count ≤ known.length)
    (h : unit.length = bytesFor (known.length - count)) :
    Bits.merge (alignRight (known.take count ++ List.replicate (known.length - count) false))
      (8 * (alignRight known).length - (known.length - count)) unit
      (8 * unit.length - (known.length - count)) (known.length - count) =
      .ok (alignRight (known.take count ++ usedBits (known.length - count) unit)) := by
  have hpad := add_padding (known.length - count)
  have hused := length_usedBits h
  have hunused : ((bitsOfBytes unit).take (padding (known.length - count))).length =
      padding (known.length - count) := by
    rw [List.length_take, length_bitsOfBytes, h]
    omega
  have hroom : bitsOfBytes (alignRight (known.take count ++
      List.replicate (known.length - count) false)) =
      (List.replicate (padding known.length) false ++ known.take count) ++
        List.replicate (usedBits (known.length - count) unit).length false ++ [] := by
    rw [hused]
    simp [hcount]
  have hsource : bitsOfBytes unit = (bitsOfBytes unit).take (padding (known.length - count)) ++
      usedBits (known.length - count) unit ++ [] := by
    rw [List.append_nil]
    exact (List.take_append_drop ..).symm
  rw [Bits.merge_append hroom hsource (length_low_start hcount) (by rw [hunused, h]; omega)
    (by simp [hused]) (by simp), Bits.zipWith_or_replicate_false]
  simp [alignRight, hused, hcount]

theorem Column.matchesMsb_iff (hbits : column.bits = low.length)
    (hvalue : column.value = alignRight low) (hlen : known.length = low.length) :
    column.matchesMsb (alignRight known) count ↔
      count ≤ low.length ∧ known.take count = low.take count := by
  have hstart (bits : List Bool) : 8 * (alignRight bits).length - bits.length =
      (List.replicate (padding bits.length) false).length := by
    rw [(fitsWidth_alignRight bits).add_padding]
    simp
  have hsplit (bits : List Bool) : bitsOfBytes (alignRight bits) =
      List.replicate (padding bits.length) false ++ bits.take count ++ bits.drop count := by
    simp
  have hlength : (alignRight known).length = (alignRight low).length := by
    rw [length_alignRight, length_alignRight, hlen]
  rw [matchesMsb]
  rw [hbits, hvalue, hlength]
  by_cases hle : count ≤ low.length
  · rw [if_neg (by simp [hle])]
    split
    · rename_i hall
      rw [matchesValue, hvalue, hall, ← hlen, List.take_length, hlen, List.take_length, beq_iff_eq]
      refine ⟨fun hsame => ⟨le_rfl, ?_⟩, fun hsame => by rw [hsame.2]⟩
      rw [← drop_padding_alignRight low, hsame, ← hlen, drop_padding_alignRight]
    · dsimp only
      rw [Bits.agree_append (hsplit low) (hsplit known) (hstart low)
        (by simpa only [hlen] using hstart low) (by simp; omega) (by simp; omega)]
      rw [beq_iff_eq, eq_comm]
      exact (and_iff_right hle).symm
  · rw [if_pos (.inr (Nat.lt_of_not_le hle))]
    simp [hle]

end LowBits

namespace Decoder

def behind (front rest : List UInt8) (pending : Packet.Pending) : Decoder :=
  ⟨.behind front rest, pending⟩

theorem ofBytes_eq (data : List UInt8) (pending : Packet.Pending) :
    ofBytes data pending = behind [] data pending := rfl

theorem onTape_behind {α : Type} {read : EStateM Error BitTape α} {a : α}
    {front rest front' rest' : List UInt8}
    (h : read (.behind front rest) = .ok a (.behind front' rest'))
    (pending : Packet.Pending) :
    onTape read (behind front rest pending) = .ok a (behind front' rest' pending) := by
  simp only [onTape, behind, h]

end Decoder

namespace RuleField

def leave (f : RuleField) (pending : Packet.Pending) : Packet.Pending :=
  ⟨pending.length || f.action = .computeLength, pending.checksum || f.action = .computeChecksum⟩

/-- What the field makes of a column: the column itself, the target value of a field that is not
sent, or zeros in the place of a computed field. -/
def Restores (f : RuleField) (column restored : Column) : Prop :=
  match f.action with
  | .valueSent | .mappingSent | .lsb | .devIid => restored = column
  | .notSent => ∃ value, f.target = .single value ∧ restored = f.columnOf value
  | .computeLength | .computeChecksum =>
    restored = ⟨column.field, column.bits, List.replicate (bytesFor column.bits) 0⟩
  | .appIid => False

theorem accepts_iff :
    f.accepts column ↔
      f.field = column.field ∧ f.matchesLength column ∧ f.matchesOperator column := by
  simp [accepts, and_assoc]

theorem bits_eq_of_fixed {bits : Nat} (h : f.accepts column) (hlength : f.length = .fixed bits) :
    column.bits = bits := by
  have := (accepts_iff.1 h).2.1
  simpa [matchesLength, hlength] using this

theorem bits_eq_of_not_fixed (h : f.accepts column) (hfits : column.Fits)
    (hlength : ∀ bits, f.length ≠ .fixed bits) : column.bits = 8 * column.value.length := by
  have hmod : column.bits % 8 = 0 := by
    have := (accepts_iff.1 h).2.1
    rw [matchesLength] at this
    split at this
    · rename_i bits hbits
      exact (hlength bits hbits).elim
    all_goals simpa using this
  rw [hfits.value.1]
  simp only [bytesFor]
  omega

theorem ofBytes_eq (h : f.accepts column) (hfits : column.Fits)
    (hbits : column.bits = 8 * column.value.length) : .ofBytes f.field column.value = column := by
  rw [Column.ofBytes, (accepts_iff.1 h).1, ← hbits, Nat.mod_eq_of_lt hfits.narrow]

theorem columnOf_value (h : f.accepts column) (hfits : column.Fits) :
    f.columnOf column.value = column := by
  rw [columnOf]
  split
  · rename_i bits hlength
    rw [(accepts_iff.1 h).1, ← bits_eq_of_fixed h hlength]
  · rename_i hlength
    exact ofBytes_eq h hfits (bits_eq_of_not_fixed h hfits hlength)

theorem readValue_behind (h : f.accepts column) (hfits : column.Fits)
    (hsent : f.valueResidue column = .ok sent)
    (htoken : f.length = .token → ∃ announced,
      Column.find? previous .coapTokenLength = some announced ∧
        announced.toNat = column.value.length) (front rest : List UInt8) :
    f.readValue previous (.behind front (sent ++ rest)) =
      .ok column (.behind (front ++ sent) rest) := by
  have hread := BitTape.readWhole_behind front column.value rest
  rw [readValue]
  rw [valueResidue] at hsent
  cases hlength : f.length with
  | fixed bits =>
    rw [hlength] at hsent
    cases hsent
    have hbits := bits_eq_of_fixed h hlength
    rw [hfits.value.1, hbits] at hread
    refine run_bind_eq_ok_iff.2 ⟨_, _, hread, ?_⟩
    rw [← hbits, hfits.value.clear, (accepts_iff.1 h).1]
    rfl
  | token =>
    rw [hlength] at hsent
    cases hsent
    obtain ⟨announced, hfind, hannounced⟩ := htoken hlength
    dsimp only
    rw [hfind]
    refine run_bind_eq_ok_iff.2 ⟨_, _, hannounced ▸ hread, ?_⟩
    rw [ofBytes_eq h hfits (bits_eq_of_not_fixed h hfits (by simp [hlength]))]
    rfl
  | «variable» =>
    rw [hlength] at hsent
    dsimp only at hsent
    split at hsent
    · rename_i hlen
      cases hsent
      have hbyte := BitTape.readByte_behind front (UInt8.ofNat column.value.length)
        (column.value ++ rest)
      rw [UInt8.toNat_ofNat_of_lt' (by simpa using hlen)] at hbyte
      have hread := BitTape.readWhole_behind (front ++ [UInt8.ofNat column.value.length])
        column.value rest
      refine run_bind_eq_ok_iff.2 ⟨_, _, hbyte, run_bind_eq_ok_iff.2 ⟨_, _, hread, ?_⟩⟩
      rw [ofBytes_eq h hfits (bits_eq_of_not_fixed h hfits (by simp [hlength]))]
      simp [pure, EStateM.pure]
    · cases hsent

theorem readMapping_behind (hwf : f.WellFormed) (h : f.accepts column) (hfits : column.Fits)
    (haction : f.action = .mappingSent) {index : Nat}
    (hindex : f.target.list?.bind column.placeIn? = some index) (front rest : List UInt8) :
    f.readMapping (.behind front (UInt8.ofNat index :: rest)) =
      .ok column (.behind (front ++ [UInt8.ofNat index]) rest) := by
  obtain ⟨values, htarget, -, hlen⟩ := hwf.mapping (hwf.mappingSent haction)
  rw [maxListed] at hlen
  have hlist : f.target.list? = some values := TargetValue.list?_eq_some_iff.2 htarget
  rw [hlist, Option.bind_some, Column.placeIn?, List.findIdx?_eq_some_iff_getElem] at hindex
  obtain ⟨hlt, hvalue, -⟩ := hindex
  have hbyte := BitTape.readByte_behind front (UInt8.ofNat index) rest
  rw [UInt8.toNat_ofNat_of_lt' (Nat.lt_of_lt_of_le hlt hlen)] at hbyte
  rw [readMapping]
  rw [hlist]
  refine run_bind_eq_ok_iff.2 ⟨_, _, hbyte, ?_⟩
  rw [List.getElem?_eq_getElem hlt, ← eq_of_beq hvalue]
  exact congrArg (EStateM.Result.ok · _) (columnOf_value h hfits)

/-- A matched target and the column have the same first bits and differ in those that are sent. -/
theorem exists_low_of_msb (hwf : f.WellFormed) (h : f.accepts column) (hfits : column.Fits)
    (hoperator : f.operator = .msb count) :
    ∃ low known : List Bool, f.length = .fixed low.length ∧ f.target = .single (alignRight known) ∧
      column.bits = low.length ∧ column.value = alignRight low ∧ known.length = low.length ∧
      count ≤ low.length ∧ known.take count = low.take count := by
  obtain ⟨⟨bits, hlength, -⟩, target, htarget⟩ := hwf.msb count hoperator
  have hbits := bits_eq_of_fixed h hlength
  obtain ⟨low, hlow, hvalue⟩ := hfits.value.exists_low
  obtain ⟨known, hknown, rfl⟩ :=
    (hwf.targets bits hlength target (by simp [htarget, TargetValue.values])).exists_low
  have hlen : known.length = low.length := by rw [hknown, hlow, hbits]
  have hmatch := (accepts_iff.1 h).2.2
  simp only [matchesOperator, hoperator, htarget, TargetValue.single?, Option.any_some] at hmatch
  obtain ⟨hcount, htake⟩ := (Column.matchesMsb_iff hlow.symm hvalue hlen).1 hmatch
  exact ⟨low, known, by rw [hlength, hlow, hbits], htarget, hlow.symm, hvalue, hlen, hcount, htake⟩

theorem requireBits_eq_ok {bits : Nat} (h : f.length = .fixed bits) : f.requireBits = .ok bits := by
  simp [requireBits, fixedBits?, h]

theorem readLowBits_append {known : List Bool} (hoperator : f.operator = .msb count)
    (hlength : f.length = .fixed known.length) (htarget : f.target = .single (alignRight known))
    (hcount : count ≤ known.length) (hunit : unit.length = bytesFor (known.length - count))
    (front rest : List Bool) :
    f.readLowBits ⟨front ++ bitsOfBytes unit ++ rest, front.length⟩ =
      .ok ⟨f.field, known.length,
          alignRight (known.take count ++ usedBits (known.length - count) unit)⟩
        ⟨front ++ bitsOfBytes unit ++ rest, front.length + 8 * unit.length⟩ := by
  have hread := BitTape.readWhole_append front rest unit
  rw [hunit] at hread
  rw [readLowBits, hoperator, htarget, hunit]
  dsimp only [TargetValue.single?]
  rw [requireBits_eq_ok hlength]
  refine run_bind_eq_ok_iff.2 ⟨_, _, rfl, ?_⟩
  rw [clear_low hcount]
  refine run_bind_eq_ok_iff.2 ⟨_, _, rfl, run_bind_eq_ok_iff.2 ⟨_, _, hread, ?_⟩⟩
  rw [merge_used hcount hunit]
  rfl

theorem readLowBits_behind (hwf : f.WellFormed) (h : f.accepts column) (hfits : column.Fits)
    (hoperator : f.operator = .msb count) (hsent : column.lowBits count = .ok sent)
    (front rest : List UInt8) :
    f.readLowBits (.behind front (sent ++ rest)) = .ok column (.behind (front ++ sent) rest) := by
  obtain ⟨low, known, hlength, htarget, hbits, hvalue, hlen, hcount, htake⟩ :=
    exists_low_of_msb hwf h hfits hoperator
  rw [Column.lowBits_alignRight hbits hvalue hcount] at hsent
  cases hsent
  have hunit : (alignRight (low.drop count)).length = bytesFor (known.length - count) := by
    rw [length_alignRight, List.length_drop, hlen]
  have hused : usedBits (known.length - count) (alignRight (low.drop count)) = low.drop count := by
    rw [hlen, ← List.length_drop, usedBits, drop_padding_alignRight]
  have hread := readLowBits_append hoperator (hlength.trans (by rw [hlen])) htarget
    (hlen.symm ▸ hcount) hunit (bitsOfBytes front) (bitsOfBytes rest)
  rw [hused, htake, List.take_append_drop, ← hvalue, hlen, ← hbits, (accepts_iff.1 h).1] at hread
  rw [BitTape.behind_append_right, BitTape.behind_append_left]
  exact hread

theorem placeholder_eq_ok (hwf : f.WellFormed) (h : f.accepts column) {width : Nat}
    (hwidth : f.field.width? = some width) :
    f.placeholder = .ok ⟨column.field, column.bits, List.replicate (bytesFor column.bits) 0⟩ := by
  have hlength := hwf.width width hwidth
  rw [placeholder]
  rw [requireBits_eq_ok hlength, (accepts_iff.1 h).1, bits_eq_of_fixed h hlength]
  rfl

@[simp] theorem field_columnOf (f : RuleField) (value : List UInt8) :
    (f.columnOf value).field = f.field := by
  rw [columnOf]
  split <;> rfl

theorem Restores.field_eq {restored : Column} (hr : f.Restores column restored)
    (h : f.accepts column) : restored.field = column.field := by
  rw [Restores] at hr
  cases haction : f.action <;> rw [haction] at hr
  case notSent =>
    obtain ⟨value, -, rfl⟩ := hr
    rw [field_columnOf, (accepts_iff.1 h).1]
  case appIid => exact hr.elim
  all_goals rw [hr]

/-- A field reads what it sent, and nothing else. -/
theorem restore_behind (hwf : f.WellFormed) (h : f.accepts column) (hfits : column.Fits)
    (hsent : f.residue endpoint column = .ok sent)
    (htoken : f.action = .valueSent → f.length = .token → ∃ announced,
      Column.find? previous .coapTokenLength = some announced ∧
        announced.toNat = column.value.length) (front rest : List UInt8)
    (pending : Packet.Pending) :
    ∃ restored, f.Restores column restored ∧
      f.restore endpoint previous (.behind front (sent ++ rest) pending) =
        .ok restored (.behind (front ++ sent) rest (f.leave pending)) := by
  rw [residue] at hsent
  unfold restore Restores leave
  cases haction : f.action <;> rw [haction] at hsent <;> dsimp only at hsent ⊢ <;>
    simp only [reduceCtorEq, decide_true, decide_false, Bool.or_true, Bool.or_false]
  case notSent =>
    cases hsent
    obtain ⟨value, htarget⟩ := hwf.notSent haction
    refine ⟨_, ⟨value, htarget, rfl⟩, ?_⟩
    rw [restoreTarget, htarget, List.append_nil]
    rfl
  case valueSent =>
    have hread := readValue_behind h hfits hsent (htoken haction) front rest
    exact ⟨column, rfl, Decoder.onTape_behind hread pending⟩
  case mappingSent =>
    split at hsent
    · cases hsent
    · rename_i index hindex
      cases hsent
      have hread := readMapping_behind hwf h hfits haction hindex front rest
      exact ⟨column, rfl, Decoder.onTape_behind hread pending⟩
  case lsb =>
    obtain ⟨count, hoperator⟩ := hwf.lsb haction
    rw [hoperator] at hsent
    have hread := readLowBits_behind hwf h hfits hoperator hsent front rest
    exact ⟨column, rfl, Decoder.onTape_behind hread pending⟩
  case computeLength =>
    cases hsent
    have hwidth : f.field.width? = some 16 := by
      obtain hfield | hfield := hwf.computeLength haction <;> rw [hfield] <;> rfl
    refine ⟨_, rfl, ?_⟩
    rw [placeholder_eq_ok hwf h hwidth, List.append_nil]
    rfl
  case computeChecksum =>
    cases hsent
    have hwidth : f.field.width? = some 16 := by rw [hwf.computeChecksum haction]; rfl
    refine ⟨_, rfl, ?_⟩
    rw [placeholder_eq_ok hwf h hwidth, List.append_nil]
    rfl
  case devIid =>
    split at hsent
    · cases hsent
    rename_i iid hiid
    split at hsent
    · rename_i hvalue
      cases hsent
      have hwidth : f.field.width? = some 64 := by rw [hwf.devIid haction]; rfl
      have hbits : column.bits = 64 := bits_eq_of_fixed h (hwf.width 64 hwidth)
      have hwhole : column.bits = 8 * column.value.length := by
        rw [hfits.value.1, hbits]
        rfl
      refine ⟨column, rfl, ?_⟩
      rw [hiid, ← hvalue, List.append_nil]
      exact congrArg (EStateM.Result.ok · _) (ofBytes_eq h hfits hwhole)
    · cases hsent
  case appIid => cases hsent

end RuleField

abbrev FieldPair := RuleField × Column

namespace FieldPair

/-- The field can be executed and accepts the column, whose value fits its width. -/
structure Sound (p : FieldPair) : Prop where
  wellFormed : p.1.WellFormed
  accepts : p.1.accepts p.2
  fits : p.2.Fits

/-- The token's length is restored, as far as a token is sent whose length it gives. -/
def KeepsTokenLength (pairs : List FieldPair) : Prop :=
  (∃ p ∈ pairs, p.1.action = .valueSent ∧ p.1.length = .token) →
    ∀ p ∈ pairs, p.1.field = .coapTokenLength → p.1.action = .notSent →
      p.1.target = .single p.2.value

theorem Sound.field_eq_token {p : FieldPair} (h : p.Sound) (hlength : p.1.length = .token) :
    p.2.field = .coapToken := by
  rw [← (RuleField.accepts_iff.1 h.accepts).1]
  cases hwidth : p.1.field.width? with
  | some width =>
    have := h.wellFormed.width width hwidth
    rw [hlength] at this
    cases this
  | none =>
    rcases h.wellFormed.whole hwidth with ⟨count, -, hfixed⟩ | hvar | ⟨-, hfield⟩
    · rw [hlength] at hfixed
      cases hfixed
    · rw [hlength] at hvar
      cases hvar
    · exact hfield

theorem Sound.eq_of_tokenLength {p : FieldPair} (h : p.Sound) {restored : Column}
    (hr : p.1.Restores p.2 restored) (hfield : p.1.field = .coapTokenLength)
    (htarget : p.1.action = .notSent → p.1.target = .single p.2.value) : restored = p.2 := by
  rw [RuleField.Restores] at hr
  cases haction : p.1.action <;> rw [haction] at hr
  case notSent =>
    obtain ⟨value, hvalue, rfl⟩ := hr
    rw [htarget haction] at hvalue
    cases hvalue
    exact RuleField.columnOf_value h.accepts h.fits
  case computeLength =>
    obtain hlen | hlen := h.wellFormed.computeLength haction <;> simp [hfield] at hlen
  case computeChecksum =>
    have hsum := h.wellFormed.computeChecksum haction
    simp [hfield] at hsum
  case appIid => exact hr.elim
  all_goals exact hr

theorem find?_tokenLength {done : List FieldPair} {previous : List Column}
    (hsound : ∀ p ∈ done, p.Sound)
    (hdone : List.Forall₂ (fun p restored => p.1.Restores p.2 restored) done previous)
    (htarget : ∀ p ∈ done, p.1.field = .coapTokenLength → p.1.action = .notSent →
      p.1.target = .single p.2.value) :
    Column.find? previous .coapTokenLength = Column.find? (done.map (·.2)) .coapTokenLength := by
  induction hdone with
  | nil => rfl
  | @cons p restored done previous hr _ ih =>
    have hp := hsound p List.mem_cons_self
    have hfield := hr.field_eq hp.accepts
    have ih := ih (fun q hq => hsound q (List.mem_cons_of_mem _ hq))
      fun q hq => htarget q (List.mem_cons_of_mem _ hq)
    unfold Column.find? at ih ⊢
    rw [List.map_cons, List.find?_cons, List.find?_cons, hfield, ih]
    split
    · rename_i htkl
      have htkl' : p.1.field = .coapTokenLength :=
        (RuleField.accepts_iff.1 hp.accepts).1.trans (eq_of_beq htkl)
      rw [hp.eq_of_tokenLength hr htkl' (htarget p List.mem_cons_self htkl')]
    · rfl

def restoreAll (endpoint : Endpoint) (fields : List RuleField) (previous : List Column) :
    EStateM Error Decoder (List Column) :=
  fields.foldlM (fun columns f => do return columns ++ [← f.restore endpoint columns]) previous

theorem restoreAll_behind {all done pairs : List FieldPair} {parts : List (List UInt8)}
    {previous : List Column} (hall : all = done ++ pairs) (hsound : ∀ p ∈ all, p.Sound)
    (hannounced : TokenAnnounced (all.map (·.2))) (hkeeps : KeepsTokenLength all)
    (hdone : List.Forall₂ (fun p restored => p.1.Restores p.2 restored) done previous)
    (hparts : List.Forall₂ (fun p part => p.1.residue endpoint p.2 = .ok part) pairs parts)
    (front rest : List UInt8) (pending : Packet.Pending) :
    ∃ restored, List.Forall₂ (fun p restored => p.1.Restores p.2 restored) pairs restored ∧
      restoreAll endpoint (pairs.map (·.1)) previous
          (.behind front (parts.flatten ++ rest) pending) =
        .ok (previous ++ restored) (.behind (front ++ parts.flatten) rest
          ((pairs.map (·.1)).foldl (fun pending f => f.leave pending) pending)) := by
  induction hparts generalizing done previous front pending with
  | nil => exact ⟨[], .nil, by simp [restoreAll, pure, EStateM.pure]⟩
  | @cons p part pairs parts hpart hparts ih =>
    have hp := hsound p (by simp [hall])
    have htoken : p.1.action = .valueSent → p.1.length = .token → ∃ announced,
        Column.find? previous .coapTokenLength = some announced ∧
          announced.toNat = p.2.value.length := by
      intro haction hlength
      have htarget := hkeeps ⟨p, by simp [hall], haction, hlength⟩
      rw [find?_tokenLength (fun q hq => hsound q (by simp [hall, hq])) hdone
        fun q hq => htarget q (by simp [hall, hq])]
      exact hannounced (done.map (·.2)) p.2 (pairs.map (·.2)) (by simp [hall])
        (hp.field_eq_token hlength)
    obtain ⟨restored, hr, hrun⟩ := RuleField.restore_behind hp.wellFormed hp.accepts hp.fits hpart
      htoken front (parts.flatten ++ rest) pending
    have hall' : all = (done ++ [p]) ++ pairs := by simp [hall]
    obtain ⟨others, hothers, hruns⟩ := ih hall' (List.rel_append hdone (.cons hr .nil))
      (front ++ part) (p.1.leave pending)
    refine ⟨restored :: others, .cons hr hothers, ?_⟩
    rw [List.map_cons, restoreAll, List.foldlM_cons, List.flatten_cons, List.append_assoc]
    refine run_bind_eq_ok_iff.2 ⟨_, _, run_bind_eq_ok_iff.2 ⟨_, _, hrun, rfl⟩, ?_⟩
    simpa [restoreAll] using hruns

end FieldPair

namespace Rule

variable {rule : Rule} {direction : Direction} {residue : List UInt8}

def pairs (rule : Rule) (direction : Direction) (columns : List Column) : List FieldPair :=
  (rule.fieldsFor direction).zip columns

theorem accepts_iff :
    rule.accepts columns direction ↔
      (rule.fieldsFor direction).length = columns.length ∧
        ∀ p ∈ rule.pairs direction columns, p.1.accepts p.2 := by
  simp [accepts, pairs, List.all_eq_true]

theorem foldl_leave (fields : List RuleField) (pending : Packet.Pending) :
    fields.foldl (fun pending f => f.leave pending) pending =
      ⟨pending.length || fields.any (·.action = .computeLength),
        pending.checksum || fields.any (·.action = .computeChecksum)⟩ := by
  induction fields generalizing pending with
  | nil => simp
  | cons f fields ih =>
    rw [List.foldl_cons, ih]
    simp [RuleField.leave, Bool.or_assoc]

theorem restore_ofBytes (hlen : (rule.fieldsFor endpoint.direction).length = columns.length)
    (hsound : ∀ p ∈ rule.pairs endpoint.direction columns, p.Sound)
    (hannounced : TokenAnnounced columns)
    (hkeeps : FieldPair.KeepsTokenLength (rule.pairs endpoint.direction columns))
    (hresidue : rule.residue endpoint columns = .ok residue) (rest : List UInt8)
    (pending : Packet.Pending) :
    ∃ restored, rule.restore endpoint (.ofBytes (residue ++ rest) pending) =
        .ok restored (.behind residue rest
          ((rule.fieldsFor endpoint.direction).foldl (fun pending f => f.leave pending) pending)) ∧
      List.Forall₂ (fun p restored => p.1.Restores p.2 restored)
        (rule.pairs endpoint.direction columns) restored := by
  obtain ⟨parts, hparts, h⟩ := bind_eq_ok_iff.1 hresidue
  cases h
  have hfields : (rule.pairs endpoint.direction columns).map (·.1) =
      rule.fieldsFor endpoint.direction := List.map_fst_zip (by omega)
  have hcolumns : (rule.pairs endpoint.direction columns).map (·.2) = columns :=
    List.map_snd_zip (by omega)
  obtain ⟨restored, hr, hrun⟩ := FieldPair.restoreAll_behind (List.nil_append _).symm hsound
    (hcolumns.symm ▸ hannounced) hkeeps .nil (mapM_eq_ok_iff.1 hparts) [] rest pending
  rw [hfields] at hrun
  exact ⟨restored, hrun, hr⟩

end Rule

variable {device : Device} {layer : Layer} {rule : Rule} {direction : Direction}
  {data residue : List UInt8} {length : Nat}

theorem Device.Accepted.sound_pairs (haccepted : device.Accepted)
    (hrule : rule ∈ device.rules layer)
    (hcolumns : layer.columns direction data = .ok (columns, length))
    (haccepts : rule.accepts columns direction) :
    ∀ p ∈ rule.pairs direction columns, p.Sound := by
  intro p hp
  obtain ⟨hfield, hcolumn⟩ := List.of_mem_zip hp
  exact
    { wellFormed := haccepted.wellFormed layer rule hrule p.1 (List.mem_of_mem_filter hfield)
      accepts := (Rule.accepts_iff.1 haccepts).2 p hp
      fits := layer.fits_columns hcolumns p.2 hcolumn }

/-- The residue of a header under a rule that accepts it is read back whatever follows it: the
columns that were sent, the target values of those that were not, and zeros for those that are
computed later. -/
theorem Device.residue_roundTrip (device : Device) (haccepted : device.Accepted) (layer : Layer)
    (rule : Rule) (hrule : rule ∈ device.rules layer) (endpoint : Endpoint) (data : List UInt8)
    (columns : List Column) (length : Nat)
    (hcolumns : layer.columns endpoint.direction data = .ok (columns, length))
    (haccepts : rule.accepts columns endpoint.direction)
    (hkeeps : FieldPair.KeepsTokenLength (rule.pairs endpoint.direction columns))
    (residue : List UInt8) (hresidue : rule.residue endpoint columns = .ok residue)
    (rest : List UInt8) (pending : Packet.Pending) :
    ∃ restored,
      rule.restore endpoint (.ofBytes (residue ++ rest) pending) =
        .ok restored ⟨⟨bitsOfBytes (residue ++ rest), 8 * residue.length⟩,
          ⟨pending.length || (rule.fieldsFor endpoint.direction).any (·.action = .computeLength),
            pending.checksum ||
              (rule.fieldsFor endpoint.direction).any (·.action = .computeChecksum)⟩⟩ ∧
      restored.length = (rule.fieldsFor endpoint.direction).length ∧
      List.Forall₂ (fun p restored => p.1.Restores p.2 restored)
        (rule.pairs endpoint.direction columns) restored := by
  have hlen := (Rule.accepts_iff.1 haccepts).1
  obtain ⟨restored, hrun, hr⟩ := Rule.restore_ofBytes hlen
    (haccepted.sound_pairs hrule hcolumns haccepts) (layer.tokenAnnounced_columns hcolumns) hkeeps
    hresidue rest pending
  rw [Rule.foldl_leave] at hrun
  refine ⟨restored, hrun, ?_, hr⟩
  rw [← hr.length_eq, Rule.pairs, List.length_zip, ← hlen, Nat.min_self]

def Device.sensorColumns : List Column :=
  [⟨.coapVersion, 2, [1]⟩, ⟨.coapType, 2, [0]⟩, ⟨.coapTokenLength, 4, [2]⟩, ⟨.coapCode, 8, [1]⟩,
    ⟨.coapMessageId, 16, [0x12, 0x34]⟩, ⟨.coapToken, 16, [0xAA, 0xBB]⟩]

theorem Device.columns_sensorColumns :
    Layer.columns .application .up [0x42, 1, 0x12, 0x34, 0xAA, 0xBB] = .ok (sensorColumns, 6) := by
  decide +kernel

theorem Device.sensor_residue_roundTrip :
    ∃ rule ∈ sensor.rules .application,
      Layer.columns .application .up [0x42, 1, 0x12, 0x34, 0xAA, 0xBB] = .ok (sensorColumns, 6) ∧
      rule.accepts sensorColumns .up ∧
      rule.residue (.ofDirection .up) sensorColumns = .ok [0, 2, 0x12, 0x34, 0xAA, 0xBB] ∧
      ∃ restored, rule.restore (.ofDirection .up)
          (.ofBytes [0, 2, 0x12, 0x34, 0xAA, 0xBB, 9] .none) =
        .ok restored ⟨⟨bitsOfBytes [0, 2, 0x12, 0x34, 0xAA, 0xBB, 9], 48⟩, .none⟩ := by
  have hkeeps : FieldPair.KeepsTokenLength (Rule.pairs
      (sensor.coapRules.head (by decide)) .up sensorColumns) := by
    intro _
    decide
  obtain ⟨restored, hrun, -⟩ := residue_roundTrip sensor sensor_accepted .application
    (sensor.coapRules.head (by decide)) (by decide) (.ofDirection .up)
    [0x42, 1, 0x12, 0x34, 0xAA, 0xBB] sensorColumns 6 columns_sensorColumns (by decide) hkeeps
    [0, 2, 0x12, 0x34, 0xAA, 0xBB] (by decide) [9] .none
  exact ⟨_, List.head_mem (by decide), columns_sensorColumns, by decide, by decide, restored, hrun⟩

end HeaderCompression
