import HeaderCompression.Proofs.Rule.Residue

namespace HeaderCompression

variable {unit : List UInt8} {low known : List Bool} {bits count : Nat}

theorem take_eq_take_iff (hlen : known.length = low.length) (count : Nat) :
    known.take count = low.take count ↔
      natOfBits low >>> (low.length - count) = natOfBits known >>> (low.length - count) := by
  rw [Nat.shiftRight_eq_div_pow, Nat.shiftRight_eq_div_pow, ← natOfBits_take, ← hlen,
    ← natOfBits_take]
  refine ⟨fun hsame => by rw [hsame], fun hnat => ?_⟩
  exact (natOfBits_injective (by simp [hlen]) hnat).symm

theorem natOfBits_usedBits (h : unit.length = bytesFor bits) :
    natOfBits (usedBits bits unit) = natOfBytes unit % 2 ^ bits := by
  have hpad := add_padding bits
  have hused : 8 * unit.length - padding bits = bits := by omega
  rw [usedBits, natOfBits_drop, length_bitsOfBytes, hused, natOfBytes_eq]

theorem natOfBits_take_append (hunit : unit.length = bytesFor (known.length - count)) :
    natOfBits (known.take count ++ usedBits (known.length - count) unit) =
      (natOfBits known >>> (known.length - count)) * 2 ^ (known.length - count) +
        natOfBytes unit % 2 ^ (known.length - count) := by
  rw [natOfBits_append, natOfBits_take, length_usedBits hunit, natOfBits_usedBits hunit,
    Nat.shiftRight_eq_div_pow]

/-- A match of the first `count` bits splits numbers by `2 ^ (bits - count)`. A column matches its
target if the quotients are equal, what is sent is the remainder, and any bytes of this size are
read to the quotient of the target with their remainder: a value of the same width that matches
again. -/
theorem RuleField.msb_split (f : RuleField) (bits count : Nat) (hlength : f.length = .fixed bits)
    (hoperator : f.operator = .msb count) (hcount : count ≤ bits) (target : List UInt8)
    (htarget : f.target = .single target) (hfits : FitsWidth bits target) (column : Column)
    (hbits : column.bits = bits) (hvalue : FitsWidth bits column.value) :
    (column.matchesMsb target count ↔
      natOfBytes column.value >>> (bits - count) = natOfBytes target >>> (bits - count)) ∧
    (∃ residue, column.lowBits count = .ok residue ∧ residue.length = bytesFor (bits - count) ∧
      natOfBytes residue = natOfBytes column.value % 2 ^ (bits - count)) ∧
    ∀ (received : List UInt8) (front rest : List Bool),
      received.length = bytesFor (bits - count) →
      ∃ restored, f.readLowBits ⟨front ++ bitsOfBytes received ++ rest, front.length⟩ =
          .ok restored ⟨front ++ bitsOfBytes received ++ rest,
            front.length + 8 * received.length⟩ ∧
        restored.field = f.field ∧ restored.bits = bits ∧
        natOfBytes restored.value =
          (natOfBytes target >>> (bits - count)) * 2 ^ (bits - count) +
            natOfBytes received % 2 ^ (bits - count) ∧
        FitsWidth bits restored.value ∧ restored.matchesMsb target count := by
  obtain ⟨known, rfl, rfl⟩ := hfits.exists_low
  obtain ⟨low, hlow, hspelt⟩ := hvalue.exists_low
  have hbits' : column.bits = low.length := hbits.trans hlow.symm
  refine ⟨?matching, ?sent, ?restored⟩
  case matching =>
    rw [Column.matchesMsb_iff hbits' hspelt hlow.symm, hspelt, natOfBytes_alignRight,
      natOfBytes_alignRight, ← hlow, and_iff_right (hlow ▸ hcount)]
    exact take_eq_take_iff hlow.symm count
  case sent =>
    refine ⟨_, Column.lowBits_alignRight hbits' hspelt (hlow ▸ hcount), ?_, ?_⟩
    · rw [length_alignRight, List.length_drop, hlow]
    · rw [natOfBytes_alignRight, natOfBits_drop, hspelt, natOfBytes_alignRight, hlow]
  case restored =>
    intro received front rest hreceived
    have hused := length_usedBits hreceived
    have hrestored : (known.take count ++ usedBits (known.length - count) received).length =
        known.length := by
      rw [List.length_append, List.length_take_of_le hcount, hused, Nat.add_sub_cancel' hcount]
    have hwhole := fitsWidth_alignRight
      (known.take count ++ usedBits (known.length - count) received)
    rw [hrestored] at hwhole
    refine ⟨_, readLowBits_append hoperator hlength htarget hcount hreceived front rest, rfl, rfl,
      ?_, hwhole, ?_⟩
    · rw [natOfBytes_alignRight, natOfBytes_alignRight, natOfBits_take_append hreceived]
    · rw [Column.matchesMsb_iff hrestored.symm rfl hrestored.symm, hrestored]
      refine ⟨hcount, ?_⟩
      rw [List.take_left' (List.length_take_of_le hcount)]

/-- A flow label whose first 13 bits are known: the seven others are sent in a byte, and come back
from one, whatever its unused bit. -/
theorem RuleField.flowLabel_split :
    ∃ f : RuleField, f.length = .fixed 20 ∧ f.operator = .msb 13 ∧
      f.target = .single [0x0A, 0xBC, 0xD0] ∧
      (⟨.ipv6FlowLabel, 20, [0x0A, 0xBC, 0xFF]⟩ : Column).matchesMsb [0x0A, 0xBC, 0xD0] 13 ∧
      (∃ residue, (⟨.ipv6FlowLabel, 20, [0x0A, 0xBC, 0xFF]⟩ : Column).lowBits 13 = .ok residue ∧
        natOfBytes residue = 0x7F) ∧
      ∃ restored, f.readLowBits ⟨[true] ++ bitsOfBytes [0xFF] ++ [false], 1⟩ =
          .ok restored ⟨[true] ++ bitsOfBytes [0xFF] ++ [false], 9⟩ ∧
        natOfBytes restored.value = 0xABCFF := by
  obtain ⟨hmatch, ⟨residue, hresidue, -, hsent⟩, hread⟩ := msb_split
    ⟨.ipv6FlowLabel, .fixed 20, none, .msb 13, .single [0x0A, 0xBC, 0xD0], .lsb⟩ 20 13 rfl rfl
    (by decide) [0x0A, 0xBC, 0xD0] rfl (by decide) ⟨.ipv6FlowLabel, 20, [0x0A, 0xBC, 0xFF]⟩ rfl
    (by decide)
  obtain ⟨restored, hrun, -, -, hnat, -⟩ := hread [0xFF] [true] [false] rfl
  exact ⟨_, rfl, rfl, rfl, hmatch.2 (by decide), ⟨residue, hresidue, hsent⟩, restored, hrun, hnat⟩

end HeaderCompression
