import HeaderCompression.Proofs.Bits.Packing

namespace HeaderCompression

variable {low : List Bool} {bytes value other : List UInt8} {bits : Nat}

/-- The bytes hold `bits` bits, and those in front of them are zero. -/
def FitsWidth (bits : Nat) (value : List UInt8) : Prop :=
  value.length = bytesFor bits ∧ natOfBytes value < 2 ^ bits

instance (bits : Nat) (value : List UInt8) : Decidable (FitsWidth bits value) :=
  inferInstanceAs (Decidable (_ ∧ _))

theorem natOfBytes_alignRight (low : List Bool) : natOfBytes (alignRight low) = natOfBits low := by
  rw [natOfBytes_eq, bitsOfBytes_alignRight, natOfBits_append, natOfBits_replicate_false]
  simp

theorem bytesOfNat_natOfBits (bits : List Bool) :
    bytesOfNat (bytesFor bits.length) (natOfBits bits) = alignRight bits := by
  rw [← natOfBytes_alignRight, ← length_alignRight, bytesOfNat_natOfBytes]

theorem fitsWidth_alignRight (low : List Bool) : FitsWidth low.length (alignRight low) := by
  refine ⟨length_alignRight low, ?_⟩
  rw [natOfBytes_alignRight]
  exact natOfBits_lt low

theorem natOfBytes_injective (hlen : value.length = other.length)
    (h : natOfBytes value = natOfBytes other) : value = other := by
  rw [← bytesOfNat_natOfBytes value, ← bytesOfNat_natOfBytes other, hlen, h]

theorem FitsWidth.eq_alignRight (h : FitsWidth bits value) :
    value = alignRight (bitsOfNat bits (natOfBytes value)) := by
  obtain ⟨hlen, hlt⟩ := h
  apply natOfBytes_injective
  · rw [length_alignRight, length_bitsOfNat, hlen]
  · rw [natOfBytes_alignRight, natOfBits_bitsOfNat, Nat.mod_eq_of_lt hlt]

theorem FitsWidth.exists_low (h : FitsWidth bits value) :
    ∃ low : List Bool, low.length = bits ∧ value = alignRight low :=
  ⟨_, length_bitsOfNat .., h.eq_alignRight⟩

theorem FitsWidth.add_padding (h : FitsWidth bits value) :
    8 * value.length = padding bits + bits := by
  rw [h.1, ← HeaderCompression.add_padding, Nat.add_comm]

theorem fitsWidth_of_bytes (value : List UInt8) : FitsWidth (8 * value.length) value := by
  constructor
  · simp only [bytesFor]
    omega
  · rw [natOfBytes_eq, ← length_bitsOfBytes]
    exact natOfBits_lt _

@[simp] theorem drop_padding_alignRight (low : List Bool) :
    (bitsOfBytes (alignRight low)).drop (padding low.length) = low := by
  rw [bitsOfBytes_alignRight, List.drop_left' (by simp)]

theorem natOfBytes_cons (byte : UInt8) (bytes : List UInt8) :
    natOfBytes (byte :: bytes) = byte.toNat * 256 ^ bytes.length + natOfBytes bytes := by
  have hpow : (256 : Nat) ^ bytes.length = 2 ^ (8 * bytes.length) := by rw [pow_mul]; norm_num
  rw [natOfBytes_eq, bitsOfBytes_cons, natOfBits_append, length_bitsOfBytes, natOfBytes_eq,
    natOfBits_bitsOfNat, Nat.mod_eq_of_lt byte.toNat_lt, hpow]

theorem natOfBytes_replicate_zero_append (n : Nat) (bytes : List UInt8) :
    natOfBytes (List.replicate n 0 ++ bytes) = natOfBytes bytes := by
  induction n with
  | zero => rfl
  | succ n ih => simp [List.replicate_succ, natOfBytes_cons, ih]

theorem natOfBytes_dropWhile_zero (bytes : List UInt8) :
    natOfBytes (bytes.dropWhile (· == 0)) = natOfBytes bytes := by
  induction bytes with
  | nil => rfl
  | cons byte bytes ih =>
    rw [List.dropWhile_cons]
    split
    · rename_i h
      rw [ih, natOfBytes_cons, eq_of_beq h]
      simp
    · rfl

end HeaderCompression
