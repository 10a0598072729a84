import HeaderCompression.Bits.Basic
import Mathlib.Data.List.Induction
import Mathlib.Data.Nat.Bitwise
import Mathlib.Tactic.NormNum
import Mathlib.Tactic.Ring

namespace HeaderCompression

variable {bits xs ys : List Bool} {bytes : List UInt8} {m n width count : Nat}

theorem natOfBits_append (xs ys : List Bool) :
    natOfBits (xs ++ ys) = natOfBits xs * 2 ^ ys.length + natOfBits ys := by
  induction ys using List.reverseRecOn with
  | nil => simp [natOfBits]
  | append_singleton ys y ih =>
    have hstep (zs : List Bool) : natOfBits (zs ++ [y]) = 2 * natOfBits zs + y.toNat := by
      simp [natOfBits]
    rw [← List.append_assoc, hstep, ih, hstep, List.length_append, List.length_singleton, pow_succ]
    ring

theorem natOfBits_cons (bit : Bool) (bits : List Bool) :
    natOfBits (bit :: bits) = bit.toNat * 2 ^ bits.length + natOfBits bits := by
  simpa [natOfBits] using natOfBits_append [bit] bits

theorem natOfBits_lt (bits : List Bool) : natOfBits bits < 2 ^ bits.length := by
  induction bits with
  | nil => simp [natOfBits]
  | cons bit bits ih =>
    rw [natOfBits_cons, List.length_cons, pow_succ]
    cases bit <;> simp <;> omega

theorem natOfBits_take (bits : List Bool) (count : Nat) :
    natOfBits (bits.take count) = natOfBits bits / 2 ^ (bits.length - count) := by
  have hsplit := natOfBits_append (bits.take count) (bits.drop count)
  have hlt := natOfBits_lt (bits.drop count)
  rw [List.take_append_drop, List.length_drop] at hsplit
  rw [List.length_drop] at hlt
  rw [hsplit, Nat.mul_comm, Nat.mul_add_div (by positivity), Nat.div_eq_of_lt hlt, Nat.add_zero]

theorem natOfBits_drop (bits : List Bool) (count : Nat) :
    natOfBits (bits.drop count) = natOfBits bits % 2 ^ (bits.length - count) := by
  have hsplit := natOfBits_append (bits.take count) (bits.drop count)
  have hlt := natOfBits_lt (bits.drop count)
  rw [List.take_append_drop, List.length_drop] at hsplit
  rw [List.length_drop] at hlt
  rw [hsplit, Nat.mul_comm, Nat.mul_add_mod, Nat.mod_eq_of_lt hlt]

@[simp] theorem natOfBits_replicate_false (n : Nat) :
    natOfBits (List.replicate n false) = 0 := by
  induction n with
  | zero => rfl
  | succ n ih => rw [List.replicate_succ, natOfBits_cons, ih]; simp

@[simp] theorem natOfBits_bitsOfNat (width n : Nat) :
    natOfBits (bitsOfNat width n) = n % 2 ^ width := by
  induction width with
  | zero => simp [bitsOfNat, natOfBits, Nat.mod_one]
  | succ width ih =>
    rw [bitsOfNat, natOfBits_cons, ih, length_bitsOfNat, Nat.mod_pow_succ, Nat.toNat_testBit]
    ring

theorem bitsOfNat_congr (h : ∀ i < width, m.testBit i = n.testBit i) :
    bitsOfNat width m = bitsOfNat width n := by
  induction width with
  | zero => rfl
  | succ width ih =>
    rw [bitsOfNat, bitsOfNat, h width (by omega), ih fun i hi => h i (by omega)]

@[simp] theorem bitsOfNat_mod (width n : Nat) :
    bitsOfNat width (n % 2 ^ width) = bitsOfNat width n := by
  apply bitsOfNat_congr
  intro i hi
  simp [Nat.testBit_mod_two_pow, hi]

@[simp] theorem bitsOfNat_natOfBits (bits : List Bool) :
    bitsOfNat bits.length (natOfBits bits) = bits := by
  induction bits with
  | nil => rfl
  | cons bit bits ih =>
    have hlt := natOfBits_lt bits
    have hhead : (natOfBits (bit :: bits)).testBit bits.length = bit := by
      rw [natOfBits_cons, mul_comm, Nat.testBit_two_pow_mul_add _ hlt]
      cases bit <;> simp
    have htail : bitsOfNat bits.length (natOfBits (bit :: bits)) = bits := by
      rw [← bitsOfNat_mod, natOfBits_cons, mul_comm, Nat.mul_add_mod, Nat.mod_eq_of_lt hlt, ih]
    rw [List.length_cons, bitsOfNat, hhead, htail]

theorem natOfBits_injective (hlen : xs.length = ys.length) (h : natOfBits xs = natOfBits ys) :
    xs = ys := by
  rw [← bitsOfNat_natOfBits xs, ← bitsOfNat_natOfBits ys, hlen, h]

theorem bitsOfNat_add (a b n : Nat) :
    bitsOfNat (a + b) n = bitsOfNat a (n / 2 ^ b) ++ bitsOfNat b n := by
  induction a with
  | zero => simp [bitsOfNat]
  | succ a ih =>
    rw [Nat.succ_add, bitsOfNat, ih, bitsOfNat, List.cons_append, Nat.testBit_div_two_pow]

theorem bitsOfNat_toNat_injective {a b : UInt8} (h : bitsOfNat 8 a.toNat = bitsOfNat 8 b.toNat) :
    a = b := by
  have := congrArg natOfBits h
  simp only [natOfBits_bitsOfNat] at this
  apply UInt8.toNat_inj.1
  have ha := a.toNat_lt
  have hb := b.toNat_lt
  omega

theorem bitsOfBytes_injective {xs ys : List UInt8} (h : bitsOfBytes xs = bitsOfBytes ys) :
    xs = ys := by
  induction xs generalizing ys with
  | nil =>
    have := congrArg List.length h
    simp only [length_bitsOfBytes, List.length_nil] at this
    exact (List.length_eq_zero_iff.1 (by omega)).symm
  | cons x xs ih =>
    cases ys with
    | nil => simp [bitsOfNat] at h
    | cons y ys =>
      rw [bitsOfBytes_cons, bitsOfBytes_cons] at h
      obtain ⟨hx, hxs⟩ := List.append_inj h (by simp)
      rw [bitsOfNat_toNat_injective hx, ih hxs]

theorem bitsOfBytes_take (bytes : List UInt8) (n : Nat) :
    bitsOfBytes (bytes.take n) = (bitsOfBytes bytes).take (8 * n) := by
  induction bytes generalizing n with
  | nil => simp
  | cons byte bytes ih =>
    cases n with
    | zero => simp
    | succ n =>
      have hcut : 8 * (n + 1) = (bitsOfNat 8 byte.toNat).length + 8 * n := by simp; omega
      rw [List.take_succ_cons, bitsOfBytes_cons, bitsOfBytes_cons, ih, hcut,
        List.take_length_add_append]

theorem bitsOfBytes_drop (bytes : List UInt8) (n : Nat) :
    bitsOfBytes (bytes.drop n) = (bitsOfBytes bytes).drop (8 * n) := by
  induction bytes generalizing n with
  | nil => simp
  | cons byte bytes ih =>
    cases n with
    | zero => simp
    | succ n =>
      have hcut : 8 * (n + 1) = (bitsOfNat 8 byte.toNat).length + 8 * n := by simp; omega
      rw [List.drop_succ_cons, bitsOfBytes_cons, ih, hcut, List.drop_length_add_append]

@[simp] theorem bitsOfBytes_replicate_zero (n : Nat) :
    bitsOfBytes (List.replicate n 0) = List.replicate (8 * n) false := by
  induction n with
  | zero => rfl
  | succ n ih =>
    rw [List.replicate_succ, bitsOfBytes_cons, ih, Nat.mul_succ, Nat.add_comm,
      ← List.replicate_append_replicate]
    rfl

@[simp] theorem bitsOfNat_byteOfBits (h : bits.length = 8) :
    bitsOfNat 8 (byteOfBits bits).toNat = bits := by
  have hlt := natOfBits_lt bits
  rw [h] at hlt
  rw [byteOfBits, UInt8.toNat_ofNat_of_lt' (by simpa using hlt), ← h, bitsOfNat_natOfBits]

theorem length_lt_of_not_eight
    (h : ∀ a b c d e f g h rest, bits = a :: b :: c :: d :: e :: f :: g :: h :: rest → False) :
    bits.length < 8 := by
  match bits with
  | [] | [_] | [_, _] | [_, _, _] | [_, _, _, _] | [_, _, _, _, _] | [_, _, _, _, _, _]
  | [_, _, _, _, _, _, _] => simp
  | _ :: _ :: _ :: _ :: _ :: _ :: _ :: _ :: _ => exact (h _ _ _ _ _ _ _ _ _ rfl).elim

theorem bitsOfBytes_packBits (packed : List UInt8) (bits : List Bool) :
    bitsOfBytes (packBits packed bits) =
      bitsOfBytes packed.reverse ++ bits ++ List.replicate (padding bits.length) false := by
  fun_induction packBits packed bits with
  | case1 packed a b c d e f g h rest ih =>
    rw [ih, List.reverse_cons, bitsOfBytes_append, bitsOfBytes_cons, bitsOfNat_byteOfBits rfl]
    have hpad : padding (a :: b :: c :: d :: e :: f :: g :: h :: rest).length =
        padding rest.length := by
      simp only [padding, List.length_cons]
      omega
    rw [hpad]
    simp
  | case2 packed => simp [padding]
  | case3 packed bits height hnil =>
    have hlt := length_lt_of_not_eight height
    have hpos : 0 < bits.length := List.length_pos_iff.2 hnil
    have hpad : padding bits.length = 8 - bits.length := by
      simp only [padding]
      omega
    rw [List.reverse_cons, bitsOfBytes_append, bitsOfBytes_cons,
      bitsOfNat_byteOfBits (by simp; omega), hpad]
    simp

@[simp] theorem bitsOfBytes_bytesOfBits (bits : List Bool) :
    bitsOfBytes (bytesOfBits bits) = bits ++ List.replicate (padding bits.length) false := by
  simpa [bytesOfBits] using bitsOfBytes_packBits [] bits

@[simp] theorem bytesOfBits_bitsOfBytes (bytes : List UInt8) :
    bytesOfBits (bitsOfBytes bytes) = bytes := by
  apply bitsOfBytes_injective
  simp [padding]

theorem bitsOfBytes_bytesOfBits_of_dvd (h : 8 ∣ bits.length) :
    bitsOfBytes (bytesOfBits bits) = bits := by
  obtain ⟨k, hk⟩ := h
  simp [hk, padding]

theorem add_padding (n : Nat) : n + padding n = 8 * bytesFor n := by
  simp only [padding, bytesFor]
  omega

@[simp] theorem length_bytesOfBits (bits : List Bool) :
    (bytesOfBits bits).length = bytesFor bits.length := by
  have h := congrArg List.length (bitsOfBytes_bytesOfBits bits)
  simp only [length_bitsOfBytes, List.length_append, List.length_replicate, add_padding] at h
  omega

@[simp] theorem bitsOfBytes_alignRight (bits : List Bool) :
    bitsOfBytes (alignRight bits) = List.replicate (padding bits.length) false ++ bits := by
  apply bitsOfBytes_bytesOfBits_of_dvd
  have := add_padding bits.length
  simp only [List.length_append, List.length_replicate]
  omega

@[simp] theorem length_alignRight (bits : List Bool) :
    (alignRight bits).length = bytesFor bits.length := by
  have h := congrArg List.length (bitsOfBytes_alignRight bits)
  have := add_padding bits.length
  simp only [length_bitsOfBytes, List.length_append, List.length_replicate] at h
  omega

@[simp] theorem alignRight_bitsOfBytes (bytes : List UInt8) :
    alignRight (bitsOfBytes bytes) = bytes := by
  apply bitsOfBytes_injective
  simp [padding]

theorem bitsOfBytes_bytesOfNat (count n : Nat) :
    bitsOfBytes (bytesOfNat count n) = bitsOfNat (8 * count) n := by
  induction count with
  | zero => rfl
  | succ count ih =>
    have hhead : bitsOfNat 8 (UInt8.ofNat (n >>> (8 * count))).toNat =
        bitsOfNat 8 (n / 2 ^ (8 * count)) := by
      rw [UInt8.toNat_ofNat', Nat.shiftRight_eq_div_pow]
      exact bitsOfNat_mod 8 _
    rw [bytesOfNat, bitsOfBytes_cons, ih, hhead, Nat.mul_succ, Nat.add_comm, bitsOfNat_add]

theorem natOfBytes_eq (bytes : List UInt8) : natOfBytes bytes = natOfBits (bitsOfBytes bytes) := by
  induction bytes using List.reverseRecOn with
  | nil => rfl
  | append_singleton bytes byte ih =>
    have hbyte : byte.toNat % 2 ^ 8 = byte.toNat := Nat.mod_eq_of_lt byte.toNat_lt
    rw [bitsOfBytes_append, natOfBits_append, ← ih]
    simp only [natOfBytes, List.foldl_append, List.foldl_cons, List.foldl_nil, bitsOfBytes_cons,
      bitsOfBytes_nil, List.append_nil, length_bitsOfNat, natOfBits_bitsOfNat, hbyte]
    ring

theorem natOfBytes_lt (bytes : List UInt8) : natOfBytes bytes < 256 ^ bytes.length := by
  have hlt := natOfBits_lt (bitsOfBytes bytes)
  rw [length_bitsOfBytes, pow_mul] at hlt
  rw [natOfBytes_eq]
  exact hlt

@[simp] theorem natOfBytes_bytesOfNat (count n : Nat) :
    natOfBytes (bytesOfNat count n) = n % 256 ^ count := by
  rw [natOfBytes_eq, bitsOfBytes_bytesOfNat, natOfBits_bitsOfNat, pow_mul]
  norm_num

@[simp] theorem bytesOfNat_natOfBytes (bytes : List UInt8) :
    bytesOfNat bytes.length (natOfBytes bytes) = bytes := by
  apply bitsOfBytes_injective
  rw [bitsOfBytes_bytesOfNat, natOfBytes_eq, ← length_bitsOfBytes, bitsOfNat_natOfBits]

theorem bytesOfNat_two (high low : UInt8) :
    bytesOfNat 2 (natOfBytes [high, low]) = [high, low] :=
  bytesOfNat_natOfBytes [high, low]

end HeaderCompression
