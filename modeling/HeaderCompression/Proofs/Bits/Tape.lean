import HeaderCompression.Bits.Tape
import HeaderCompression.Proofs.Bits.Width
import HeaderCompression.Proofs.Outcome

namespace HeaderCompression.BitTape

/-- The tape of some bytes with its head behind those in front. -/
def behind (front rest : List UInt8) : BitTape :=
  ⟨bitsOfBytes (front ++ rest), 8 * front.length⟩

theorem behind_append_right (front bytes rest : List UInt8) :
    behind front (bytes ++ rest) =
      ⟨bitsOfBytes front ++ bitsOfBytes bytes ++ bitsOfBytes rest, (bitsOfBytes front).length⟩ := by
  simp [behind]

theorem behind_append_left (front bytes rest : List UInt8) :
    behind (front ++ bytes) rest =
      ⟨bitsOfBytes front ++ bitsOfBytes bytes ++ bitsOfBytes rest,
        (bitsOfBytes front).length + 8 * bytes.length⟩ := by
  simp [behind, Nat.mul_add]

@[simp] theorem byteHead_behind (front rest : List UInt8) :
    (behind front rest).byteHead = front.length := by
  simp only [byteHead, behind, bytesFor]
  omega

theorem readWhole_append (front rest : List Bool) (bytes : List UInt8) :
    readWhole bytes.length ⟨front ++ bitsOfBytes bytes ++ rest, front.length⟩ =
      .ok bytes ⟨front ++ bitsOfBytes bytes ++ rest, front.length + 8 * bytes.length⟩ := by
  have hread : read (8 * bytes.length) ⟨front ++ bitsOfBytes bytes ++ rest, front.length⟩ =
      .ok (bitsOfBytes bytes)
        ⟨front ++ bitsOfBytes bytes ++ rest, front.length + 8 * bytes.length⟩ := by
    simp only [read, seek, List.length_append, length_bitsOfBytes]
    rw [if_pos (by omega), List.append_assoc, List.drop_left, ← length_bitsOfBytes bytes,
      List.take_left]
  refine run_bind_eq_ok_iff.2 ⟨_, _, hread, ?_⟩
  rw [alignRight_bitsOfBytes]
  rfl

theorem readWhole_behind (front bytes rest : List UInt8) :
    readWhole bytes.length (behind front (bytes ++ rest)) =
      .ok bytes (behind (front ++ bytes) rest) := by
  rw [behind_append_right, behind_append_left]
  exact readWhole_append (bitsOfBytes front) (bitsOfBytes rest) bytes

theorem readByte_behind (front : List UInt8) (byte : UInt8) (rest : List UInt8) :
    readByte (behind front (byte :: rest)) = .ok byte.toNat (behind (front ++ [byte]) rest) := by
  have hread : read 8 (behind front (byte :: rest)) =
      .ok (bitsOfNat 8 byte.toNat) (behind (front ++ [byte]) rest) := by
    simp only [read, behind, seek, bitsOfBytes_append, bitsOfBytes_cons, List.length_append,
      length_bitsOfBytes, length_bitsOfNat]
    rw [if_pos (by omega), ← length_bitsOfBytes front, List.drop_left]
    simp [Nat.mul_add]
  refine run_bind_eq_ok_iff.2 ⟨_, _, hread, ?_⟩
  rw [natOfBits_bitsOfNat, Nat.mod_eq_of_lt byte.toNat_lt]
  rfl

variable {front data bytes : List UInt8} {count n : Nat} {tape : BitTape}

theorem remaining_behind (front rest : List UInt8) :
    (behind front rest).remaining = 8 * rest.length := by
  simp only [remaining, behind, length_bitsOfBytes, List.length_append]
  omega

theorem read_behind_of_lt (front : List UInt8) (h : 8 * data.length < n) :
    read n (behind front data) =
      .error (.exhausted n (8 * front.length) (8 * data.length)) (behind front data) := by
  rw [read]
  rw [if_neg, remaining_behind]
  · rfl
  · simp only [behind, length_bitsOfBytes, List.length_append]
    omega

theorem readWhole_behind_of_lt (front : List UInt8) (h : data.length < count) :
    readWhole count (behind front data) =
      .error (.exhausted (8 * count) (8 * front.length) (8 * data.length)) (behind front data) := by
  have hread := read_behind_of_lt front (show 8 * data.length < 8 * count by omega)
  change EStateM.bind _ _ _ = _
  rw [EStateM.bind, hread]

theorem readByte_behind_nil (front : List UInt8) :
    readByte (behind front []) = .error (.exhausted 8 (8 * front.length) 0) (behind front []) := by
  have hread := read_behind_of_lt front (show 8 * [].length < 8 by decide)
  change EStateM.bind _ _ _ = _
  rw [EStateM.bind, hread]
  rfl

theorem readWhole_eq_ok_iff :
    readWhole count (behind front data) = .ok bytes tape ↔
      ∃ rest, data = bytes ++ rest ∧ bytes.length = count ∧ tape = behind (front ++ bytes) rest := by
  constructor
  · intro h
    by_cases hlen : count ≤ data.length
    · have htake : (data.take count).length = count := List.length_take_of_le hlen
      have hread := readWhole_behind front (data.take count) (data.drop count)
      rw [htake, List.take_append_drop, h] at hread
      cases hread
      exact ⟨_, (List.take_append_drop ..).symm, htake, rfl⟩
    · rw [readWhole_behind_of_lt front (Nat.lt_of_not_le hlen)] at h
      cases h
  · rintro ⟨rest, rfl, rfl, rfl⟩
    exact readWhole_behind front bytes rest

theorem readByte_eq_ok_iff :
    readByte (behind front data) = .ok n tape ↔
      ∃ byte rest, data = byte :: rest ∧ n = byte.toNat ∧ tape = behind (front ++ [byte]) rest := by
  constructor
  · intro h
    cases data with
    | nil =>
      rw [readByte_behind_nil] at h
      cases h
    | cons byte rest =>
      rw [readByte_behind] at h
      cases h
      exact ⟨byte, rest, rfl, rfl, rfl⟩
  · rintro ⟨byte, rest, rfl, rfl, rfl⟩
    exact readByte_behind front byte rest

end HeaderCompression.BitTape
