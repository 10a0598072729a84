import HeaderCompression.Proofs.Packet.Completion

namespace HeaderCompression.Packet

variable {xs ys bytes ipv6 udp coap : List UInt8} {position n sum : Nat}

/-- What is added up for the checksum of a packet: the addresses, the length of the datagram, the
protocol and the words of the datagram but for the checksum. -/
def accumulatedSum (packet : List UInt8) : Nat :=
  let datagram := packet.drop ipv6HeaderLength
  let addresses := wordSum 0 ((packet.take ipv6HeaderLength).drop 8)
  wordSum (wordSum (addresses + datagram.length + udpProtocol) (datagram.take 6)) (datagram.drop 8)

/-- What is added up to check a checksum: the same with all words of the datagram. -/
def coveredSum (packet : List UInt8) : Nat :=
  let datagram := packet.drop ipv6HeaderLength
  let addresses := wordSum 0 ((packet.take ipv6HeaderLength).drop 8)
  wordSum (addresses + datagram.length + udpProtocol) datagram

theorem natOfBytes_wordAt_fillWord (hzero : wordAt position bytes = [0, 0]) (hn : n < 65536) :
    natOfBytes (wordAt position (fillWord position n bytes)) = n := by
  have hfront : (bytes.take position).length = position := by
    have hlen := length_of_wordAt hzero
    rw [List.length_take_of_le (by omega)]
  have hword := wordAt_append_right (bytes.take position)
    (bytesOfNat 2 n ++ bytes.drop (position + 2)) 0
  rw [hfront, ← List.append_assoc, ← fillWord_of_eq hzero, Nat.add_zero] at hword
  have hmod : n % 256 ^ 2 = n := Nat.mod_eq_of_lt hn
  rw [hword, wordAt, List.drop_zero, List.take_left' (length_bytesOfNat ..), natOfBytes_bytesOfNat,
    hmod]

theorem wordAt_fillWord {other : Nat} (h : other + 2 ≤ position ∨ position + 2 ≤ other) :
    wordAt other (fillWord position n bytes) = wordAt other bytes := by
  by_cases hzero : wordAt position bytes = [0, 0]
  · have hlen := length_of_wordAt hzero
    have hfront : (bytes.take position).length = position := List.length_take_of_le (by omega)
    rw [fillWord_of_eq hzero]
    rcases h with h | h
    · have hleft := wordAt_append_left (bytes.drop position) (hfront.symm ▸ h)
      rw [List.take_append_drop] at hleft
      rw [List.append_assoc, wordAt_append_left _ (hfront.symm ▸ h), hleft]
    · obtain ⟨more, rfl⟩ := Nat.exists_eq_add_of_le h
      have hword : (bytes.take position ++ bytesOfNat 2 n).length = position + 2 := by
        rw [List.length_append, hfront, length_bytesOfNat]
      rw [← hword, wordAt_append_right, hword]
      unfold wordAt
      rw [List.drop_drop]
  · rw [fillWord_of_ne hzero]

theorem foldCarries_lt (n : Nat) : foldCarries n < 65536 := by
  fun_induction foldCarries n with
  | case1 n h => exact h
  | case2 n h ih => exact ih

theorem foldCarries_mod (n : Nat) : foldCarries n % 65535 = n % 65535 := by
  fun_induction foldCarries n with
  | case1 n h => rfl
  | case2 n h ih => omega

theorem foldCarries_pos (hpos : 0 < n) : 0 < foldCarries n := by
  fun_induction foldCarries n with
  | case1 n h => exact hpos
  | case2 n h ih => exact ih (by omega)

/-- A sum that 65535 divides ends at 65535, unless it is zero. -/
theorem foldCarries_eq_of_mod (hpos : 0 < n) (hmod : n % 65535 = 0) : foldCarries n = 65535 := by
  have hlt := foldCarries_lt n
  have hsame := foldCarries_mod n
  have hfold := foldCarries_pos hpos
  omega

theorem checksumOfSum_pos (sum : Nat) : 0 < checksumOfSum sum := by
  unfold checksumOfSum
  dsimp only
  split
  · decide
  · rename_i h
    exact Nat.pos_of_ne_zero h

theorem checksumOfSum_lt (sum : Nat) : checksumOfSum sum < 65536 := by
  unfold checksumOfSum
  dsimp only
  split
  · decide
  · omega

theorem foldCarries_add_checksumOfSum (h : sum < 2 ^ 32) :
    foldCarries (sum + checksumOfSum sum) = 65535 := by
  have hpos := checksumOfSum_pos sum
  apply foldCarries_eq_of_mod (by omega)
  have hlt := foldCarries_lt sum
  have hmod := foldCarries_mod sum
  have hfits : sum % UInt32.size = sum := Nat.mod_eq_of_lt h
  unfold checksumOfSum
  rw [hfits]
  dsimp only
  split <;> omega

theorem wordSum_add (more sum : Nat) (bytes : List UInt8) :
    wordSum (more + sum) bytes = more + wordSum sum bytes := by
  fun_induction wordSum sum bytes with
  | case1 sum high low rest ih => rw [wordSum, Nat.add_assoc, ih]
  | case2 sum high => rw [wordSum, Nat.add_assoc]
  | case3 sum => rfl

theorem wordSum_append (h : xs.length % 2 = 0) (ys : List UInt8) (sum : Nat) :
    wordSum sum (xs ++ ys) = wordSum (wordSum sum xs) ys := by
  fun_induction wordSum sum xs with
  | case1 sum high low rest ih =>
    rw [List.cons_append, List.cons_append, wordSum]
    apply ih
    rw [List.length_cons, List.length_cons] at h
    omega
  | case2 sum high => cases h
  | case3 sum => rfl

theorem wordSum_le (sum : Nat) (bytes : List UInt8) :
    wordSum sum bytes ≤ sum + 65535 * ((bytes.length + 1) / 2) := by
  fun_induction wordSum sum bytes with
  | case1 sum high low rest ih =>
    have hhigh := high.toNat_lt
    have hlow := low.toNat_lt
    rw [List.length_cons, List.length_cons]
    omega
  | case2 sum high =>
    have hhigh := high.toNat_lt
    rw [List.length_singleton]
    omega
  | case3 sum => exact Nat.le_add_right ..

theorem wordSum_bytesOfNat (sum : Nat) (h : n < 65536) :
    wordSum sum (bytesOfNat 2 n) = sum + n := by
  have hhigh : (UInt8.ofNat (n >>> (8 * 1))).toNat = n / 256 := by
    rw [Nat.shiftRight_eq_div_pow]
    exact UInt8.toNat_ofNat_of_lt' (by change n / 256 < 256; omega)
  have hlow : (UInt8.ofNat (n >>> (8 * 0))).toNat = n % 256 := by
    rw [UInt8.toNat_ofNat', Nat.mul_zero, Nat.shiftRight_zero]
  rw [bytesOfNat, bytesOfNat, bytesOfNat, wordSum, wordSum, hhigh, hlow]
  omega

section Parts

variable (hipv6 : ipv6.length = 40) (hudp : udp.length = 8) (coap : List UInt8)

include hipv6 hudp

theorem accumulatedSum_parts :
    accumulatedSum (ipv6 ++ udp ++ coap) =
      wordSum (wordSum (wordSum 0 (ipv6.drop 8) + (udp.length + coap.length) + udpProtocol)
        (udp.take 6)) coap := by
  unfold accumulatedSum ipv6HeaderLength
  dsimp only
  rw [List.append_assoc, List.take_left' hipv6, List.drop_left' hipv6, List.length_append,
    List.take_append_of_le_length (by omega), List.drop_left' hudp]

theorem coveredSum_parts :
    coveredSum (ipv6 ++ udp ++ coap) =
      wordSum (wordSum (wordSum 0 (ipv6.drop 8) + (udp.length + coap.length) + udpProtocol) udp)
        coap := by
  unfold coveredSum ipv6HeaderLength
  dsimp only
  rw [List.append_assoc, List.take_left' hipv6, List.drop_left' hipv6, List.length_append,
    wordSum_append (by rw [hudp])]

theorem udpChecksum_eq :
    udpChecksum ipv6 (udp.length + coap.length) (udp ++ coap) =
      checksumOfSum (accumulatedSum (ipv6 ++ udp ++ coap)) := by
  rw [accumulatedSum_parts hipv6 hudp]
  unfold udpChecksum ipv6HeaderLength
  dsimp only
  rw [List.take_of_length_le hipv6.le, List.take_append_of_le_length (by omega),
    List.drop_left' hudp]

theorem wordSum_lt (h : udp.length + coap.length < 65536) {words : List UInt8}
    (hwords : words.length ≤ udp.length) :
    wordSum (wordSum (wordSum 0 (ipv6.drop 8) + (udp.length + coap.length) + udpProtocol) words)
      coap < 2 ^ 32 := by
  have haddresses := wordSum_le 0 (ipv6.drop 8)
  have hudpWords := wordSum_le (wordSum 0 (ipv6.drop 8) + (udp.length + coap.length) + udpProtocol)
    words
  have hcoapWords := wordSum_le (wordSum
    (wordSum 0 (ipv6.drop 8) + (udp.length + coap.length) + udpProtocol) words) coap
  rw [List.length_drop, hipv6] at haddresses
  rw [udpProtocol] at hudpWords hcoapWords ⊢
  omega

theorem coveredSum_fillWord (hzero : wordAt 6 udp = [0, 0]) (hn : n < 65536) :
    coveredSum (ipv6 ++ fillWord 6 n udp ++ coap) = accumulatedSum (ipv6 ++ udp ++ coap) + n := by
  have hfilled : fillWord 6 n udp = udp.take 6 ++ bytesOfNat 2 n := by
    rw [fillWord_of_eq hzero, List.drop_of_length_le (by omega), List.append_nil]
  have hlength := length_fillWord 6 n udp
  have hfront : (udp.take 6).length % 2 = 0 := by
    rw [List.length_take_of_le (by omega)]
  rw [coveredSum_parts hipv6 (hlength.trans hudp), accumulatedSum_parts hipv6 hudp, hlength, hfilled,
    wordSum_append hfront, wordSum_bytesOfNat _ hn, Nat.add_comm _ n, wordSum_add, Nat.add_comm n]

theorem checksum_valid (hzero : wordAt 6 udp = [0, 0]) (h : udp.length + coap.length < 65536)
    {result : List UInt8} (hresult : result = ipv6 ++
      fillWord 6 (udpChecksum ipv6 (udp.length + coap.length) (udp ++ coap)) udp ++ coap) :
    wordAt 46 result ≠ [0, 0] ∧ foldCarries (coveredSum result) = 65535 ∧
      accumulatedSum result < 2 ^ 32 ∧ coveredSum result < 2 ^ 32 := by
  rw [udpChecksum_eq hipv6 hudp] at hresult
  have hlt := checksumOfSum_lt (accumulatedSum (ipv6 ++ udp ++ coap))
  have hpos := checksumOfSum_pos (accumulatedSum (ipv6 ++ udp ++ coap))
  have hsum : accumulatedSum (ipv6 ++ udp ++ coap) < 2 ^ 32 := by
    rw [accumulatedSum_parts hipv6 hudp]
    exact wordSum_lt hipv6 hudp coap h (List.length_take_le' ..)
  have hlength := length_fillWord 6 (checksumOfSum (accumulatedSum (ipv6 ++ udp ++ coap))) udp
  subst hresult
  refine ⟨?_, ?_, ?_, ?_⟩
  · rw [wordAt_udp coap hipv6 (hlength.trans hudp) (show 6 + 2 ≤ 8 by decide)]
    intro hword
    have hnat := natOfBytes_wordAt_fillWord hzero hlt
    rw [hword] at hnat
    exact hpos.ne hnat
  · rw [coveredSum_fillWord hipv6 hudp coap hzero hlt]
    exact foldCarries_add_checksumOfSum hsum
  · rw [accumulatedSum_parts hipv6 (hlength.trans hudp)]
    exact wordSum_lt hipv6 (hlength.trans hudp) coap (hlength ▸ h) (List.length_take_le' ..)
  · rw [coveredSum_parts hipv6 (hlength.trans hudp)]
    exact wordSum_lt hipv6 (hlength.trans hudp) coap (hlength ▸ h) le_rfl

end Parts

end HeaderCompression.Packet
