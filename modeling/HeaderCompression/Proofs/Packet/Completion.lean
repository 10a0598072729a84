import HeaderCompression.Packet.Completion
import HeaderCompression.Proofs.Bits.Packing
import HeaderCompression.Proofs.Outcome

namespace HeaderCompression.Packet

variable {packet xs ys bytes ipv6 udp coap : List UInt8} {position n : Nat} {pending : Pending}

def wordAt (position : Nat) (bytes : List UInt8) : List UInt8 :=
  (bytes.drop position).take 2

/-- Zeros in the place of two bytes, if these are left to be computed. -/
def blankIf (left : Bool) (position : Nat) (bytes : List UInt8) : List UInt8 :=
  if left then bytes.take position ++ [0, 0] ++ bytes.drop (position + 2) else bytes

theorem fillWord_of_ne (h : wordAt position bytes ≠ [0, 0]) : fillWord position n bytes = bytes :=
  if_neg h

theorem fillWord_of_eq (h : wordAt position bytes = [0, 0]) :
    fillWord position n bytes =
      bytes.take position ++ bytesOfNat 2 n ++ bytes.drop (position + 2) :=
  if_pos h

theorem take_wordAt_drop (position : Nat) (bytes : List UInt8) :
    bytes.take position ++ wordAt position bytes ++ bytes.drop (position + 2) = bytes := by
  rw [wordAt, List.append_assoc, ← List.drop_drop, List.take_append_drop, List.take_append_drop]

theorem fillWord_eq_self_iff (hpos : 0 < n) (hlt : n < 65536) :
    fillWord position n bytes = bytes ↔ wordAt position bytes ≠ [0, 0] := by
  refine ⟨fun hfill hzero => ?_, fillWord_of_ne⟩
  rw [fillWord_of_eq hzero] at hfill
  have hsplit := hfill.trans (take_wordAt_drop position bytes).symm
  rw [List.append_cancel_right_eq, List.append_cancel_left_eq, hzero] at hsplit
  have hn := congrArg natOfBytes hsplit
  have hmod : n % 256 ^ 2 = n := Nat.mod_eq_of_lt hlt
  rw [natOfBytes_bytesOfNat, hmod] at hn
  exact hpos.ne' hn

theorem ite_fillWord_eq_self_iff {left : Bool} (hpos : 0 < n) (hlt : left → n < 65536) :
    (if left then fillWord position n bytes else bytes) = bytes ↔
      ¬ (left ∧ wordAt position bytes = [0, 0]) := by
  cases left with
  | false => simp
  | true => simpa using fillWord_eq_self_iff hpos (hlt rfl)

theorem length_of_wordAt {high low : UInt8} (h : wordAt position bytes = [high, low]) :
    position + 2 ≤ bytes.length := by
  have hlen := congrArg List.length h
  simp only [wordAt, List.length_take, List.length_drop, List.length_cons, List.length_nil] at hlen
  omega

@[simp] theorem length_fillWord (position n : Nat) (bytes : List UInt8) :
    (fillWord position n bytes).length = bytes.length := by
  by_cases h : wordAt position bytes = [0, 0]
  · have := length_of_wordAt h
    rw [fillWord_of_eq h]
    simp
    omega
  · rw [fillWord_of_ne h]

@[simp] theorem length_blankIf (left : Bool) (h : position + 2 ≤ bytes.length) :
    (blankIf left position bytes).length = bytes.length := by
  rw [blankIf]
  split
  · simp
    omega
  · rfl

theorem wordAt_append_left (ys : List UInt8) (h : position + 2 ≤ xs.length) :
    wordAt position (xs ++ ys) = wordAt position xs := by
  unfold wordAt
  rw [List.drop_append_of_le_length (by omega), List.take_append_of_le_length (by simp; omega)]

theorem wordAt_append_right (xs ys : List UInt8) (position : Nat) :
    wordAt (xs.length + position) (xs ++ ys) = wordAt position ys := by
  unfold wordAt
  rw [List.drop_length_add_append]

theorem wordAt_eq_bytesOfNat (h : position + 2 ≤ bytes.length) :
    wordAt position bytes = bytesOfNat 2 (natOfBytes (wordAt position bytes)) := by
  have hlen : (wordAt position bytes).length = 2 := by
    simp [wordAt]
    omega
  rw [← hlen, bytesOfNat_natOfBytes]

theorem natOfBytes_wordAt_lt (position : Nat) (bytes : List UInt8) :
    natOfBytes (wordAt position bytes) < 65536 := by
  have hlen : (wordAt position bytes).length ≤ 2 := by simp [wordAt]
  exact (natOfBytes_lt _).trans_le (Nat.pow_le_pow_right (by decide) hlen)

theorem fillWord_append_left (h : position + 2 ≤ xs.length) :
    fillWord position n (xs ++ ys) = fillWord position n xs ++ ys := by
  have hword := wordAt_append_left ys h
  by_cases hzero : wordAt position xs = [0, 0]
  · rw [fillWord_of_eq hzero, fillWord_of_eq (hword.trans hzero),
      List.take_append_of_le_length (by omega), List.drop_append_of_le_length h]
    simp
  · rw [fillWord_of_ne hzero, fillWord_of_ne (hword ▸ hzero)]

theorem fillWord_append_right (xs ys : List UInt8) (position n : Nat) :
    fillWord (xs.length + position) n (xs ++ ys) = xs ++ fillWord position n ys := by
  have hword := wordAt_append_right xs ys position
  by_cases hzero : wordAt position ys = [0, 0]
  · rw [fillWord_of_eq hzero, fillWord_of_eq (hword.trans hzero), Nat.add_assoc,
      List.take_length_add_append, List.drop_length_add_append]
    simp
  · rw [fillWord_of_ne hzero, fillWord_of_ne (hword ▸ hzero)]

theorem fillWord_blankIf {left : Bool} (hlen : position + 2 ≤ bytes.length)
    (hfilled : left → wordAt position bytes = bytesOfNat 2 n)
    (hkept : left = false → wordAt position bytes ≠ [0, 0]) :
    fillWord position n (blankIf left position bytes) = bytes := by
  cases left with
  | false => exact fillWord_of_ne (hkept rfl)
  | true =>
    have hfront : (bytes.take position).length = position := by simp; omega
    have hblank : blankIf true position bytes =
        bytes.take position ++ ([0, 0] ++ bytes.drop (position + 2)) := List.append_assoc ..
    have hzero : wordAt position (blankIf true position bytes) = [0, 0] := by
      have hword :=
        wordAt_append_right (bytes.take position) ([0, 0] ++ bytes.drop (position + 2)) 0
      rwa [hfront, ← hblank] at hword
    have hback : (blankIf true position bytes).drop (position + 2) = bytes.drop (position + 2) := by
      have hdrop : ((bytes.take position) ++ ([0, 0] ++ bytes.drop (position + 2))).drop
          ((bytes.take position).length + 2) = bytes.drop (position + 2) :=
        List.drop_length_add_append 2
      rwa [hfront, ← hblank] at hdrop
    rw [fillWord_of_eq hzero, ← hfilled rfl, hback, hblank, List.take_left' hfront,
      take_wordAt_drop]

theorem ite_fillWord_blankIf {left filled : Bool} (hlen : position + 2 ≤ bytes.length)
    (hleft : left → filled) (hfilled : left → wordAt position bytes = bytesOfNat 2 n)
    (hkept : filled → left = false → wordAt position bytes ≠ [0, 0]) :
    (if filled then fillWord position n (blankIf left position bytes)
      else blankIf left position bytes) = bytes := by
  cases filled with
  | true => exact fillWord_blankIf hlen hfilled (hkept rfl)
  | false =>
    have hnot : left = false := Bool.eq_false_iff.2 fun h => Bool.false_ne_true (hleft h)
    rw [hnot]
    rfl

section Complete

variable {result : List UInt8}

theorem payloadLength_eq_ok_iff {length : Nat} :
    payloadLength packet = .ok length ↔
      packet.length - 40 < 65536 ∧ length = packet.length - 40 := by
  unfold payloadLength ipv6HeaderLength
  dsimp only
  split
  · rename_i h
    simp [h, eq_comm]
  · rename_i h
    simp [h]

theorem run_requireHeaders (run : List UInt8 → EStateM Error (List UInt8) Unit)
    (packet : List UInt8) :
    (do let packet ← get; ofExcept (requireHeaders packet); run packet) packet =
      if packet.length < 48 then .error (.packet (.shortPacket packet.length)) packet
      else run packet packet := by
  by_cases hshort : packet.length < 48
  · have hrequire : requireHeaders packet = .error (.packet (.shortPacket packet.length)) :=
      if_pos hshort
    rw [if_pos hshort]
    exact run_bind_eq_error_iff.2 (.inr ⟨_, _, rfl, run_bind_eq_error_iff.2
      (.inl (run_ofExcept_eq_error_iff.2 ⟨hrequire, rfl⟩))⟩)
  · have hrequire : requireHeaders packet = .ok () := if_neg hshort
    rw [if_neg hshort]
    change (ofExcept (requireHeaders packet) >>= fun _ => run packet) packet = _
    rw [hrequire]
    rfl

theorem run_payloadLength (run : Nat → EStateM Error (List UInt8) Unit) (packet : List UInt8) :
    (do let length ← ofExcept (payloadLength packet); run length) packet =
      if packet.length - 40 < 65536 then run (packet.length - 40) packet
      else .error (.packet (.largeLength (packet.length - 40))) packet := by
  by_cases hfits : packet.length - 40 < 65536
  · have hlength := payloadLength_eq_ok_iff.2 ⟨hfits, rfl⟩
    rw [if_pos hfits, hlength]
    rfl
  · have hlength : payloadLength packet = .error (.packet (.largeLength (packet.length - 40))) :=
      if_neg hfits
    rw [if_neg hfits, hlength]
    rfl

theorem completeLength_eq_ok_iff (h : 48 ≤ packet.length) :
    completeLength packet = .ok () result ↔ packet.length - 40 < 65536 ∧
      result = fillWord 44 (packet.length - 40) (fillWord 4 (packet.length - 40) packet) := by
  rw [completeLength, run_requireHeaders, if_neg (Nat.not_lt.2 h), run_payloadLength]
  by_cases hfits : packet.length - 40 < 65536
  · rw [if_pos hfits]
    constructor
    · rintro ⟨⟩
      exact ⟨hfits, rfl⟩
    · rintro ⟨-, rfl⟩
      rfl
  · rw [if_neg hfits]
    constructor
    · rintro ⟨⟩
    · rintro ⟨hlt, -⟩
      exact (hfits hlt).elim

theorem completeChecksum_eq_ok_iff (h : 48 ≤ packet.length) :
    completeChecksum packet = .ok () result ↔
      (wordAt 46 packet = [0, 0] → packet.length - 40 < 65536) ∧
      result = fillWord 46 (udpChecksum (packet.take 40) (packet.length - 40) (packet.drop 40))
        packet := by
  rw [completeChecksum, run_requireHeaders, if_neg (Nat.not_lt.2 h)]
  by_cases hzero : (packet.drop 46).take 2 = [0, 0]
  · rw [if_pos hzero, run_payloadLength]
    by_cases hfits : packet.length - 40 < 65536
    · rw [if_pos hfits]
      constructor
      · rintro ⟨⟩
        exact ⟨fun _ => hfits, rfl⟩
      · rintro ⟨-, rfl⟩
        rfl
    · rw [if_neg hfits]
      constructor
      · rintro ⟨⟩
      · rintro ⟨hlt, -⟩
        exact (hfits (hlt hzero)).elim
  · rw [if_neg hzero, fillWord_of_ne hzero]
    constructor
    · rintro ⟨⟩
      exact ⟨fun hword => (hzero hword).elim, rfl⟩
    · rintro ⟨-, rfl⟩
      rfl

def completed (pending : Pending) (ipv6 udp coap : List UInt8) : List UInt8 :=
  let length := udp.length + coap.length
  let ipv6 := if pending.length then fillWord 4 length ipv6 else ipv6
  let udp := if pending.length then fillWord 4 length udp else udp
  let udp := if pending.checksum then
    fillWord 6 (udpChecksum ipv6 length (udp ++ coap)) udp else udp
  ipv6 ++ udp ++ coap

theorem completed_take (hipv6 : ipv6.length = 40) :
    (completed pending ipv6 udp coap).take 40 =
      if pending.length then fillWord 4 (udp.length + coap.length) ipv6 else ipv6 := by
  unfold completed
  dsimp only
  rw [List.append_assoc, List.take_left']
  split <;> simp [hipv6]

theorem completed_drop (hipv6 : ipv6.length = 40) (hudp : udp.length = 8) :
    (completed pending ipv6 udp coap).drop 48 = coap := by
  unfold completed
  dsimp only
  rw [List.drop_left']
  split <;> split <;> simp [hipv6, hudp]

theorem completed_udp (hipv6 : ipv6.length = 40) (hudp : udp.length = 8)
    (hchecksum : pending.checksum = false) :
    ((completed pending ipv6 udp coap).drop 40).take 8 =
      if pending.length then fillWord 4 (udp.length + coap.length) udp else udp := by
  unfold completed
  dsimp only
  rw [hchecksum, if_neg Bool.false_ne_true, List.append_assoc, List.drop_left', List.take_left']
  · split <;> simp [hudp]
  · split <;> simp [hipv6]

theorem fillWord_parts (hipv6 : ipv6.length = 40) (hudp : udp.length = 8) (n : Nat) :
    fillWord 44 n (fillWord 4 n (ipv6 ++ udp ++ coap)) =
      fillWord 4 n ipv6 ++ fillWord 4 n udp ++ coap := by
  have hposition : 44 = (fillWord 4 n ipv6).length + 4 := by simp [hipv6]
  rw [List.append_assoc, fillWord_append_left (by omega), hposition, fillWord_append_right,
    fillWord_append_left (by omega), List.append_assoc]

theorem wordAt_ipv6 (udp coap : List UInt8) (hipv6 : ipv6.length = 40) (h : position + 2 ≤ 40) :
    wordAt position (ipv6 ++ udp ++ coap) = wordAt position ipv6 := by
  rw [List.append_assoc, wordAt_append_left _ (by omega)]

theorem wordAt_udp (coap : List UInt8) (hipv6 : ipv6.length = 40) (hudp : udp.length = 8)
    (h : position + 2 ≤ 8) :
    wordAt (40 + position) (ipv6 ++ udp ++ coap) = wordAt position udp := by
  rw [List.append_assoc, ← hipv6, wordAt_append_right, wordAt_append_left _ (by omega)]

theorem fillWord_checksum (hipv6 : ipv6.length = 40) (hudp : udp.length = 8) (n : Nat) :
    fillWord 46 n (ipv6 ++ udp ++ coap) = ipv6 ++ fillWord 6 n udp ++ coap := by
  have hposition : 46 = ipv6.length + 6 := by omega
  rw [List.append_assoc, hposition, fillWord_append_right, fillWord_append_left (by omega),
    List.append_assoc]

theorem completeLength_parts (hipv6 : ipv6.length = 40) (hudp : udp.length = 8) :
    completeLength (ipv6 ++ udp ++ coap) = .ok () result ↔
      udp.length + coap.length < 65536 ∧ result = fillWord 4 (udp.length + coap.length) ipv6 ++
        fillWord 4 (udp.length + coap.length) udp ++ coap := by
  have hlength : (ipv6 ++ udp ++ coap).length - 40 = udp.length + coap.length := by simp; omega
  rw [completeLength_eq_ok_iff (by simp; omega), hlength, fillWord_parts hipv6 hudp]

theorem completeChecksum_parts (coap result : List UInt8) (hipv6 : ipv6.length = 40)
    (hudp : udp.length = 8) :
    completeChecksum (ipv6 ++ udp ++ coap) = .ok () result ↔
      (wordAt 6 udp = [0, 0] → udp.length + coap.length < 65536) ∧
      result = ipv6 ++
        fillWord 6 (udpChecksum ipv6 (udp.length + coap.length) (udp ++ coap)) udp ++ coap := by
  have hlength : (ipv6 ++ udp ++ coap).length - 40 = udp.length + coap.length := by simp; omega
  have htake : (ipv6 ++ udp ++ coap).take 40 = ipv6 := by
    rw [List.append_assoc, List.take_left' hipv6]
  have hdrop : (ipv6 ++ udp ++ coap).drop 40 = udp ++ coap := by
    rw [List.append_assoc, List.drop_left' hipv6]
  have hword : wordAt 46 (ipv6 ++ udp ++ coap) = wordAt 6 udp :=
    wordAt_udp coap hipv6 hudp (show 6 + 2 ≤ 8 by decide)
  rw [completeChecksum_eq_ok_iff (by simp; omega), hlength, hword, fillWord_checksum hipv6 hudp,
    htake, hdrop]

/-- Completing changes the headers only, each by what is left to be computed in it. -/
theorem complete_eq_ok_iff (hipv6 : ipv6.length = 40) (hudp : udp.length = 8) :
    complete pending (ipv6 ++ udp ++ coap) = .ok () result ↔
      ((pending.length ∨ pending.checksum ∧ wordAt 6 udp = [0, 0]) →
        udp.length + coap.length < 65536) ∧ result = completed pending ipv6 udp coap := by
  obtain ⟨length, checksum⟩ := pending
  cases length with
  | false =>
    cases checksum with
    | false => simp [complete, completed, pure, EStateM.pure, eq_comm]
    | true => simpa [complete, completed] using completeChecksum_parts coap result hipv6 hudp
  | true =>
    cases checksum with
    | false => simpa [complete, completed] using completeLength_parts hipv6 hudp
    | true =>
      have hipv6' : (fillWord 4 (udp.length + coap.length) ipv6).length = 40 := by simpa
      have hudp' : (fillWord 4 (udp.length + coap.length) udp).length = 8 := by simpa
      have hchecksum := completeChecksum_parts coap result hipv6' hudp'
      rw [length_fillWord] at hchecksum
      have hrun : complete ⟨true, true⟩ (ipv6 ++ udp ++ coap) = .ok () result ↔
          ∃ (_ : Unit) (packet : List UInt8), completeLength (ipv6 ++ udp ++ coap) = .ok () packet ∧
            completeChecksum packet = .ok () result := run_bind_eq_ok_iff
      rw [hrun]
      constructor
      · rintro ⟨_, packet, hfirst, hsecond⟩
        obtain ⟨hlt, rfl⟩ := (completeLength_parts hipv6 hudp).1 hfirst
        exact ⟨fun _ => hlt, (hchecksum.1 hsecond).2⟩
      · rintro ⟨hlt, hresult⟩
        have hlt := hlt (.inl rfl)
        exact ⟨(), _, (completeLength_parts hipv6 hudp).2 ⟨hlt, rfl⟩,
          hchecksum.2 ⟨fun _ => hlt, hresult⟩⟩

/-- Where a checksum is only left out if it is zero, packets are completed unless they are too long
for something that is left out. -/
theorem complete_eq_ok_iff_of_zero (hipv6 : ipv6.length = 40) (hudp : udp.length = 8)
    (hzero : pending.checksum → wordAt 6 udp = [0, 0]) :
    complete pending (ipv6 ++ udp ++ coap) = .ok () result ↔
      (pending.length ∨ pending.checksum → 48 + coap.length ≤ 65575) ∧
        result = completed pending ipv6 udp coap := by
  have hleft : (pending.length ∨ pending.checksum ∧ wordAt 6 udp = [0, 0]) ↔
      (pending.length ∨ pending.checksum) :=
    or_congr_right (and_iff_left_of_imp hzero)
  have hlength : udp.length + coap.length < 65536 ↔ 48 + coap.length ≤ 65575 := by omega
  rw [complete_eq_ok_iff hipv6 hudp, hleft, hlength]

theorem wordAt_blankIf_of_le {other : Nat} (left : Bool) (h : position + 2 ≤ other)
    (hlen : other ≤ bytes.length) :
    wordAt position (blankIf left other bytes) = wordAt position bytes := by
  cases left with
  | false => rfl
  | true =>
    have hfront : (bytes.take other).length = other := by simp [hlen]
    have hblank : blankIf true other bytes =
        bytes.take other ++ ([0, 0] ++ bytes.drop (other + 2)) := List.append_assoc ..
    have hwhole := wordAt_append_left (bytes.drop other) (hfront.symm ▸ h)
    rw [List.take_append_drop] at hwhole
    rw [hblank, wordAt_append_left _ (by omega), hwhole]

theorem udpChecksum_blankIf (left : Bool) (hudp : udp.length = 8) (n : Nat) :
    udpChecksum ipv6 n (blankIf left 6 udp ++ coap) = udpChecksum ipv6 n (udp ++ coap) := by
  cases left with
  | false => rfl
  | true =>
    have hfront : (udp.take 6).length = 6 := by simp [hudp]
    have hword : (udp.take 6 ++ [0, 0]).length = 8 := by simp [hudp]
    have hrest : udp.drop (6 + 2) = [] := List.drop_of_length_le (by omega)
    have hblank : blankIf true 6 udp ++ coap = udp.take 6 ++ [0, 0] ++ coap := by
      simp [blankIf, hrest]
    have htake : (blankIf true 6 udp ++ coap).take 6 = (udp ++ coap).take 6 := by
      rw [hblank, List.append_assoc, List.take_left' hfront,
        List.take_append_of_le_length (by omega)]
    have hdrop : (blankIf true 6 udp ++ coap).drop 8 = (udp ++ coap).drop 8 := by
      rw [hblank, List.drop_left' hword, List.drop_left' hudp]
    unfold udpChecksum
    rw [htake, hdrop]

theorem complete_blankIf {ipv6Left udpLeft checksumLeft : Bool} (hipv6 : ipv6.length = 40)
    (hudp : udp.length = 8)
    (hipv6Left : ipv6Left → natOfBytes (wordAt 4 ipv6) = udp.length + coap.length)
    (hudpLeft : udpLeft → natOfBytes (wordAt 4 udp) = udp.length + coap.length)
    (hkept : udpLeft || ipv6Left → wordAt 4 ipv6 ≠ [0, 0] ∧ wordAt 4 udp ≠ [0, 0])
    (hchecksum : checksumLeft → udp.length + coap.length < 65536 ∧ natOfBytes (wordAt 6 udp) =
      udpChecksum ipv6 (udp.length + coap.length) (udp ++ coap)) :
    complete ⟨udpLeft || ipv6Left, checksumLeft⟩
        (blankIf ipv6Left 4 ipv6 ++ blankIf udpLeft 4 (blankIf checksumLeft 6 udp) ++ coap) =
      .ok () (ipv6 ++ udp ++ coap) := by
  have hipv6Length : (blankIf ipv6Left 4 ipv6).length = 40 := by
    rw [length_blankIf _ (by omega), hipv6]
  have hblank : (blankIf checksumLeft 6 udp).length = 8 := by
    rw [length_blankIf _ (by omega), hudp]
  have hudpLength : (blankIf udpLeft 4 (blankIf checksumLeft 6 udp)).length = 8 := by
    rw [length_blankIf _ (by omega), hblank]
  have hword : wordAt 4 (blankIf checksumLeft 6 udp) = wordAt 4 udp :=
    wordAt_blankIf_of_le _ (by decide) (by omega)
  have hipv6Filled : (if udpLeft || ipv6Left then
      fillWord 4 (udp.length + coap.length) (blankIf ipv6Left 4 ipv6) else
        blankIf ipv6Left 4 ipv6) = ipv6 := by
    refine ite_fillWord_blankIf (by omega) (by simp_all) (fun h => ?_) fun h _ => (hkept h).1
    rw [← hipv6Left h, ← wordAt_eq_bytesOfNat (by omega)]
  have hudpFilled : (if udpLeft || ipv6Left then
      fillWord 4 (udp.length + coap.length) (blankIf udpLeft 4 (blankIf checksumLeft 6 udp)) else
        blankIf udpLeft 4 (blankIf checksumLeft 6 udp)) = blankIf checksumLeft 6 udp := by
    refine ite_fillWord_blankIf (by omega) (by simp_all) (fun h => ?_) fun h _ =>
      hword ▸ (hkept h).2
    rw [← hudpLeft h, hword, ← wordAt_eq_bytesOfNat (by omega)]
  have hchecksumFilled : (if checksumLeft then
      fillWord 6 (udpChecksum ipv6 (udp.length + coap.length) (udp ++ coap))
        (blankIf checksumLeft 6 udp) else blankIf checksumLeft 6 udp) = udp := by
    refine ite_fillWord_blankIf (by omega) (fun h => h) (fun h => ?_) (by simp_all)
    rw [← (hchecksum h).2, ← wordAt_eq_bytesOfNat (by omega)]
  rw [complete_eq_ok_iff hipv6Length hudpLength]
  constructor
  · rw [hudpLength, ← hudp]
    rintro (hleft | ⟨hleft, -⟩)
    · rcases Bool.or_eq_true_iff.1 hleft with hleft | hleft
      · exact hudpLeft hleft ▸ natOfBytes_wordAt_lt 4 udp
      · exact hipv6Left hleft ▸ natOfBytes_wordAt_lt 4 ipv6
    · exact (hchecksum hleft).1
  · rw [completed]
    rw [hudpLength, ← hudp]
    dsimp only
    rw [hipv6Filled, hudpFilled, udpChecksum_blankIf _ hudp, hchecksumFilled]

end Complete

end HeaderCompression.Packet
