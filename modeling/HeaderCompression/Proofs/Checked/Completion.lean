import HeaderCompression.Proofs.Checked.Basic
import HeaderCompression.Proofs.Packet.Completion

namespace HeaderCompression.Checked

open Packet

variable {device : Device} {endpoint : Endpoint} {received packet bytes ipv6 udp : List UInt8}
  {limit i stop sum w : Nat} {word : Nat → Run Nat} {skipped : Nat → Bool}

section Sums

def lastWord : Nat := 2 ^ 32 - 1

def wordOf (limit : Nat) (bytes : List UInt8) (i : Nat) : Run Nat := do
  let high ← element bytes i
  let low ← element bytes (← add limit i 1)
  return 256 * high.toNat + low.toNat

def paddedWordOf (limit : Nat) (bytes : List UInt8) (i : Nat) : Run Nat := do
  if (← add limit i 1) < bytes.length then wordOf limit bytes i
  else return 256 * (← element bytes i).toNat

/-- Adds the words at every other place from `i` on, but for those that are skipped. -/
def sumWords (word : Nat → Run Nat) (skipped : Nat → Bool) (stop i sum : Nat) : Run Nat :=
  if i < stop then
    if skipped i then sumWords word skipped stop (i + 2) sum
    else do
      let w ← word i
      sumWords word skipped stop (i + 2) ((sum + w) % 2 ^ 32)
  else return sum
termination_by stop - i

def foldCarries (sum : Nat) : Run Nat :=
  if sum < 65536 then return sum
  else do
    discard (add lastWord (sum % 65536) (sum / 65536))
    foldCarries (sum % 65536 + sum / 65536)
termination_by sum
decreasing_by omega

def udpChecksum (limit : Nat) (ipHeader : List UInt8) (length : Nat) (datagram : List UInt8) :
    Run Nat := do
  let addresses ← sumWords (wordOf limit ipHeader) (fun _ => false) ipv6HeaderLength 8 0
  let start := ((addresses + length) % 2 ^ 32 + udpProtocol) % 2 ^ 32
  let sum ← sumWords (paddedWordOf limit datagram) (· == 6) datagram.length 0 start
  let complement := 65535 - (← foldCarries sum)
  return if complement = 0 then 65535 else complement

theorem sumWords_add (h : i < stop) (hskipped : skipped i = false) (hword : word i = .ok w) :
    sumWords word skipped stop i sum =
      sumWords word skipped stop (i + 2) ((sum + w) % 2 ^ 32) := by
  rw [sumWords, if_pos h, hskipped, if_neg Bool.false_ne_true, hword, ok_bind]

theorem sumWords_skip (h : i < stop) (hskipped : skipped i = true) :
    sumWords word skipped stop i sum = sumWords word skipped stop (i + 2) sum := by
  rw [sumWords, if_pos h, if_pos hskipped]

theorem sumWords_end (h : ¬ i < stop) : sumWords word skipped stop i sum = .ok sum := by
  rw [sumWords, if_neg h]
  rfl

theorem wordOf_eq_ok (h : i + 1 < bytes.length) (hlimit : i + 1 ≤ limit) :
    wordOf limit bytes i = .ok (256 * (bytes.getD i 0).toNat + (bytes.getD (i + 1) 0).toNat) := by
  rw [wordOf, element_eq_ok (Nat.lt_of_succ_lt h) 0, ok_bind, add_eq_ok hlimit, ok_bind,
    element_eq_ok h 0]
  rfl

theorem paddedWordOf_eq_ok (h : i + 1 < bytes.length) (hlimit : i + 1 ≤ limit) :
    paddedWordOf limit bytes i =
      .ok (256 * (bytes.getD i 0).toNat + (bytes.getD (i + 1) 0).toNat) := by
  rw [paddedWordOf, add_eq_ok hlimit, ok_bind, if_pos h, wordOf_eq_ok h hlimit]

theorem paddedWordOf_last (h : i + 1 = bytes.length) (hlimit : i + 1 ≤ limit) :
    paddedWordOf limit bytes i = .ok (256 * (bytes.getD i 0).toNat) := by
  rw [paddedWordOf, add_eq_ok hlimit, ok_bind, if_neg (by omega), element_eq_ok (by omega) 0]
  rfl

theorem drop_eq_getD_cons (h : i < bytes.length) :
    bytes.drop i = bytes.getD i 0 :: bytes.drop (i + 1) := by
  rw [List.drop_eq_getElem_cons h, List.getD_eq_getElem _ _ h]

structure WordsOf (word : Nat → Run Nat) (bytes : List UInt8) : Prop where
  pair : ∀ i, i + 1 < bytes.length →
    word i = .ok (256 * (bytes.getD i 0).toNat + (bytes.getD (i + 1) 0).toNat)
  last : ∀ i, i % 2 = 0 → i + 1 = bytes.length → word i = .ok (256 * (bytes.getD i 0).toNat)

theorem sumWords_eq_ok (hwords : WordsOf word bytes) (heven : i % 2 = 0)
    (hskipped : ∀ j, i ≤ j → skipped j = false) (sum : Nat) :
    sumWords word skipped bytes.length i (sum % 2 ^ 32) =
      .ok (wordSum sum (bytes.drop i) % 2 ^ 32) := by
  induction hleft : bytes.length - i using Nat.strongRecOn generalizing i sum with
  | ind left ih =>
    obtain hend | hone | hmore : bytes.length ≤ i ∨ i + 1 = bytes.length ∨ i + 1 < bytes.length := by
      omega
    · rw [sumWords_end (Nat.not_lt.2 hend), List.drop_of_length_le hend, wordSum]
    · have hdrop : bytes.drop i = [bytes.getD i 0] := by
        rw [drop_eq_getD_cons (by omega), List.drop_of_length_le (by omega)]
      rw [sumWords_add (by omega) (hskipped i le_rfl) (hwords.last i heven hone),
        sumWords_end (by omega), hdrop, wordSum, Nat.mod_add_mod]
    · have hdrop : bytes.drop i =
          bytes.getD i 0 :: bytes.getD (i + 1) 0 :: bytes.drop (i + 2) := by
        rw [drop_eq_getD_cons (by omega), drop_eq_getD_cons hmore]
      have hrest := ih (bytes.length - (i + 2)) (by omega) (show (i + 2) % 2 = 0 by omega)
        (fun j hj => hskipped j (by omega))
        (sum + (256 * (bytes.getD i 0).toNat + (bytes.getD (i + 1) 0).toNat)) rfl
      rw [sumWords_add (by omega) (hskipped i le_rfl) (hwords.pair i hmore), Nat.mod_add_mod, hdrop,
        wordSum, hrest]

theorem wordSum_take_six (h : 6 ≤ bytes.length) (sum : Nat) :
    wordSum sum (bytes.take 6) =
      sum + (256 * (bytes.getD 0 0).toNat + (bytes.getD 1 0).toNat) +
        (256 * (bytes.getD 2 0).toNat + (bytes.getD 3 0).toNat) +
        (256 * (bytes.getD 4 0).toNat + (bytes.getD 5 0).toNat) := by
  match bytes, h with
  | _ :: _ :: _ :: _ :: _ :: _ :: _, _ => rfl

theorem foldCarries_eq_ok (h : sum < 2 ^ 32) :
    foldCarries sum = .ok (Packet.foldCarries sum) := by
  fun_induction Packet.foldCarries sum with
  | case1 sum hsmall =>
    rw [foldCarries, if_pos hsmall]
    rfl
  | case2 sum hlarge ih =>
    have hfits : sum % 65536 + sum / 65536 ≤ lastWord := by
      rw [lastWord]
      omega
    rw [foldCarries, if_neg hlarge, add_eq_ok hfits]
    exact ih (by omega)

/-- The checksum is the plain one, although its sum wraps around at every word. -/
theorem udpChecksum_eq_ok (hipv6 : ipv6.length = 40) (hudp : 8 ≤ udp.length)
    (hlimit : udp.length + 48 ≤ limit) (length : Nat) :
    udpChecksum limit ipv6 length udp = .ok (Packet.udpChecksum ipv6 length udp) := by
  have hfront : WordsOf (wordOf limit ipv6) ipv6 :=
    ⟨fun i h => wordOf_eq_ok h (by omega), fun i heven h => by omega⟩
  have hback : WordsOf (paddedWordOf limit udp) udp :=
    ⟨fun i h => paddedWordOf_eq_ok h (by omega), fun i _ h => paddedWordOf_last h (by omega)⟩
  have haddresses : sumWords (wordOf limit ipv6) (fun _ => false) ipv6.length 8 (0 % 2 ^ 32) =
      .ok (wordSum 0 (ipv6.drop 8) % 2 ^ 32) := sumWords_eq_ok hfront rfl (fun _ _ => rfl) 0
  have hdatagram (sum : Nat) :
      sumWords (paddedWordOf limit udp) (· == 6) udp.length 8 (sum % 2 ^ 32) =
        .ok (wordSum sum (udp.drop 8) % 2 ^ 32) :=
    sumWords_eq_ok hback rfl (fun j hj => beq_eq_false_iff_ne.2 (by omega)) sum
  rw [hipv6, Nat.zero_mod] at haddresses
  rw [udpChecksum, ipv6HeaderLength, haddresses, ok_bind]
  dsimp only
  -- Three words stand in front of the checksum, which is skipped.
  rw [sumWords_add (by omega) rfl (hback.pair 0 (by omega)),
    sumWords_add (by omega) rfl (hback.pair 2 (by omega)),
    sumWords_add (by omega) rfl (hback.pair 4 (by omega)), sumWords_skip (by omega) rfl]
  simp only [Nat.mod_add_mod]
  rw [hdatagram, ok_bind, foldCarries_eq_ok (Nat.mod_lt _ (by decide)), Packet.udpChecksum,
    wordSum_take_six (by omega), ipv6HeaderLength, List.take_of_length_le hipv6.le]
  rfl

end Sums

def shortLength (length : Nat) : Run Nat :=
  if length < 65536 then .ok length else .error (.error (.packet (.largeLength length)))

def fillWord (position n : Nat) (bytes : List UInt8) : Run (List UInt8) := do
  let word ← slice bytes position (position + 2)
  if word = [0, 0] then
    let front ← slice bytes 0 position
    return front ++ bytesOfNat 2 n ++ (← slice bytes (position + 2) bytes.length)
  else return bytes

def splitPacket (packet : List UInt8) : Run (List UInt8 × List UInt8) := do
  let ipv6 ← slice packet 0 ipv6HeaderLength
  return (ipv6, ← slice packet ipv6HeaderLength packet.length)

def completeLength : EStateM Stop (List UInt8) Unit := do
  let packet ← get
  ofExcept (lift (requireHeaders packet))
  let rest ← ofExcept (sub packet.length ipv6HeaderLength)
  let length ← ofExcept (shortLength rest)
  let (ipv6, udp) ← ofExcept (splitPacket packet)
  let ipv6 ← ofExcept (fillWord 4 length ipv6)
  let udp ← ofExcept (fillWord 4 length udp)
  set (ipv6 ++ udp)

def completeChecksum (limit : Nat) : EStateM Stop (List UInt8) Unit := do
  let packet ← get
  ofExcept (lift (requireHeaders packet))
  let (ipv6, udp) ← ofExcept (splitPacket packet)
  let word ← ofExcept (slice udp 6 8)
  if word = [0, 0] then
    let length ← ofExcept (shortLength udp.length)
    let checksum ← ofExcept (udpChecksum limit ipv6 length udp)
    let udp ← ofExcept (fillWord 6 checksum udp)
    set (ipv6 ++ udp)

def complete (limit : Nat) (pending : Pending) : EStateM Stop (List UInt8) Unit := do
  if pending.length then completeLength
  if pending.checksum then completeChecksum limit

theorem shortLength_follows (packet : List UInt8) :
    Follows (Expected device endpoint received) (shortLength (packet.length - ipv6HeaderLength))
      (payloadLength packet) := by
  unfold shortLength payloadLength
  dsimp only
  by_cases h : packet.length - ipv6HeaderLength < 65536
  · rw [if_pos h, if_pos h]
    exact .ok _
  · rw [if_neg h, if_neg h]
    exact .error (.largeLength (by omega))

theorem fillWord_eq_ok {position : Nat} (h : position + 2 ≤ bytes.length) (n : Nat) :
    fillWord position n bytes = .ok (Packet.fillWord position n bytes) := by
  rw [fillWord, slice_eq_ok (Nat.le_add_right ..) h, ok_bind, Nat.add_sub_cancel_left,
    Packet.fillWord]
  by_cases hzero : (bytes.drop position).take 2 = [0, 0]
  · rw [if_pos hzero, if_pos hzero, slice_zero (by omega), ok_bind, slice_length h]
    rfl
  · rw [if_neg hzero, if_neg hzero]
    rfl

theorem splitPacket_eq_ok (h : 40 ≤ packet.length) :
    splitPacket packet = .ok (packet.take 40, packet.drop 40) := by
  rw [splitPacket, ipv6HeaderLength, slice_zero h, ok_bind, slice_length h]
  rfl

theorem fillWord_split (h : 42 ≤ packet.length) (n : Nat) :
    Packet.fillWord 44 n (Packet.fillWord 4 n packet) =
      Packet.fillWord 4 n (packet.take 40) ++ Packet.fillWord 4 n (packet.drop 40) := by
  have hfront : (Packet.fillWord 4 n (packet.take 40)).length = 40 := by simp; omega
  have hposition : 44 = (Packet.fillWord 4 n (packet.take 40)).length + 4 := by omega
  conv_lhs => rw [← List.take_append_drop 40 packet]
  rw [fillWord_append_left (by simp; omega), hposition, fillWord_append_right]

theorem requireHeaders_follows (h : 48 ≤ packet.length) :
    Follows (Expected device endpoint received)
      (outcome ((ofExcept (lift (requireHeaders packet)) : EStateM Stop (List UInt8) Unit) packet))
      (outcome ((ofExcept (requireHeaders packet) : EStateM Error (List UInt8) Unit) packet)) := by
  have hheaders : requireHeaders packet = .ok () := if_neg (Nat.not_lt.2 h)
  rw [hheaders]
  exact .ok _

theorem completeLength_follows (h : 48 ≤ packet.length) :
    Follows (Expected device endpoint received) (outcome (completeLength packet))
      (outcome (Packet.completeLength packet)) := by
  rw [completeLength, Packet.completeLength]
  refine Follows.run_bind (.ok (packet, packet)) fun _ _ hget => ?_
  cases hget
  refine (requireHeaders_follows h).run_bind fun _ _ hrequire => ?_
  obtain ⟨-, rfl⟩ := run_ofExcept_eq_ok_iff.1 hrequire
  rw [ipv6HeaderLength, sub_eq_ok (by omega), ofExcept_ok_bind]
  refine ((shortLength_follows packet).run_ofExcept packet).run_bind fun length _ hlength => ?_
  obtain ⟨-, rfl⟩ := run_ofExcept_eq_ok_iff.1 hlength
  rw [splitPacket_eq_ok (by omega), ofExcept_ok_bind]
  dsimp only
  rw [fillWord_eq_ok (by simp; omega), ofExcept_ok_bind, fillWord_eq_ok (by simp; omega),
    ofExcept_ok_bind, fillWord_split (by omega)]
  exact .ok _

theorem completeChecksum_follows (h : 48 ≤ packet.length) (hlimit : packet.length + 8 ≤ limit) :
    Follows (Expected device endpoint received) (outcome (completeChecksum limit packet))
      (outcome (Packet.completeChecksum packet)) := by
  have hudp : (packet.drop 40).length = packet.length - 40 := List.length_drop
  have hword : ((packet.drop 40).drop 6).take 2 = (packet.drop 46).take 2 := by rw [List.drop_drop]
  rw [completeChecksum, Packet.completeChecksum]
  refine Follows.run_bind (.ok (packet, packet)) fun _ _ hget => ?_
  cases hget
  refine (requireHeaders_follows h).run_bind fun _ _ hrequire => ?_
  obtain ⟨-, rfl⟩ := run_ofExcept_eq_ok_iff.1 hrequire
  rw [splitPacket_eq_ok (by omega), ofExcept_ok_bind]
  dsimp only
  rw [slice_eq_ok (by decide) (by omega), ofExcept_ok_bind, hword]
  by_cases hzero : (packet.drop 46).take 2 = [0, 0]
  · rw [if_pos hzero, if_pos hzero, hudp]
    refine ((shortLength_follows packet).run_ofExcept packet).run_bind fun length _ hlength => ?_
    obtain ⟨-, rfl⟩ := run_ofExcept_eq_ok_iff.1 hlength
    have hposition : 46 = (packet.take 40).length + 6 := by simp; omega
    have hsplit (n : Nat) : Packet.fillWord 46 n packet =
        packet.take 40 ++ Packet.fillWord 6 n (packet.drop 40) := by
      conv_lhs => rw [← List.take_append_drop 40 packet]
      rw [hposition, fillWord_append_right]
    rw [udpChecksum_eq_ok (by simp; omega) (by omega) (by omega), ofExcept_ok_bind,
      fillWord_eq_ok (by omega), ofExcept_ok_bind, ipv6HeaderLength, hsplit]
    exact .ok _
  · rw [if_neg hzero, if_neg hzero]
    exact .ok _

theorem complete_follows (pending : Pending) (h : 48 ≤ packet.length)
    (hlimit : packet.length + 8 ≤ limit) :
    Follows (Expected device endpoint received) (outcome (complete limit pending packet))
      (outcome (Packet.complete pending packet)) := by
  obtain ⟨length, checksum⟩ := pending
  cases length with
  | false =>
    cases checksum with
    | false => exact .ok _
    | true => exact completeChecksum_follows h hlimit
  | true =>
    have hrest (packet' : List UInt8) (hlength : packet'.length = packet.length) :
        Follows (Expected device endpoint received)
          (outcome ((if checksum then completeChecksum limit else pure ()) packet'))
          (outcome ((if checksum then Packet.completeChecksum else pure ()) packet')) := by
      cases checksum with
      | false => exact .ok _
      | true => exact completeChecksum_follows (by omega) (by omega)
    refine (completeLength_follows h).run_bind fun _ packet' hrun => hrest packet' ?_
    obtain ⟨-, rfl⟩ := (completeLength_eq_ok_iff h).1 hrun
    rw [length_fillWord, length_fillWord]

end HeaderCompression.Checked
