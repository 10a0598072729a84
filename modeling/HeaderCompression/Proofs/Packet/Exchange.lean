import HeaderCompression.Proofs.Header.Exchange
import HeaderCompression.Proofs.Packet.Checksum

namespace HeaderCompression.Packet

variable {packet ipv6 udp xs : List UInt8} {start count position n : Nat} {pending : Pending}

def exchangeEnds (packet : List UInt8) : List UInt8 :=
  exchange 40 2 (exchange 8 16 packet)

theorem exchangeEnds_parts (coap : List UInt8) (hipv6 : ipv6.length = 40) (hudp : udp.length = 8) :
    exchangeEnds (ipv6 ++ udp ++ coap) = exchange 8 16 ipv6 ++ exchange 0 2 udp ++ coap := by
  have hstart : 40 = (exchange 8 16 ipv6).length + 0 := (length_exchange_ipv6 hipv6).symm
  rw [exchangeEnds, List.append_assoc, exchange_append_left _ (by omega), hstart,
    exchange_append_right _ (by simp; omega), exchange_append_left _ (by omega), List.append_assoc]

theorem length_exchangeEnds (h : 48 ≤ packet.length) :
    (exchangeEnds packet).length = packet.length := by
  have hinner : (exchange 8 16 packet).length = packet.length := length_exchange (by omega)
  rw [exchangeEnds, length_exchange (by omega), hinner]

theorem fillWord_exchange_of_lt (hlen : start + 2 * count ≤ xs.length)
    (hposition : position + 2 ≤ start) :
    fillWord position n (exchange start count xs) =
      exchange start count (fillWord position n xs) := by
  have hfront : (xs.take start).length = start := List.length_take_of_le (by omega)
  have hback : 0 + 2 * count ≤ (xs.drop start).length := by simp; omega
  have hright (ys : List UInt8) (hys : ys.length = start) :
      exchange start count (ys ++ xs.drop start) = ys ++ exchange 0 count (xs.drop start) := by
    have hexchange := exchange_append_right ys hback
    rwa [Nat.add_zero, hys] at hexchange
  have hsplit := hright (xs.take start) hfront
  have hfilled := hright (fillWord position n (xs.take start)) ((length_fillWord ..).trans hfront)
  rw [List.take_append_drop] at hsplit
  rw [hsplit, fillWord_append_left (by omega), ← hfilled, ← fillWord_append_left (by omega),
    List.take_append_drop]

theorem fillWord_exchange_of_le (hposition : start + 2 * count ≤ position)
    (hinside : position ≤ xs.length) :
    fillWord position n (exchange start count xs) =
      exchange start count (fillWord position n xs) := by
  have hfront : (xs.take position).length = position := List.length_take_of_le hinside
  have hsame : (exchange start count (xs.take position)).length = position :=
    (length_exchange (by omega)).trans hfront
  have hleft (ys : List UInt8) : exchange start count (xs.take position ++ ys) =
      exchange start count (xs.take position) ++ ys :=
    exchange_append_left ys (by omega)
  have hright (ys : List UInt8) (hys : ys.length = position) :
      fillWord position n (ys ++ xs.drop position) = ys ++ fillWord 0 n (xs.drop position) := by
    have hfill := fillWord_append_right ys (xs.drop position) 0 n
    rwa [Nat.add_zero, hys] at hfill
  have hsplit := hright (xs.take position) hfront
  have hexchanged := hleft (xs.drop position)
  rw [List.take_append_drop] at hsplit hexchanged
  rw [hexchanged, hright _ hsame, hsplit, hleft]

theorem ite_fillWord_exchange {left : Bool}
    (h : fillWord position n (exchange start count xs) =
      exchange start count (fillWord position n xs)) :
    (if left then fillWord position n (exchange start count xs) else exchange start count xs) =
      exchange start count (if left then fillWord position n xs else xs) := by
  cases left with
  | false => rfl
  | true => exact h

theorem wordSum_exchange (hlen : start + 2 * count ≤ xs.length) (hstart : start % 2 = 0)
    (hcount : count % 2 = 0) (sum : Nat) :
    wordSum sum (exchange start count xs) = wordSum sum xs := by
  obtain ⟨front, a, b, back, rfl, rfl, rfl, hb⟩ := exists_parts hlen
  have hswap (sum : Nat) : wordSum (wordSum sum b) a = wordSum (wordSum sum a) b := by
    have hfrom (sum : Nat) (words : List UInt8) : wordSum sum words = sum + wordSum 0 words :=
      wordSum_add sum 0 words
    rw [hfrom (wordSum sum b) a, hfrom sum b, hfrom (wordSum sum a) b, hfrom sum a]
    omega
  rw [exchange_parts rfl rfl hb, wordSum_append (by simp; omega), wordSum_append (by simp; omega),
    wordSum_append (by omega), wordSum_append (by simp; omega), wordSum_append (by simp; omega),
    wordSum_append (by omega), hswap]

theorem wordSum_addresses_exchange (hipv6 : ipv6.length = 40) :
    wordSum 0 ((exchange 8 16 ipv6).drop 8) = wordSum 0 (ipv6.drop 8) := by
  have hfront : (ipv6.take 8).length = 8 := List.length_take_of_le (by omega)
  have haddresses : 0 + 2 * 16 ≤ (ipv6.drop 8).length := by simp [hipv6]
  have hsplit := exchange_append_right (ipv6.take 8) haddresses
  rw [List.take_append_drop, hfront] at hsplit
  rw [hsplit, List.drop_left' hfront, wordSum_exchange haddresses (by decide) (by decide)]

theorem wordSum_ports_exchange (hudp : udp.length = 8) (sum : Nat) :
    wordSum sum ((exchange 0 2 udp).take 6) = wordSum sum (udp.take 6) := by
  have hfront : (udp.take 6).length = 6 := List.length_take_of_le (by omega)
  have hports : 0 + 2 * 2 ≤ (udp.take 6).length := by omega
  have hsplit := exchange_append_left (udp.drop 6) hports
  rw [List.take_append_drop] at hsplit
  rw [hsplit, List.take_left' ((length_exchange hports).trans hfront),
    wordSum_exchange hports (by decide) (by decide)]

/-- The checksum does not tell the source from the destination. -/
theorem udpChecksum_exchange (coap : List UInt8) (hipv6 : ipv6.length = 40)
    (hudp : udp.length = 8) :
    udpChecksum (exchange 8 16 ipv6) (udp.length + coap.length) (exchange 0 2 udp ++ coap) =
      udpChecksum ipv6 (udp.length + coap.length) (udp ++ coap) := by
  have hipv6' := length_exchange_ipv6 hipv6
  have hudp' := length_exchange_udp hudp
  have hsame : udp.length + coap.length = (exchange 0 2 udp).length + coap.length := by
    rw [hudp, hudp']
  rw [udpChecksum_eq hipv6 hudp, accumulatedSum_parts hipv6 hudp, hsame,
    udpChecksum_eq hipv6' hudp', accumulatedSum_parts hipv6' hudp',
    wordSum_addresses_exchange hipv6, wordSum_ports_exchange hudp]

theorem completed_exchange (coap : List UInt8) (hipv6 : ipv6.length = 40) (hudp : udp.length = 8) :
    completed pending (exchange 8 16 ipv6) (exchange 0 2 udp) coap =
      exchangeEnds (completed pending ipv6 udp coap) := by
  have hlength : (exchange 0 2 udp).length = udp.length := length_exchange (by omega)
  unfold completed
  dsimp only
  rw [hlength,
    ite_fillWord_exchange (fillWord_exchange_of_lt (by omega) (by decide)),
    ite_fillWord_exchange (fillWord_exchange_of_le (by decide) (by omega))]
  obtain ⟨front, hfront, hfrontLength⟩ : ∃ front, front = (if pending.length then
      fillWord 4 (udp.length + coap.length) ipv6 else ipv6) ∧ front.length = 40 :=
    ⟨_, rfl, by split <;> simp [hipv6]⟩
  obtain ⟨middle, hmiddle, hmiddleLength⟩ : ∃ middle, middle = (if pending.length then
      fillWord 4 (udp.length + coap.length) udp else udp) ∧ middle.length = 8 :=
    ⟨_, rfl, by split <;> simp [hudp]⟩
  have hsame : udp.length = middle.length := hudp.trans hmiddleLength.symm
  rw [← hfront, ← hmiddle, hsame, udpChecksum_exchange coap hfrontLength hmiddleLength,
    ite_fillWord_exchange (fillWord_exchange_of_le (by decide) (by omega)),
    exchangeEnds_parts coap hfrontLength (by split <;> simp [hmiddleLength])]

theorem wordAt_exchange_of_le (hlen : start + 2 * count ≤ xs.length)
    (hposition : start + 2 * count ≤ position) :
    wordAt position (exchange start count xs) = wordAt position xs := by
  unfold wordAt
  apply List.ext_getElem?
  intro i
  have hindex : exchangedIndex start count (position + i) = position + i := by
    unfold exchangedIndex
    split_ifs <;> omega
  simp only [List.getElem?_take, List.getElem?_drop, getElem?_exchange hlen, hindex]

theorem complete_exchange {coap result : List UInt8} (hipv6 : ipv6.length = 40)
    (hudp : udp.length = 8) (h : complete pending (ipv6 ++ udp ++ coap) = .ok () result) :
    complete pending (exchange 8 16 ipv6 ++ exchange 0 2 udp ++ coap) =
      .ok () (exchangeEnds result) := by
  have hlength : (exchange 0 2 udp).length = udp.length := length_exchange (by omega)
  have hword : wordAt 6 (exchange 0 2 udp) = wordAt 6 udp :=
    wordAt_exchange_of_le (by omega) (by decide)
  obtain ⟨hshort, rfl⟩ := (complete_eq_ok_iff hipv6 hudp).1 h
  rw [complete_eq_ok_iff (length_exchange_ipv6 hipv6) (length_exchange_udp hudp), hword, hlength]
  exact ⟨hshort, (completed_exchange coap hipv6 hudp).symm⟩

end HeaderCompression.Packet
