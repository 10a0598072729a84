import HeaderCompression.Proofs.Packet.Checksum

namespace HeaderCompression.Packet

variable {packet after bytes : List UInt8} {position n i : Nat} {pending : Pending}

theorem getElem?_fillWord (hi : i ≠ position) (hnext : i ≠ position + 1) :
    (fillWord position n bytes)[i]? = bytes[i]? := by
  by_cases hzero : wordAt position bytes = [0, 0]
  · have hlen := length_of_wordAt hzero
    have hfront : (bytes.take position).length = position := List.length_take_of_le (by omega)
    have hword : (bytes.take position ++ bytesOfNat 2 n).length = position + 2 := by
      rw [List.length_append, hfront, length_bytesOfNat]
    rw [fillWord_of_eq hzero]
    rcases Nat.lt_or_gt_of_ne hi with hlt | hgt
    · rw [List.append_assoc, List.getElem?_append_left (by omega), List.getElem?_take_of_lt hlt]
    · rw [List.getElem?_append_right (by omega), hword, List.getElem?_drop,
        Nat.add_sub_cancel' (by omega)]
  · rw [fillWord_of_ne hzero]

def filledLengths (packet : List UInt8) : List UInt8 :=
  fillWord 44 (packet.length - 40) (fillWord 4 (packet.length - 40) packet)

def filledChecksum (packet : List UInt8) : List UInt8 :=
  fillWord 46 (udpChecksum (packet.take 40) (packet.length - 40) (packet.drop 40)) packet

def filled (pending : Pending) (packet : List UInt8) : List UInt8 :=
  let lengths := if pending.length then filledLengths packet else packet
  if pending.checksum then filledChecksum lengths else lengths

/-- Why a packet cannot be completed: its headers are not all there, or its length does not fit 16
bits though one of the words to be written needs it. -/
def fault? (pending : Pending) (packet : List UInt8) : Option Error :=
  if pending = .none then none
  else if packet.length < 48 then some (.packet (.shortPacket packet.length))
  else if (pending.length ∨ wordAt 46 packet = [0, 0]) ∧ ¬ packet.length - 40 < 65536 then
    some (.packet (.largeLength (packet.length - 40)))
  else none

theorem fault?_of_ne (h : pending ≠ .none) :
    fault? pending packet =
      if packet.length < 48 then some (.packet (.shortPacket packet.length))
      else if (pending.length ∨ wordAt 46 packet = [0, 0]) ∧ ¬ packet.length - 40 < 65536 then
        some (.packet (.largeLength (packet.length - 40)))
      else none :=
  if_neg h

@[simp] theorem length_filledLengths (packet : List UInt8) :
    (filledLengths packet).length = packet.length := by
  rw [filledLengths, length_fillWord, length_fillWord]

theorem wordAt_checksum_filledLengths (packet : List UInt8) :
    wordAt 46 (filledLengths packet) = wordAt 46 packet := by
  rw [filledLengths, wordAt_fillWord (.inr (by decide)), wordAt_fillWord (.inr (by decide))]

theorem completeLength_eq (packet : List UInt8) :
    completeLength packet =
      match fault? ⟨true, false⟩ packet with
      | some error => .error error packet
      | none => .ok () (filledLengths packet) := by
  rw [completeLength, run_requireHeaders, run_payloadLength, fault?_of_ne (by decide)]
  by_cases hshort : packet.length < 48
  · rw [if_pos hshort, if_pos hshort]
  · rw [if_neg hshort, if_neg hshort]
    by_cases hfits : packet.length - 40 < 65536
    · rw [if_pos hfits, if_neg (not_and_not_right.2 fun _ => hfits)]
      rfl
    · rw [if_neg hfits, if_pos ⟨.inl rfl, hfits⟩]

theorem completeChecksum_eq (packet : List UInt8) :
    completeChecksum packet =
      match fault? ⟨false, true⟩ packet with
      | some error => .error error packet
      | none => .ok () (filledChecksum packet) := by
  rw [completeChecksum, run_requireHeaders, fault?_of_ne (by decide)]
  by_cases hshort : packet.length < 48
  · rw [if_pos hshort, if_pos hshort]
  · rw [if_neg hshort, if_neg hshort]
    by_cases hzero : (packet.drop 46).take 2 = [0, 0]
    · rw [if_pos hzero, run_payloadLength]
      by_cases hfits : packet.length - 40 < 65536
      · rw [if_pos hfits, if_neg (not_and_not_right.2 fun _ => hfits)]
        rfl
      · rw [if_neg hfits, if_pos ⟨.inr hzero, hfits⟩]
    · have hkept : filledChecksum packet = packet := fillWord_of_ne hzero
      rw [if_neg hzero, if_neg fun hlarge => hlarge.1.elim Bool.false_ne_true hzero, hkept]
      rfl

theorem fault?_filledLengths (h : fault? ⟨true, false⟩ packet = none) :
    fault? ⟨false, true⟩ (filledLengths packet) = none := by
  rw [fault?_of_ne (by decide)] at h ⊢
  rw [length_filledLengths]
  split at h
  · cases h
  · rename_i hshort
    rw [if_neg hshort]
    split at h
    · cases h
    · rename_i hfits
      rw [if_neg fun hlarge => hfits ⟨.inl rfl, hlarge.2⟩]

/-- The whole run: its fault, with the packet as it was, or the packet with its words filled in. -/
theorem complete_eq (pending : Pending) (packet : List UInt8) :
    complete pending packet =
      match fault? pending packet with
      | some error => .error error packet
      | none => .ok () (filled pending packet) := by
  obtain ⟨length, checksum⟩ := pending
  cases length with
  | false =>
    cases checksum with
    | false => rfl
    | true => exact completeChecksum_eq packet
  | true =>
    have hne (checksum : Bool) : (⟨true, checksum⟩ : Pending) ≠ .none := by simp [Pending.none]
    have hfault : fault? ⟨true, checksum⟩ packet = fault? ⟨true, false⟩ packet :=
      (fault?_of_ne (hne checksum)).trans (fault?_of_ne (hne false)).symm
    have hrun : complete ⟨true, checksum⟩ packet =
        (completeLength >>= fun _ => if checksum then completeChecksum else pure ()) packet := rfl
    have hlengths := completeLength_eq packet
    rw [hrun, hfault]
    cases hlength : fault? ⟨true, false⟩ packet with
    | some error =>
      rw [hlength] at hlengths
      exact run_bind_eq_error_iff.2 (.inl hlengths)
    | none =>
      rw [hlength] at hlengths
      refine run_bind_eq_ok_iff.2 ⟨_, _, hlengths, ?_⟩
      cases checksum with
      | false => rfl
      | true =>
        have hchecksum := completeChecksum_eq (filledLengths packet)
        rw [fault?_filledLengths hlength] at hchecksum
        exact hchecksum

theorem getElem?_filled (pending : Pending) (packet : List UInt8)
    (hi : i ∉ [4, 5, 44, 45, 46, 47]) : (filled pending packet)[i]? = packet[i]? := by
  simp only [List.mem_cons, List.not_mem_nil, or_false, not_or] at hi
  have hlengths : (if pending.length then filledLengths packet else packet)[i]? = packet[i]? := by
    split
    · rw [filledLengths, getElem?_fillWord (by omega) (by omega),
        getElem?_fillWord (by omega) (by omega)]
    · rfl
  rw [filled]
  split
  · rw [filledChecksum, getElem?_fillWord (by omega) (by omega), hlengths]
  · exact hlengths

theorem length_filled (pending : Pending) (packet : List UInt8) :
    (filled pending packet).length = packet.length := by
  rw [filled]
  split <;> split <;> simp [filledChecksum]

theorem wordAt_fillWord_self (position : Nat) (hn : n < 65536) (bytes : List UInt8) :
    if wordAt position bytes = [0, 0] then
      natOfBytes (wordAt position (fillWord position n bytes)) = n
    else wordAt position (fillWord position n bytes) = wordAt position bytes := by
  split
  · rename_i hzero
    exact natOfBytes_wordAt_fillWord hzero hn
  · rename_i hzero
    rw [fillWord_of_ne hzero]

theorem wordAt_fillWord_ne (hpos : 0 < n) (hn : n < 65536) (bytes : List UInt8) :
    wordAt position (fillWord position n bytes) ≠ [0, 0] := by
  by_cases hzero : wordAt position bytes = [0, 0]
  · intro hword
    have hnat := natOfBytes_wordAt_fillWord hzero hn
    rw [hword] at hnat
    exact hpos.ne hnat
  · rwa [fillWord_of_ne hzero]

theorem wordAt_filledLengths (hfits : packet.length - 40 < 65536) (hposition : position ∈ [4, 44]) :
    if wordAt position packet = [0, 0] then
      natOfBytes (wordAt position (filledLengths packet)) = packet.length - 40
    else wordAt position (filledLengths packet) = wordAt position packet := by
  rw [filledLengths]
  simp only [List.mem_cons, List.not_mem_nil, or_false] at hposition
  rcases hposition with rfl | rfl
  · rw [wordAt_fillWord (.inl (by decide))]
    exact wordAt_fillWord_self 4 hfits packet
  · have hword := wordAt_fillWord_self 44 hfits (fillWord 4 (packet.length - 40) packet)
    rwa [wordAt_fillWord (.inr (by decide))] at hword

/-- What completing does to a packet, byte by byte: a word of the three is written if it is left to
be computed and zero, and everything else stays. -/
structure Patched (pending : Pending) (packet after : List UInt8) : Prop where
  length_eq : after.length = packet.length
  kept : ∀ i, i ∉ [4, 5, 44, 45, 46, 47] → after[i]? = packet[i]?
  lengths : ∀ position ∈ [4, 44],
    if pending.length ∧ wordAt position packet = [0, 0] then
      natOfBytes (wordAt position after) = packet.length - 40
    else wordAt position after = wordAt position packet
  checksum :
    if pending.checksum ∧ wordAt 46 packet = [0, 0] then wordAt 46 after ≠ [0, 0]
    else wordAt 46 after = wordAt 46 packet

theorem le_of_fault?_eq_none (h : fault? pending packet = none) (hleft : pending.length) :
    48 ≤ packet.length ∧ packet.length - 40 < 65536 := by
  rw [fault?_of_ne (by rintro rfl; cases hleft)] at h
  split at h
  · cases h
  · rename_i hshort
    split at h
    · cases h
    · rename_i hlarge
      exact ⟨Nat.le_of_not_lt hshort, not_and_not_right.1 hlarge (.inl hleft)⟩

theorem patched_filled (h : fault? pending packet = none) :
    Patched pending packet (filled pending packet) where
  length_eq := length_filled pending packet
  kept _ hi := getElem?_filled pending packet hi
  lengths position hposition := by
    have hword : wordAt position (filled pending packet) =
        wordAt position (if pending.length then filledLengths packet else packet) := by
      have hle : position + 2 ≤ 46 := by
        simp only [List.mem_cons, List.not_mem_nil, or_false] at hposition
        omega
      rw [filled]
      split
      · exact wordAt_fillWord (.inl hle)
      · rfl
    rw [hword]
    cases hleft : pending.length with
    | false => simp
    | true => simpa using wordAt_filledLengths (le_of_fault?_eq_none h hleft).2 hposition
  checksum := by
    have hword : wordAt 46 (if pending.length then filledLengths packet else packet) =
        wordAt 46 packet := by
      split
      · exact wordAt_checksum_filledLengths packet
      · rfl
    rw [filled, ← hword]
    generalize (if pending.length then filledLengths packet else packet) = lengths
    cases hleft : pending.checksum with
    | false => simp
    | true =>
      by_cases hzero : wordAt 46 lengths = [0, 0]
      · rw [if_pos ⟨rfl, hzero⟩, if_pos rfl]
        exact wordAt_fillWord_ne (checksumOfSum_pos _) (checksumOfSum_lt _) lengths
      · rw [if_neg fun hboth => hzero hboth.2, if_pos rfl, filledChecksum, fillWord_of_ne hzero]

namespace Patched

variable (hpatched : Patched pending packet after) (h : fault? pending packet = none)

include hpatched

theorem wordAt_checksum_eq (hzero : wordAt 46 after = [0, 0]) : wordAt 46 packet = [0, 0] := by
  have hchecksum := hpatched.checksum
  split at hchecksum
  · exact (hchecksum hzero).elim
  · exact hchecksum ▸ hzero

include h

theorem wordAt_length_ne (hleft : pending.length) (hposition : position ∈ [4, 44]) :
    wordAt position after ≠ [0, 0] := by
  have hword := hpatched.lengths position hposition
  have hlength := (le_of_fault?_eq_none h hleft).1
  split at hword
  · intro hzero
    rw [hzero] at hword
    change 0 = _ at hword
    omega
  · rename_i hzero
    rw [hword]
    exact fun hsame => hzero ⟨hleft, hsame⟩

theorem fault?_eq_none : fault? pending after = none := by
  rw [fault?] at h ⊢
  rw [hpatched.length_eq]
  split at h
  · rw [if_pos ‹_›]
  · rw [if_neg ‹_›]
    split at h
    · cases h
    · rw [if_neg ‹_›]
      split at h
      · cases h
      · rename_i hlarge
        exact if_neg fun hafter => hlarge ⟨hafter.1.imp_right hpatched.wordAt_checksum_eq, hafter.2⟩

theorem filled_eq : filled pending after = after := by
  have hlengths : (if pending.length then filledLengths after else after) = after := by
    split
    · rename_i hleft
      rw [filledLengths, fillWord_of_ne (hpatched.wordAt_length_ne h hleft (by decide)),
        fillWord_of_ne (hpatched.wordAt_length_ne h hleft (by decide))]
    · rfl
  rw [filled]
  rw [hlengths]
  split
  · rename_i hleft
    apply fillWord_of_ne
    intro hzero
    have hchecksum := hpatched.checksum
    rw [if_pos ⟨hleft, hpatched.wordAt_checksum_eq hzero⟩] at hchecksum
    exact hchecksum hzero
  · rfl

end Patched

/-- Completing a packet is atomic: where it fails, for a reason that can be read off the packet, the
packet is as it was. Where it succeeds, only the words that are left to be computed and zero have
changed, and completing the packet again changes nothing. -/
theorem complete_atomic (pending : Pending) (packet : List UInt8) :
    match complete pending packet with
    | .error error after => fault? pending packet = some error ∧ after = packet
    | .ok () after =>
      fault? pending packet = none ∧ Patched pending packet after ∧
        complete pending after = .ok () after := by
  rw [complete_eq]
  cases h : fault? pending packet with
  | some error => exact ⟨rfl, rfl⟩
  | none =>
    have hpatched := patched_filled h
    refine ⟨rfl, hpatched, ?_⟩
    rw [complete_eq, hpatched.fault?_eq_none h, hpatched.filled_eq h]

end HeaderCompression.Packet
