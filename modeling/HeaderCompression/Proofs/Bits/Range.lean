import HeaderCompression.Bits.Range
import HeaderCompression.Proofs.Bits.Width
import HeaderCompression.Proofs.Outcome

namespace HeaderCompression

variable {bytes source : List UInt8} {start sourceStart length : Nat}
  {change : List Bool → List Bool} {front bits back sourceFront added sourceBack : List Bool}

namespace Bits

/-- The bytes are read before they are written, so that a failure finds them as they were. -/
theorem Edit.update_apply (bytes : List UInt8) (start length : Nat)
    (change : List Bool → List Bool) :
    Edit.update start length change bytes = match range bytes start length with
      | .ok bits => .ok () (overwrite bytes start (change bits))
      | .error error => .error error bytes := by
  change EStateM.bind (ofExcept (range bytes start length)) _ bytes = _
  cases range bytes start length <;> rfl

theorem update_eq (bytes : List UInt8) (start length : Nat) (change : List Bool → List Bool) :
    update bytes start length change = (do
      return overwrite bytes start (change (← range bytes start length))) := by
  rw [update, Edit.result, Edit.update_apply]
  cases range bytes start length <;> rfl

theorem merge_eq (bytes : List UInt8) (start : Nat) (source : List UInt8)
    (sourceStart length : Nat) :
    merge bytes start source sourceStart length = (do
      let added ← range source sourceStart length
      update bytes start length fun bits => List.zipWith or bits added) := by
  rw [merge, Edit.merge]
  cases range source sourceStart length <;> rfl

theorem range_append (h : bitsOfBytes bytes = front ++ bits ++ back) (hstart : start = front.length)
    (hlen : length = bits.length) : range bytes start length = .ok bits := by
  subst hstart hlen
  rw [range_eq_ok_iff, ← length_bitsOfBytes, h]
  simp

theorem getD_splice {full : List Bool} (h : start + bits.length ≤ full.length) (i : Nat) :
    (full.take start ++ bits ++ full.drop (start + bits.length)).getD i false =
      if start ≤ i ∧ i < start + bits.length then bits.getD (i - start) false
      else full.getD i false := by
  have hfront : (full.take start).length = start := by simp; omega
  simp only [List.getD_eq_getElem?_getD, List.append_assoc]
  split
  · rw [List.getElem?_append_right (by omega), hfront, List.getElem?_append_left (by omega)]
  · by_cases hlow : i < start
    · rw [List.getElem?_append_left (by omega), List.getElem?_take_of_lt hlow]
    · rw [List.getElem?_append_right (by omega), List.getElem?_append_right (by omega),
        List.getElem?_drop, hfront]
      congr 2
      omega

theorem bitsOfBytes_overwrite (h : start + bits.length ≤ 8 * bytes.length) :
    bitsOfBytes (overwrite bytes start bits) = (bitsOfBytes bytes).take start ++ bits ++
      (bitsOfBytes bytes).drop (start + bits.length) := by
  refine bitsOfBytes_bytesOfBits_of_dvd ⟨bytes.length, ?_⟩
  simp
  omega

theorem length_overwrite (h : start + bits.length ≤ 8 * bytes.length) :
    (overwrite bytes start bits).length = bytes.length := by
  have hbits := congrArg List.length (bitsOfBytes_overwrite h)
  simp at hbits
  omega

theorem overwrite_append (h : bitsOfBytes bytes = front ++ bits ++ back) {others : List Bool}
    (hlen : others.length = bits.length) :
    overwrite bytes front.length others = bytesOfBits (front ++ others ++ back) := by
  rw [overwrite]
  rw [h, hlen]
  simp

theorem update_append (h : bitsOfBytes bytes = front ++ bits ++ back)
    (hstart : start = front.length)
    (hlen : length = bits.length) (hchange : (change bits).length = bits.length) :
    update bytes start length change = .ok (bytesOfBits (front ++ change bits ++ back)) := by
  rw [update_eq, range_append h hstart hlen, hstart, ← overwrite_append h hchange]
  rfl

theorem clear_append (h : bitsOfBytes bytes = front ++ bits ++ back) (hstart : start = front.length)
    (hlen : length = bits.length) :
    clear bytes start length =
      .ok (bytesOfBits (front ++ List.replicate bits.length false ++ back)) :=
  update_append h hstart hlen (by simp)

theorem merge_append (h : bitsOfBytes bytes = front ++ bits ++ back)
    (hsource : bitsOfBytes source = sourceFront ++ added ++ sourceBack)
    (hstart : start = front.length) (hsourceStart : sourceStart = sourceFront.length)
    (hlen : length = bits.length) (hadded : added.length = bits.length) :
    merge bytes start source sourceStart length =
      .ok (bytesOfBits (front ++ List.zipWith or bits added ++ back)) := by
  rw [merge_eq, range_append hsource hsourceStart (hlen.trans hadded.symm)]
  exact update_append h hstart hlen (by simp [hadded])

theorem agree_append (h : bitsOfBytes bytes = front ++ bits ++ back)
    (hsource : bitsOfBytes source = sourceFront ++ added ++ sourceBack)
    (hstart : start = front.length) (hsourceStart : sourceStart = sourceFront.length)
    (hlen : length = bits.length) (hadded : added.length = bits.length) :
    agree bytes start source sourceStart length = .ok (bits == added) := by
  rw [agree]
  rw [range_append h hstart hlen, range_append hsource hsourceStart (hlen.trans hadded.symm)]
  rfl

theorem length_of_update {result : List UInt8} (h : update bytes start length change = .ok result)
    (hchange : ∀ bits, bits.length = length → (change bits).length = length) :
    result.length = bytes.length := by
  rw [update_eq] at h
  obtain ⟨bits, hbits, h⟩ := bind_eq_ok_iff.1 h
  cases h
  have hlen := hchange bits (length_of_range hbits)
  exact length_overwrite (by rw [hlen]; exact (range_eq_ok_iff.1 hbits).1)

theorem length_of_merge {result : List UInt8}
    (h : merge bytes start source sourceStart length = .ok result) :
    result.length = bytes.length := by
  rw [merge_eq] at h
  obtain ⟨added, hadded, h⟩ := bind_eq_ok_iff.1 h
  apply length_of_update h
  intro bits hbits
  rw [List.length_zipWith, hbits, length_of_range hadded, Nat.min_self]

theorem zipWith_or_replicate_false (bits : List Bool) :
    List.zipWith or (List.replicate bits.length false) bits = bits := by
  induction bits with
  | nil => rfl
  | cons bit bits ih => simp [List.replicate_succ, ih]

end Bits

variable {low : List Bool} {value : List UInt8} {width : Nat}

theorem FitsWidth.clear (h : FitsWidth width value) :
    Bits.clear value 0 (8 * value.length - width) = .ok value := by
  obtain ⟨low, rfl, rfl⟩ := h.exists_low
  have hbits : bitsOfBytes (alignRight low) =
      [] ++ List.replicate (padding low.length) false ++ low := by simp
  have hwidth : 8 * (alignRight low).length - low.length =
      (List.replicate (padding low.length) false).length := by
    rw [h.add_padding]
    simp
  rw [Bits.clear_append hbits List.length_nil.symm hwidth]
  simp [alignRight]

end HeaderCompression
