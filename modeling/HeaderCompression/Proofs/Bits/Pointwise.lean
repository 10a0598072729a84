import HeaderCompression.Bits.View
import HeaderCompression.Proofs.Bits.Range

namespace HeaderCompression

namespace Bits

variable {α β : Type} {bytes source : List UInt8} {start sourceStart length count : Nat}
  {bits others : List Bool} {f g : Nat → Bool}

def bitAt (bytes : List UInt8) (i : Nat) : Bool :=
  (bytes.getD (i / 8) 0).toNat.testBit (7 - i % 8)

theorem getD_bitsOfNat {width i : Nat} (n : Nat) (h : i < width) :
    (bitsOfNat width n).getD i false = n.testBit (width - 1 - i) := by
  induction width generalizing i with
  | zero => cases h
  | succ width ih =>
    cases i with
    | zero => rfl
    | succ i =>
      rw [bitsOfNat, List.getD_cons_succ, ih (by omega)]
      congr 1
      omega

theorem getD_bitsOfBytes (bytes : List UInt8) (i : Nat) :
    (bitsOfBytes bytes).getD i false = bitAt bytes i := by
  induction bytes generalizing i with
  | nil => simp [bitAt]
  | cons byte bytes ih =>
    rw [bitsOfBytes_cons]
    by_cases h : i < 8
    · rw [List.getD_append _ _ _ _ (by simpa using h), getD_bitsOfNat _ h, bitAt,
        Nat.div_eq_of_lt h, Nat.mod_eq_of_lt h]
      rfl
    · obtain ⟨k, rfl⟩ := Nat.exists_eq_add_of_le (Nat.le_of_not_lt h)
      rw [List.getD_append_right _ _ _ _ (by simp), length_bitsOfNat, Nat.add_sub_cancel_left, ih,
        bitAt, bitAt, Nat.add_mod_left, Nat.add_div_left _ (by decide)]
      rfl

/-- A list of so many bits, the `i`th of which is `f i`. -/
structure Spells (bits : List Bool) (length : Nat) (f : Nat → Bool) : Prop where
  length_eq : bits.length = length
  getD_eq : ∀ i < length, bits.getD i false = f i

namespace Spells

theorem range (h : start + length ≤ 8 * bytes.length) :
    Spells (((bitsOfBytes bytes).drop start).take length) length
      fun i => bitAt bytes (start + i) := by
  refine ⟨by simp; omega, fun i hi => ?_⟩
  rw [← getD_bitsOfBytes, List.getD_eq_getElem?_getD, List.getD_eq_getElem?_getD,
    List.getElem?_take_of_lt hi, List.getElem?_drop]

theorem replicate (length : Nat) (bit : Bool) :
    Spells (List.replicate length bit) length fun _ => bit :=
  ⟨List.length_replicate, fun _ hi => List.getD_replicate _ hi⟩

theorem zipWith (op : Bool → Bool → Bool) (h : Spells bits length f)
    (hothers : Spells others length g) :
    Spells (List.zipWith op bits others) length fun i => op (f i) (g i) := by
  refine ⟨by simp [h.length_eq, hothers.length_eq], fun i hi => ?_⟩
  have hbit := h.getD_eq i hi
  have hother := hothers.getD_eq i hi
  have hlt : i < bits.length := h.length_eq.symm ▸ hi
  have hlt' : i < others.length := hothers.length_eq.symm ▸ hi
  rw [List.getD_eq_getElem _ _ hlt] at hbit
  rw [List.getD_eq_getElem _ _ hlt'] at hother
  rw [List.getD_eq_getElem _ _ (by simp [hlt, hlt']), List.getElem_zipWith, hbit, hother]

theorem shiftedLeft (count : Nat) (h : Spells bits length f) :
    Spells (Bits.shiftedLeft count bits) length
      fun i => decide (i + count < length) && f (i + count) := by
  obtain ⟨rfl, hbits⟩ := h
  rw [Bits.shiftedLeft_eq]
  refine ⟨by simp; omega, fun i hi => ?_⟩
  by_cases hin : i + count < bits.length
  · rw [List.getD_append _ _ _ _ (by simp; omega), decide_eq_true hin, Bool.true_and,
      ← hbits _ hin, List.getD_eq_getElem?_getD, List.getElem?_drop, Nat.add_comm count,
      List.getD_eq_getElem?_getD]
  · rw [List.getD_append_right _ _ _ _ (by simp; omega), List.getD_replicate _ (by simp; omega),
      decide_eq_false hin, Bool.false_and]

theorem shiftedRight (count : Nat) (h : Spells bits length f) :
    Spells (Bits.shiftedRight count bits) length
      fun i => decide (count ≤ i) && f (i - count) := by
  obtain ⟨rfl, hbits⟩ := h
  rw [Bits.shiftedRight_eq]
  refine ⟨by simp; omega, fun i hi => ?_⟩
  by_cases hin : count ≤ i
  · have hcount : min count bits.length = count := Nat.min_eq_left (by omega)
    rw [List.getD_append_right _ _ _ _ (by simp; omega), List.length_replicate, hcount,
      decide_eq_true hin, Bool.true_and, ← hbits _ (by omega), List.getD_eq_getElem?_getD,
      List.getElem?_take_of_lt (by omega), List.getD_eq_getElem?_getD]
  · rw [List.getD_append _ _ _ _ (by simp; omega), List.getD_replicate _ (by omega),
      decide_eq_false hin, Bool.false_and]

theorem testBit_natOfBits (h : Spells bits length f) :
    natOfBits bits < 2 ^ length ∧
      ∀ i < length, (natOfBits bits).testBit (length - 1 - i) = f i := by
  obtain ⟨rfl, hbits⟩ := h
  refine ⟨natOfBits_lt bits, fun i hi => ?_⟩
  rw [← getD_bitsOfNat _ hi, bitsOfNat_natOfBits, hbits i hi]

theorem beq_iff (h : Spells bits length f) (hothers : Spells others length g) :
    (bits == others) = true ↔ ∀ i < length, f i = g i := by
  rw [beq_iff_eq]
  constructor
  · rintro rfl i hi
    rw [← h.getD_eq i hi, ← hothers.getD_eq i hi]
  · intro hsame
    refine List.ext_getElem (h.length_eq.trans hothers.length_eq.symm) fun i hi hi' => ?_
    rw [← List.getD_eq_getElem bits false hi, ← List.getD_eq_getElem others false hi',
      h.getD_eq i (h.length_eq ▸ hi), hothers.getD_eq i (h.length_eq ▸ hi)]
    exact hsame i (h.length_eq ▸ hi)

end Spells

/-- The bytes `after` have the bits of `bytes` but for those of a range, of which the `i`th is
`f i`. -/
structure Rewritten (bytes : List UInt8) (start length : Nat) (f : Nat → Bool)
    (after : List UInt8) : Prop where
  length_eq : after.length = bytes.length
  outside : ∀ i, i < start ∨ start + length ≤ i → bitAt after i = bitAt bytes i
  inside : ∀ i < length, bitAt after (start + i) = f i

theorem rewritten_overwrite (h : start + length ≤ 8 * bytes.length) (hbits : Spells bits length f) :
    Rewritten bytes start length f (overwrite bytes start bits) := by
  obtain ⟨rfl, hbits⟩ := hbits
  refine ⟨length_overwrite h, fun i hi => ?_, fun i hi => ?_⟩
  · rw [← getD_bitsOfBytes, bitsOfBytes_overwrite h, getD_splice (by simpa using h),
      if_neg (by omega), getD_bitsOfBytes]
  · rw [← getD_bitsOfBytes, bitsOfBytes_overwrite h, getD_splice (by simpa using h),
      if_pos (by omega), Nat.add_sub_cancel_left, hbits i hi]

def fault? (bytes : List UInt8) (start length : Nat) : Option Error :=
  if start + length ≤ 8 * bytes.length then none
  else some (outOfBounds start length (8 * bytes.length))

/-- A call fails with the given fault, and without one it gives what is expected. -/
def Answers (fault : Option Error) (expected : α → Prop) (result : Except Error α) : Prop :=
  match fault with
  | some error => result = .error error
  | none => ∃ a, result = .ok a ∧ expected a

/-- A run is refused with the given fault and leaves the bytes as they are. Without one it makes of
them what is expected. -/
def Edit.Makes (edit : Edit) (bytes : List UInt8) (fault : Option Error)
    (expected : List UInt8 → Prop) : Prop :=
  match fault with
  | some error => edit bytes = .error error bytes
  | none => ∃ after, edit bytes = .ok () after ∧ expected after

variable {fault rest : Option Error} {expected : α → Prop} {next : β → Prop}
  {written : List UInt8 → Prop} {result : Except Error α}

theorem Answers.bind {step : α → Except Error β} (h : Answers fault expected result)
    (hstep : ∀ a, expected a → Answers rest next (step a)) :
    Answers (fault <|> rest) next (result >>= step) := by
  cases fault with
  | some error =>
    obtain rfl : result = .error error := h
    exact rfl
  | none =>
    obtain ⟨a, rfl, ha⟩ := h
    exact hstep a ha

theorem Answers.bind_edit {step : α → Edit} (h : Answers fault expected result)
    (hstep : ∀ a, expected a → (step a).Makes bytes rest written) :
    Edit.Makes (ofExcept result >>= step) bytes (fault <|> rest) written := by
  cases fault with
  | some error =>
    obtain rfl : result = .error error := h
    exact rfl
  | none =>
    obtain ⟨a, rfl, ha⟩ := h
    exact hstep a ha

theorem Answers.map {change : α → β} (h : Answers fault expected result)
    (hchange : ∀ a, expected a → next (change a)) :
    Answers fault next (do return change (← result)) := by
  cases fault with
  | some error =>
    obtain rfl : result = .error error := h
    exact rfl
  | none =>
    obtain ⟨a, rfl, ha⟩ := h
    exact ⟨change a, rfl, hchange a ha⟩

theorem Answers.guard (step : Unit → Except Error α) (h : Answers fault expected (step ()))
    (c : Prop) [Decidable c] (error : Error) :
    Answers ((if c then some error else none) <|> fault) expected
      (if c then throw error >>= step else step ()) := by
  by_cases hc : c
  · rw [if_pos hc, if_pos hc]
    exact rfl
  · rw [if_neg hc, if_neg hc]
    exact h

theorem answers_range (bytes : List UInt8) (start length : Nat) :
    Answers (fault? bytes start length)
      (fun bits => start + length ≤ 8 * bytes.length ∧
        Spells bits length fun i => bitAt bytes (start + i)) (range bytes start length) := by
  by_cases h : start + length ≤ 8 * bytes.length
  · rw [fault?, if_pos h, range, if_pos h]
    exact ⟨_, rfl, h, .range h⟩
  · rw [fault?, if_neg h, range, if_neg h]
    exact rfl

theorem makes_update {change : List Bool → List Bool}
    (h : ∀ bits, (Spells bits length fun i => bitAt bytes (start + i)) →
      Spells (change bits) length f) :
    (Edit.update start length change).Makes bytes (fault? bytes start length)
      (Rewritten bytes start length f) := by
  have hedit := Edit.update_apply bytes start length change
  have hrange := answers_range bytes start length
  cases hfault : fault? bytes start length with
  | some error =>
    rw [hfault] at hrange
    obtain hrange : range bytes start length = .error error := hrange
    rw [hrange] at hedit
    exact hedit
  | none =>
    rw [hfault] at hrange
    obtain ⟨bits, hrange, hinside, hbits⟩ := hrange
    rw [hrange] at hedit
    exact ⟨_, hedit, rewritten_overwrite hinside (h bits hbits)⟩

/-- An end that is capped at the last position shows just as well whether a range leaves bytes whose
bits can be numbered. -/
theorem capped_end_iff (h : 8 * bytes.length ≤ lastPosition) (start length : Nat) :
    8 * bytes.length < min (start + length) lastPosition ↔
      fault? bytes start length = some (outOfBounds start length (8 * bytes.length)) := by
  have hlast : lastPosition = 18446744073709551615 := rfl
  have hfault : fault? bytes start length = some (outOfBounds start length (8 * bytes.length)) ↔
      ¬ start + length ≤ 8 * bytes.length := by
    rw [fault?]
    split
    · rename_i hfits
      simp [hfits]
    · rename_i hfits
      simp [hfits]
  rw [hfault]
  omega

def agreeInScratch (a : List UInt8) (aStart : Nat) (b : List UInt8) (bStart length : Nat) :
    Except Error Bool := do
  let left ← merge (List.replicate (bytesFor length) 0) 0 a aStart length
  let right ← merge (List.replicate (bytesFor length) 0) 0 b bStart length
  return left == right

theorem merge_zeros (source : List UInt8) (sourceStart length : Nat) :
    merge (List.replicate (bytesFor length) 0) 0 source sourceStart length = (do
      return bytesOfBits (← range source sourceStart length)) := by
  cases hrange : range source sourceStart length with
  | error error =>
    rw [merge_eq, hrange]
    rfl
  | ok bits =>
    obtain ⟨hle, hbits⟩ := range_eq_ok_iff.1 hrange
    have hlen := length_of_range hrange
    have hzeros : bitsOfBytes (List.replicate (bytesFor length) 0) =
        [] ++ List.replicate length false ++ List.replicate (padding length) false := by
      rw [bitsOfBytes_replicate_zero, List.nil_append, List.replicate_append_replicate,
        add_padding]
    -- What is left of the last byte stays zero, so the bytes are those of the copied bits alone.
    rw [merge_eq, hrange]
    refine (update_append hzeros rfl (by simp) (by simp [hlen])).trans ?_
    rw [← hlen, zipWith_or_replicate_false, List.nil_append, ← bitsOfBytes_bytesOfBits,
      bytesOfBits_bitsOfBytes]
    rfl

theorem bytesOfBits_injective (hlen : bits.length = others.length)
    (h : bytesOfBits bits = bytesOfBits others) : bits = others := by
  have hbits := congrArg bitsOfBytes h
  rw [bitsOfBytes_bytesOfBits, bitsOfBytes_bytesOfBits, hlen] at hbits
  exact List.append_cancel_right hbits

theorem agree_eq_agreeInScratch (a : List UInt8) (aStart : Nat) (b : List UInt8)
    (bStart length : Nat) :
    agree a aStart b bStart length = agreeInScratch a aStart b bStart length := by
  rw [agree, agreeInScratch, merge_zeros, merge_zeros]
  cases hleft : range a aStart length with
  | error error => rfl
  | ok left =>
    cases hright : range b bStart length with
    | error error => rfl
    | ok right =>
      have hlen := (length_of_range hleft).trans (length_of_range hright).symm
      refine congrArg Except.ok (Bool.eq_iff_iff.2 ?_)
      rw [beq_iff_eq, beq_iff_eq]
      exact ⟨congrArg bytesOfBits, bytesOfBits_injective hlen⟩

end Bits

namespace BitView

open Bits

inductive Built : BitView → Prop
  | ofRange {bytes : List UInt8} {offset length : Nat} {view : BitView}
      (h : ofRange bytes offset length = .ok view) : Built view
  | ofBytes (bytes : List UInt8) : Built (ofBytes bytes)
  | zeros (length : Nat) : Built (zeros length)

variable {view : BitView}

theorem Built.inside (h : view.Built) : view.offset + view.length ≤ 8 * view.bytes.length := by
  cases h with
  | ofRange h =>
    obtain ⟨_, hrange, h⟩ := bind_eq_ok_iff.1 h
    obtain ⟨bits, hbits, -⟩ := map_eq_ok_iff.1 hrange
    cases h
    exact (range_eq_ok_iff.1 hbits).1
  | ofBytes bytes => exact (Nat.zero_add _).le
  | zeros length =>
    simp only [BitView.zeros, List.length_replicate, bytesFor]
    omega

theorem Built.bits (h : view.Built) :
    Spells view.bits view.length fun i => bitAt view.bytes (view.offset + i) :=
  .range h.inside

end BitView

namespace Bits

variable {bytes source : List UInt8} {start sourceStart length count : Nat} {a b : BitView}

theorem makes_set : (Edit.set start length).Makes bytes (fault? bytes start length)
    (Rewritten bytes start length fun _ => true) :=
  makes_update fun _ hbits => hbits.length_eq.symm ▸ .replicate length true

theorem makes_clear : (Edit.clear start length).Makes bytes (fault? bytes start length)
    (Rewritten bytes start length fun _ => false) :=
  makes_update fun _ hbits => hbits.length_eq.symm ▸ .replicate length false

theorem makes_merge : (Edit.merge start source sourceStart length).Makes bytes
    (fault? source sourceStart length <|> fault? bytes start length)
    (Rewritten bytes start length
      fun i => bitAt bytes (start + i) || bitAt source (sourceStart + i)) :=
  (answers_range source sourceStart length).bind_edit fun _ hadded =>
    makes_update fun _ hbits => hbits.zipWith or hadded.2

theorem makes_shiftLeft : (Edit.shiftLeft start length count).Makes bytes
    (fault? bytes start length)
    (Rewritten bytes start length
      fun i => decide (i + count < length) && bitAt bytes (start + (i + count))) :=
  makes_update fun _ hbits => hbits.shiftedLeft count

theorem makes_shiftRight : (Edit.shiftRight start length count).Makes bytes
    (fault? bytes start length)
    (Rewritten bytes start length
      fun i => decide (count ≤ i) && bitAt bytes (start + (i - count))) :=
  makes_update fun _ hbits => hbits.shiftedRight count

def mismatch? (a b : BitView) : Option Error :=
  if a.length ≠ b.length then some (.lengthMismatch a.length b.length) else none

theorem makes_overwriteWith (op : Bool → Bool → Bool) (ha : a.Built) (hb : b.Built) :
    (Edit.overwriteWith op start a b).Makes bytes (mismatch? a b <|> fault? bytes start a.length)
      (Rewritten bytes start a.length
        fun i => op (bitAt a.bytes (a.offset + i)) (bitAt b.bytes (b.offset + i))) := by
  by_cases hlen : a.length = b.length
  · have hbits := ha.bits.zipWith op (hlen ▸ hb.bits)
    have hupdate : Edit.Makes _ bytes (fault? bytes start a.length) _ :=
      makes_update fun _ _ => hbits
    rw [mismatch?, if_neg (not_not.2 hlen), Edit.overwriteWith]
    rw [if_neg (not_not.2 hlen)]
    exact hupdate
  · rw [mismatch?, if_pos hlen, Edit.overwriteWith]
    rw [if_pos hlen]
    exact rfl

theorem answers_read : Answers
    ((if length > 32 then some (.wideWord length) else none) <|> fault? bytes start length)
    (fun n => n < 2 ^ length ∧
      ∀ i < length, n.testBit (length - 1 - i) = bitAt bytes (start + i))
    (read bytes start length) :=
  have hrange := (answers_range bytes start length).map fun _ hbits => hbits.2.testBit_natOfBits
  hrange.guard (fun _ => do return natOfBits (← range bytes start length)) _ _

theorem answers_agree : Answers (fault? bytes start length <|> fault? source sourceStart length)
    (fun same => same = true ↔
      ∀ i < length, bitAt bytes (start + i) = bitAt source (sourceStart + i))
    (agree bytes start source sourceStart length) :=
  (answers_range bytes start length).bind fun _ hleft =>
    (answers_range source sourceStart length).map fun _ hright => hleft.2.beq_iff hright.2

/-- Each operation on bit ranges fails exactly if one of its ranges leaves its bytes, two views
differ in length or more than 32 bits are read, the first reason in this order. A failure leaves the
bytes as they were. Otherwise each does what it says bit by bit: it sets, clears, adds the bits of a
source, moves the bits to the front or to the back, writes what two views have not in common or have
in common, reads the number of a range, or compares two ranges, which may be done over copies in
zeroed bytes. -/
theorem operations_pointwise (bytes source : List UInt8) (start sourceStart length count : Nat)
    {a b : BitView} (ha : a.Built) (hb : b.Built) :
    let old := fun i => bitAt bytes (start + i)
    let other := fun i => bitAt source (sourceStart + i)
    let left := fun i => bitAt a.bytes (a.offset + i)
    let right := fun i => bitAt b.bytes (b.offset + i)
    (Edit.set start length).Makes bytes (fault? bytes start length)
        (Rewritten bytes start length fun _ => true) ∧
      (Edit.clear start length).Makes bytes (fault? bytes start length)
        (Rewritten bytes start length fun _ => false) ∧
      (Edit.merge start source sourceStart length).Makes bytes
        (fault? source sourceStart length <|> fault? bytes start length)
        (Rewritten bytes start length fun i => old i || other i) ∧
      (Edit.shiftLeft start length count).Makes bytes (fault? bytes start length)
        (Rewritten bytes start length fun i => decide (i + count < length) && old (i + count)) ∧
      (Edit.shiftRight start length count).Makes bytes (fault? bytes start length)
        (Rewritten bytes start length fun i => decide (count ≤ i) && old (i - count)) ∧
      (Edit.writeXor start a b).Makes bytes (mismatch? a b <|> fault? bytes start a.length)
        (Rewritten bytes start a.length fun i => left i ^^ right i) ∧
      (Edit.writeAnd start a b).Makes bytes (mismatch? a b <|> fault? bytes start a.length)
        (Rewritten bytes start a.length fun i => left i && right i) ∧
      Answers
        ((if length > 32 then some (.wideWord length) else none) <|> fault? bytes start length)
        (fun n => n < 2 ^ length ∧ ∀ i < length, n.testBit (length - 1 - i) = old i)
        (read bytes start length) ∧
      Answers (fault? bytes start length <|> fault? source sourceStart length)
        (fun same => same = true ↔ ∀ i < length, old i = other i)
        (agree bytes start source sourceStart length) ∧
      agree bytes start source sourceStart length =
        agreeInScratch bytes start source sourceStart length ∧
      (8 * bytes.length ≤ lastPosition →
        (8 * bytes.length < min (start + length) lastPosition ↔
          fault? bytes start length = some (outOfBounds start length (8 * bytes.length)))) :=
  ⟨makes_set, makes_clear, makes_merge, makes_shiftLeft, makes_shiftRight,
    makes_overwriteWith xor ha hb, makes_overwriteWith and ha hb, answers_read, answers_agree,
    agree_eq_agreeInScratch .., fun h => capped_end_iff h start length⟩

/-- Two views of eight bits, one of them across two bytes, are combined over eight bits of three
bytes. A range whose end is no word is refused, and the bytes are as they were. -/
theorem operations_pointwise_nibbles :
    let bytes : List UInt8 := [0x12, 0x34, 0xFF]
    let a : BitView := ⟨[0xAB, 0xCD], 3, 8⟩
    let b : BitView := .ofBytes [0x5A]
    a.Built ∧ b.Built ∧ Edit.writeXor 6 a b bytes = .ok () [0x10, 0x10, 0xFF] ∧
      Rewritten bytes 6 8 (fun i => bitAt [0xAB, 0xCD] (3 + i) ^^ bitAt [0x5A] (0 + i))
        [0x10, 0x10, 0xFF] ∧
      Edit.set 6 UInt64.size bytes = .error (.outOfBounds 6 (UInt64.size - 1) 24) bytes := by
  intro bytes a b
  have hview : BitView.ofRange [0xAB, 0xCD] 3 8 = .ok a := rfl
  have ha : a.Built := .ofRange hview
  have hb : b.Built := .ofBytes [0x5A]
  obtain ⟨hset, -, -, -, -, hxor, -⟩ := operations_pointwise bytes bytes 6 0 UInt64.size 0 ha hb
  obtain ⟨after, hafter, hrewritten⟩ := hxor
  have hresult : Edit.writeXor 6 a b bytes = .ok () [0x10, 0x10, 0xFF] := rfl
  rw [hresult] at hafter
  cases hafter
  exact ⟨ha, hb, hresult, hrewritten, hset⟩

end Bits

end HeaderCompression
