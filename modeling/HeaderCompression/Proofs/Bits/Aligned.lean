import HeaderCompression.Proofs.Bits.Pointwise
import Mathlib.Order.Interval.Finset.Nat

namespace HeaderCompression

namespace Bits

theorem bitAt_bytesOfBits (bits : List Bool) (i : Nat) :
    bitAt (bytesOfBits bits) i = bits.getD i false := by
  rw [← getD_bitsOfBytes, bitsOfBytes_bytesOfBits]
  by_cases h : i < bits.length
  · rw [List.getD_append _ _ _ _ h]
  · have hend : bits.length ≤ i := Nat.le_of_not_lt h
    rw [List.getD_append_right _ _ _ _ hend, List.getD_eq_getElem?_getD,
      List.getElem?_getD_replicate_default_eq, List.getD_eq_default _ _ hend]

end Bits

namespace BitView

open Bits

variable {view a b c d : BitView} {position length : Nat}

/-- The views that can be had: those that can be made, and such views over bytes of their own. -/
inductive Obtained : BitView → Prop
  | ofBuilt {view : BitView} (h : view.Built) : Obtained view
  | owned {view : BitView} (h : Obtained view) : Obtained view.owned

theorem Obtained.built (h : view.Obtained) : view.Built := by
  induction h with
  | ofBuilt h => exact h
  | owned _ ih => exact ih

theorem Built.length_bits (h : view.Built) : view.bits.length = view.length :=
  h.bits.length_eq

theorem Built.range_eq (h : view.Built) (hpart : position + length ≤ view.length) :
    Bits.range view.bytes (view.offset + position) length =
      .ok ((view.bits.drop position).take length) := by
  have hinside := h.inside
  rw [range_eq_ok_iff, BitView.bits, List.drop_take, List.drop_drop, List.take_take,
    Nat.min_eq_left (by omega)]
  exact ⟨by omega, rfl⟩

theorem Built.read_eq (h : view.Built) (hpart : position + length ≤ view.length) :
    view.read position length =
      if length > 32 then .error (.wideWord length)
      else .ok (natOfBits ((view.bits.drop position).take length)) := by
  rw [BitView.read, if_neg (Nat.not_lt.2 hpart), Bits.read]
  rw [h.range_eq hpart]
  rfl

theorem overwriteWith_congr (op : Bool → Bool → Bool) (bytes : List UInt8) (start : Nat)
    (hac : a.length = c.length) (hbd : b.length = d.length) (hleft : a.bits = c.bits)
    (hright : b.bits = d.bits) :
    overwriteWith op bytes start a b = overwriteWith op bytes start c d := by
  rw [overwriteWith, overwriteWith, Edit.overwriteWith, Edit.overwriteWith]
  rw [hac, hbd, hleft, hright]

def copied (view : BitView) : BitView :=
  ⟨view.aligned, 0, view.length⟩

theorem Built.length_aligned (h : view.Built) : view.aligned.length = bytesFor view.length := by
  rw [aligned, length_bytesOfBits, h.length_bits]

theorem Built.bitAt_aligned (h : view.Built) {i : Nat} (hi : i < view.length) :
    bitAt view.aligned i = bitAt view.bytes (view.offset + i) := by
  rw [aligned, bitAt_bytesOfBits, h.bits.getD_eq i hi]

theorem Built.bitAt_aligned_of_le (h : view.Built) {i : Nat} (hi : view.length ≤ i) :
    bitAt view.aligned i = false := by
  rw [aligned, bitAt_bytesOfBits, List.getD_eq_default _ _ (h.length_bits.trans_le hi)]

theorem ofRange_aligned (h : view.Built) :
    ofRange view.aligned 0 view.length = .ok view.copied := by
  have hroom : 0 + view.length ≤ 8 * view.aligned.length := by
    rw [h.length_aligned, ← add_padding]
    omega
  rw [ofRange]
  rw [range_eq_ok_iff.2 ⟨hroom, rfl⟩]
  rfl

theorem Built.copied (h : view.Built) : view.copied.Built :=
  .ofRange (ofRange_aligned h)

theorem Built.bits_copied (h : view.Built) : view.copied.bits = view.bits := by
  rw [BitView.bits, BitView.copied, aligned, List.drop_zero, bitsOfBytes_bytesOfBits,
    List.take_left' h.length_bits]

theorem Built.read_aligned (h : view.Built) (hpart : position + length ≤ view.length) :
    Bits.read view.aligned position length = view.read position length := by
  have hcopy : view.copied.read position length = Bits.read view.aligned position length := by
    rw [BitView.copied, BitView.read, if_neg (Nat.not_lt.2 hpart), Nat.zero_add]
  rw [← hcopy, h.copied.read_eq hpart, h.read_eq hpart, h.bits_copied]

theorem Built.overwriteWith_copied (ha : a.Built) (hb : b.Built) (op : Bool → Bool → Bool)
    (bytes : List UInt8) (start : Nat) :
    overwriteWith op bytes start a.copied b.copied = overwriteWith op bytes start a b :=
  overwriteWith_congr op bytes start rfl rfl ha.bits_copied hb.bits_copied

/-- The places of the bytes that hold a bit of the view. -/
def touched (view : BitView) : Finset Nat :=
  (Finset.range view.length).image fun i => (view.offset + i) / 8

theorem touched_eq_Ico (h : view.length ≠ 0) :
    view.touched = Finset.Ico (view.offset / 8) (bytesFor (view.offset + view.length)) := by
  ext k
  simp only [touched, Finset.mem_image, Finset.mem_range, Finset.mem_Ico, bytesFor]
  constructor
  · rintro ⟨i, hi, rfl⟩
    omega
  · rintro ⟨hfirst, hlast⟩
    -- The view holds the first bit of the byte, unless it begins behind this bit.
    exact ⟨max (8 * k) view.offset - view.offset, by omega, by omega⟩

theorem card_touched (view : BitView) : view.touched.card = view.byteCount := by
  rw [byteCount]
  split
  · rename_i hempty
    rw [touched, hempty]
    rfl
  · rename_i hsome
    rw [touched_eq_Ico hsome, Nat.card_Ico]

/-- A view lies in its bytes and counts those that it touches. Its bits are copied in their order to
the front of as few fresh bytes as hold them, with zeros behind them. A part of the view is read as
it is read off the copy, which succeeds up to 32 bits, and two views are combined like the views of
their copies. -/
theorem aligned_interchangeable (ha : a.Obtained) (hb : b.Obtained) :
    a.offset + a.length ≤ 8 * a.bytes.length ∧
      a.byteCount = a.touched.card ∧
      a.aligned.length = bytesFor a.length ∧
      (∀ i < a.length, bitAt a.aligned i = bitAt a.bytes (a.offset + i)) ∧
      (∀ i, a.length ≤ i → bitAt a.aligned i = false) ∧
      (∀ position length, position + length ≤ a.length →
        Bits.read a.aligned position length = a.read position length ∧
          (length ≤ 32 → ∃ n, a.read position length = .ok n)) ∧
      ∃ left right, ofRange a.aligned 0 a.length = .ok left ∧
        ofRange b.aligned 0 b.length = .ok right ∧ ∀ bytes start,
          writeXor bytes start left right = writeXor bytes start a b ∧
            writeAnd bytes start left right = writeAnd bytes start a b := by
  have ha := ha.built
  have hb := hb.built
  refine ⟨ha.inside, a.card_touched.symm, ha.length_aligned, fun i hi => ha.bitAt_aligned hi,
    fun i hi => ha.bitAt_aligned_of_le hi, fun position length hpart => ?read,
    a.copied, b.copied, ofRange_aligned ha, ofRange_aligned hb, fun bytes start => ?write⟩
  case read =>
    refine ⟨ha.read_aligned hpart, fun hword => ?_⟩
    rw [ha.read_eq hpart, if_neg (Nat.not_lt.2 hword)]
    exact ⟨_, rfl⟩
  case write =>
    exact ⟨ha.overwriteWith_copied hb xor bytes start, ha.overwriteWith_copied hb and bytes start⟩

/-- A view of thirteen bits over three bytes, of which eight bits are read across two of them. -/
theorem aligned_interchangeable_across :
    let a : BitView := ⟨[0xAB, 0xCD, 0xEF], 5, 13⟩
    let b : BitView := BitView.zeros 13
    a.owned.Obtained ∧ b.Obtained ∧ a.byteCount = 3 ∧ a.touched.card = 3 ∧
      a.aligned = [0x79, 0xB8] ∧ a.read 3 8 = .ok 0xCD ∧
      Bits.read [0x79, 0xB8] 3 8 = .ok 0xCD ∧
      ∃ left right, ofRange [0x79, 0xB8] 0 13 = .ok left ∧ ofRange [0, 0] 0 13 = .ok right ∧
        writeXor [0xFF, 0xFF] 2 left right = .ok [0xDE, 0x6F] := by
  intro a b
  have hview : ofRange [0xAB, 0xCD, 0xEF] 5 13 = .ok a := rfl
  have ha : a.owned.Obtained := .owned (.ofBuilt (.ofRange hview))
  have hb : b.Obtained := .ofBuilt (.zeros 13)
  obtain ⟨-, hcount, -, -, -, hread, left, right, hleft, hright, hwrite⟩ :=
    aligned_interchangeable ha hb
  have hbytes : a.byteCount = 3 := by decide
  have haligned : a.aligned = [0x79, 0xB8] := by decide
  have hplace : a.read 3 8 = .ok 0xCD := by decide
  refine ⟨ha, hb, hbytes, hcount.symm.trans hbytes, haligned, hplace, ?_, left, right, ?_, ?_, ?_⟩
  · rw [← haligned]
    exact (hread 3 8 (by decide)).1.trans hplace
  · rw [← haligned]
    exact hleft
  · exact hright
  · rw [(hwrite [0xFF, 0xFF] 2).1]
    decide

end BitView

end HeaderCompression
