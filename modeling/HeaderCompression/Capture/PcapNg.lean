import HeaderCompression.Bits.Basic

namespace HeaderCompression.Capture

namespace PcapNg

inductive ByteOrder where
  | big
  | little
  deriving DecidableEq, Repr

def ByteOrder.number : ByteOrder → List UInt8 → Nat
  | big, bytes => natOfBytes bytes
  | little, bytes => natOfBytes bytes.reverse

def word (order : ByteOrder) (position : Nat) (data : List UInt8) : Nat :=
  order.number ((data.drop position).take 4)

/-- Reads the same in both byte orders. -/
def sectionHeader : Nat := 0x0A0D0D0A

def enhancedPacket : Nat := 6

def byteOrderMark : Nat := 0x1A2B3C4D

def sectionOrder? (data : List UInt8) : Option ByteOrder :=
  if word .big 0 data ≠ sectionHeader then none
  else [.big, .little].find? fun order => word order 8 data == byteOrderMark

/-- The frame in an enhanced packet block, which keeps its length at byte 20. -/
def frame (order : ByteOrder) (block : List UInt8) : List UInt8 :=
  ((block.take (block.length - 4)).drop 28).take (word order 20 block)

def minBlockLength : Nat := 12

def blockLength? (order : ByteOrder) (data : List UInt8) : Option Nat :=
  let length := word order 4 data
  if minBlockLength ≤ length ∧ length ≤ data.length then some length else none

theorem blockLength?_pos {order : ByteOrder} {data : List UInt8} {length : Nat}
    (h : blockLength? order data = some length) : 0 < length ∧ length ≤ data.length := by
  unfold blockLength? at h
  obtain ⟨hle, rfl⟩ : _ ∧ word order 4 data = length := by simpa using h
  exact ⟨Nat.lt_of_lt_of_le (by decide) hle.1, hle.2⟩

/-- The frames of the blocks from the front of the data on; a section may change the byte order.
Reading stops at a block that is not there in full. -/
def framesFrom (previous : ByteOrder) (data : List UInt8) : List (List UInt8) :=
  let order := (sectionOrder? data).getD previous
  match _h : blockLength? order data with
  | none => []
  | some length =>
    let frames := framesFrom order (data.drop length)
    if word order 0 data = enhancedPacket then frame order (data.take length) :: frames else frames
termination_by data.length
decreasing_by
  have := blockLength?_pos (by assumption)
  simp only [List.length_drop]
  omega

end PcapNg

inductive Fault where
  /-- The file cannot be read; the operating system's words. -/
  | unreadable (reason : String)
  | noSectionHeader
  deriving DecidableEq, Repr

def load (content : Except String (List UInt8)) : Except Fault (List (List UInt8)) :=
  match content with
  | .error reason => .error (.unreadable reason)
  | .ok data =>
    match PcapNg.sectionOrder? data with
    | none => .error .noSectionHeader
    | some order => .ok (PcapNg.framesFrom order data)

end HeaderCompression.Capture
