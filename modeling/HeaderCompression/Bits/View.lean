import HeaderCompression.Bits.Range

namespace HeaderCompression

structure BitView where
  bytes : List UInt8
  offset : Nat
  length : Nat
  deriving DecidableEq, Repr

namespace BitView

def ofRange (bytes : List UInt8) (offset length : Nat) : Except Error BitView := do
  discard (Bits.range bytes offset length)
  return ⟨bytes, offset, length⟩

def ofBytes (bytes : List UInt8) : BitView :=
  ⟨bytes, 0, 8 * bytes.length⟩

def zeros (length : Nat) : BitView :=
  ⟨List.replicate (bytesFor length) 0, 0, length⟩

/-- The same range of bytes that the view keeps for itself; as bytes are values here, this is the
view again. -/
def owned (view : BitView) : BitView :=
  { view with bytes := view.bytes }

def bits (view : BitView) : List Bool :=
  ((bitsOfBytes view.bytes).drop view.offset).take view.length

def byteCount (view : BitView) : Nat :=
  if view.length = 0 then 0 else bytesFor (view.offset + view.length) - view.offset / 8

def padding (view : BitView) : Nat :=
  HeaderCompression.padding (view.offset + view.length)

/-- Reads bits of the view, for a position and a length whose sum is a word. -/
def read (view : BitView) (position length : Nat) : Except Error Nat :=
  if position + length > view.length then
    .error (.outOfBounds position (position + length) view.length)
  else Bits.read view.bytes (view.offset + position) length

/-- The bits of the view at the front of fresh bytes, zeros behind them. -/
def aligned (view : BitView) : List UInt8 :=
  bytesOfBits view.bits

end BitView

namespace Bits

def Edit.overwriteWith (op : Bool → Bool → Bool) (start : Nat) (a b : BitView) : Edit := do
  if a.length ≠ b.length then throw (.lengthMismatch a.length b.length)
  update start a.length fun _ => List.zipWith op a.bits b.bits

def Edit.writeXor : Nat → BitView → BitView → Edit :=
  overwriteWith xor

def Edit.writeAnd : Nat → BitView → BitView → Edit :=
  overwriteWith and

def overwriteWith (op : Bool → Bool → Bool) (bytes : List UInt8) (start : Nat) (a b : BitView) :
    Except Error (List UInt8) :=
  (Edit.overwriteWith op start a b).result bytes

def writeXor : List UInt8 → Nat → BitView → BitView → Except Error (List UInt8) :=
  overwriteWith xor

def writeAnd : List UInt8 → Nat → BitView → BitView → Except Error (List UInt8) :=
  overwriteWith and

end Bits

end HeaderCompression
