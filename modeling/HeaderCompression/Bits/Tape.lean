import HeaderCompression.Error

namespace HeaderCompression

structure BitTape where
  bits : List Bool
  head : Nat
  deriving DecidableEq, Repr

namespace BitTape

def empty : BitTape := ⟨[], 0⟩

def ofBytes (bytes : List UInt8) : BitTape :=
  ⟨bitsOfBytes bytes, 0⟩

/-- How many bits are left to read; none if the head was set behind the end. -/
def remaining (tape : BitTape) : Nat :=
  tape.bits.length - tape.head

def byteHead (tape : BitTape) : Nat :=
  bytesFor tape.head

def byteCount (tape : BitTape) : Nat :=
  bytesFor tape.bits.length

def seek (position : Nat) (tape : BitTape) : BitTape :=
  { tape with head := position }

def write (bits : List Bool) (tape : BitTape) : BitTape :=
  { tape with bits := tape.bits ++ bits }

def writeNat (n width : Nat) (tape : BitTape) : BitTape :=
  tape.write (bitsOfNat width n)

def writeBytes (bytes : List UInt8) (tape : BitTape) : BitTape :=
  tape.write (bitsOfBytes bytes)

/-- Appends the last `count` bits of a byte string, or all of them if there are not so many. -/
def writeLowBits (bytes : List UInt8) (count : Nat) (tape : BitTape) : BitTape :=
  tape.write ((bitsOfBytes bytes).drop (8 * bytes.length - count))

def padToByte (tape : BitTape) : BitTape :=
  tape.write (List.replicate (padding tape.bits.length) false)

def toBytes (tape : BitTape) : List UInt8 :=
  bytesOfBits tape.bits

/-- Takes bits off the tape, for a count that can be added to the head in a word. -/
def read (count : Nat) : EStateM Error BitTape (List Bool) := fun tape =>
  if tape.head + count ≤ tape.bits.length then
    .ok ((tape.bits.drop tape.head).take count) (tape.seek (tape.head + count))
  else .error (.exhausted count tape.head tape.remaining) tape

def readNat (width : Nat) : EStateM Error BitTape Nat := do
  if width > 64 then throw (.decompression (.wideRead width))
  return natOfBits (← read width)

def readByte : EStateM Error BitTape Nat :=
  readNat 8

/-- Reads bits into as few bytes as hold them, with the missing bits in front. -/
def readAligned (count : Nat) : EStateM Error BitTape (List UInt8) := do
  return alignRight (← read count)

/-- Whole bytes, as many as a field has: the number of their bits is far below a word. -/
def readWhole (count : Nat) : EStateM Error BitTape (List UInt8) :=
  readAligned (8 * count)

/-- Any number of whole bytes. The number of their bits is kept in a word, where it wraps. -/
def readBytes (count : Nat) : EStateM Error BitTape (List UInt8) :=
  readAligned (8 * count % UInt64.size)

theorem readBytes_eq_readWhole {count : Nat} (h : 8 * count < UInt64.size) :
    readBytes count = readWhole count := by
  rw [readBytes, readWhole, Nat.mod_eq_of_lt h]

def skipToByte : EStateM Error BitTape Unit := do
  discard (read (padding (← get).head))

end BitTape

end HeaderCompression
