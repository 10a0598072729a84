import HeaderCompression.Bits.Range

namespace HeaderCompression

structure Column where
  field : HeaderField
  bits : Nat
  value : List UInt8
  deriving DecidableEq, Repr

namespace Column

def ofNat (field : HeaderField) (bits n : Nat) : Column :=
  ⟨field, bits, bytesOfNat (bytesFor bits) n⟩

/-- Whole bytes. Widths are 16-bit numbers, so more than 8191 bytes are counted wrong. -/
def ofBytes (field : HeaderField) (value : List UInt8) : Column :=
  ⟨field, 8 * value.length % 65536, value⟩

def maxBytes : Nat := 8191

/-- The number in the last 64 bits. -/
def toNat (column : Column) : Nat :=
  natOfBytes (column.value.drop (column.value.length - 8))

/-- The bits of the field, without those that fill up its first byte. -/
def valueBits (column : Column) : List Bool :=
  (bitsOfBytes column.value).drop (8 * column.value.length - column.bits)

def find? (columns : List Column) (field : HeaderField) : Option Column :=
  columns.find? (·.field == field)

/-- Puts the bits of a column into a header, on top of those that are there. -/
def writeInto (header : List UInt8) (position : Nat) (column : Column) :
    Except Error (List UInt8) :=
  Bits.merge header position column.value (8 * column.value.length - column.bits) column.bits

end Column

end HeaderCompression
