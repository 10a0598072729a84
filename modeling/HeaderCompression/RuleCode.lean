import HeaderCompression.Bits.Basic

namespace HeaderCompression

structure RuleCode where
  id : Nat
  length : Nat
  deriving DecidableEq, Repr

namespace RuleCode

def value (code : RuleCode) : Nat :=
  code.id % (1 <<< code.length)

def maxId (code : RuleCode) : Nat :=
  (1 <<< code.length) - 1

def bits (code : RuleCode) : List Bool :=
  bitsOfNat code.length code.id

/-- The code filled up with zeros to whole bytes. -/
def bytes (code : RuleCode) : List UInt8 :=
  bytesOfBits code.bits

/-- Whether the shorter of two codes is the front of the longer one. -/
def overlaps (a b : RuleCode) : Bool :=
  let (short, long) := if a.length ≤ b.length then (a, b) else (b, a)
  long.value >>> (long.length - short.length) == short.value

def leads (code : RuleCode) (data : List Bool) : Bool :=
  code.length ≤ 64 && code.length ≤ data.length &&
    natOfBits (data.take code.length) == code.value

def text (code : RuleCode) : String :=
  s!"{code.id}/{code.length}"

end RuleCode

end HeaderCompression
