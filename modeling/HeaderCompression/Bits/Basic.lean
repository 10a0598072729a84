namespace HeaderCompression

/-- The lowest `width` bits of a number. -/
def bitsOfNat : Nat → Nat → List Bool
  | 0, _ => []
  | width + 1, n => n.testBit width :: bitsOfNat width n

def natOfBits (bits : List Bool) : Nat :=
  bits.foldl (fun n bit => 2 * n + bit.toNat) 0

def bitsOfBytes (bytes : List UInt8) : List Bool :=
  bytes.flatMap fun byte => bitsOfNat 8 byte.toNat

def byteOfBits (bits : List Bool) : UInt8 :=
  UInt8.ofNat (natOfBits bits)

/-- Packs bits behind the bytes that are `packed` already, the last of them first. -/
def packBits (packed : List UInt8) : List Bool → List UInt8
  | a :: b :: c :: d :: e :: f :: g :: h :: rest =>
    packBits (byteOfBits [a, b, c, d, e, f, g, h] :: packed) rest
  | [] => packed.reverse
  | bits => (byteOfBits (bits ++ List.replicate (8 - bits.length) false) :: packed).reverse

def bytesOfBits (bits : List Bool) : List UInt8 :=
  packBits [] bits

/-- How many bits are missing from `n` bits to a whole number of bytes. -/
def padding (n : Nat) : Nat :=
  (8 - n % 8) % 8

def bytesFor (n : Nat) : Nat :=
  (n + 7) / 8

/-- Bits in as few bytes as hold them, with the missing bits in front. -/
def alignRight (bits : List Bool) : List UInt8 :=
  bytesOfBits (List.replicate (padding bits.length) false ++ bits)

/-- The number that a byte string spells, its first byte the most significant. -/
def natOfBytes (bytes : List UInt8) : Nat :=
  bytes.foldl (fun n byte => 256 * n + byte.toNat) 0

def bytesOfNat : Nat → Nat → List UInt8
  | 0, _ => []
  | count + 1, n => UInt8.ofNat (n >>> (8 * count)) :: bytesOfNat count n

@[simp] theorem length_bitsOfNat (width n : Nat) : (bitsOfNat width n).length = width := by
  induction width with
  | zero => rfl
  | succ width ih => simp [bitsOfNat, ih]

@[simp] theorem bitsOfBytes_nil : bitsOfBytes [] = [] := rfl

@[simp] theorem bitsOfBytes_cons (byte : UInt8) (bytes : List UInt8) :
    bitsOfBytes (byte :: bytes) = bitsOfNat 8 byte.toNat ++ bitsOfBytes bytes := by
  simp [bitsOfBytes]

@[simp] theorem bitsOfBytes_append (xs ys : List UInt8) :
    bitsOfBytes (xs ++ ys) = bitsOfBytes xs ++ bitsOfBytes ys := by
  simp [bitsOfBytes]

@[simp] theorem length_bitsOfBytes (bytes : List UInt8) :
    (bitsOfBytes bytes).length = 8 * bytes.length := by
  induction bytes with
  | nil => rfl
  | cons byte bytes ih => simp [ih]; omega

@[simp] theorem length_bytesOfNat (count n : Nat) : (bytesOfNat count n).length = count := by
  induction count with
  | zero => rfl
  | succ count ih => simp [bytesOfNat, ih]

end HeaderCompression
