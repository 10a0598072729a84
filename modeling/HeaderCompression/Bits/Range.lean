import HeaderCompression.Error

namespace HeaderCompression.Bits

/-- The largest position that can be named; a range that ends behind it is reported to end there.
-/
def lastPosition : Nat := UInt64.size - 1

def outOfBounds (start length available : Nat) : Error :=
  .outOfBounds start (min (start + length) lastPosition) available

/-- Bits are counted from the most significant one of the first byte. -/
def range (bytes : List UInt8) (start length : Nat) : Except Error (List Bool) :=
  if start + length ≤ 8 * bytes.length then
    .ok (((bitsOfBytes bytes).drop start).take length)
  else .error (outOfBounds start length (8 * bytes.length))

def overwrite (bytes : List UInt8) (start : Nat) (bits : List Bool) : List UInt8 :=
  let old := bitsOfBytes bytes
  bytesOfBits (old.take start ++ bits ++ old.drop (start + bits.length))

abbrev Edit := EStateM Error (List UInt8) Unit

def read (bytes : List UInt8) (start length : Nat) : Except Error Nat := do
  if length > 32 then throw (.wideWord length)
  return natOfBits (← range bytes start length)

def agree (a : List UInt8) (aStart : Nat) (b : List UInt8) (bStart length : Nat) :
    Except Error Bool := do
  let left ← range a aStart length
  let right ← range b bStart length
  return left == right

/-- Moves bits to the front by `count` places; zeros follow. -/
def shiftedLeft (count : Nat) (bits : List Bool) : List Bool :=
  if bits.length ≤ count then List.replicate bits.length false
  else bits.drop count ++ List.replicate count false

def shiftedRight (count : Nat) (bits : List Bool) : List Bool :=
  if bits.length ≤ count then List.replicate bits.length false
  else List.replicate count false ++ bits.take (bits.length - count)

namespace Edit

def update (start length : Nat) (change : List Bool → List Bool) : Edit := do
  let bits ← ofExcept (range (← get) start length)
  modify fun bytes => overwrite bytes start (change bits)

def set (start length : Nat) : Edit :=
  update start length fun bits => List.replicate bits.length true

def clear (start length : Nat) : Edit :=
  update start length fun bits => List.replicate bits.length false

/-- Sets the bits of a range whose counterparts in the source are set, and leaves the others. -/
def merge (start : Nat) (source : List UInt8) (sourceStart length : Nat) : Edit := do
  let added ← ofExcept (range source sourceStart length)
  update start length fun bits => List.zipWith or bits added

def shiftLeft (start length count : Nat) : Edit :=
  update start length (shiftedLeft count)

def shiftRight (start length count : Nat) : Edit :=
  update start length (shiftedRight count)

/-- What the bytes have become, for callers that drop them after a failure. -/
def result (edit : Edit) (bytes : List UInt8) : Except Error (List UInt8) :=
  match edit bytes with
  | .ok () after => .ok after
  | .error error _ => .error error

end Edit

def update (bytes : List UInt8) (start length : Nat) (change : List Bool → List Bool) :
    Except Error (List UInt8) :=
  (Edit.update start length change).result bytes

def set (bytes : List UInt8) (start length : Nat) : Except Error (List UInt8) :=
  (Edit.set start length).result bytes

def clear (bytes : List UInt8) (start length : Nat) : Except Error (List UInt8) :=
  (Edit.clear start length).result bytes

def merge (bytes : List UInt8) (start : Nat) (source : List UInt8) (sourceStart length : Nat) :
    Except Error (List UInt8) :=
  (Edit.merge start source sourceStart length).result bytes

def shiftLeft (bytes : List UInt8) (start length count : Nat) : Except Error (List UInt8) :=
  (Edit.shiftLeft start length count).result bytes

def shiftRight (bytes : List UInt8) (start length count : Nat) : Except Error (List UInt8) :=
  (Edit.shiftRight start length count).result bytes

theorem shiftedLeft_eq (count : Nat) (bits : List Bool) :
    shiftedLeft count bits = bits.drop count ++ List.replicate (min count bits.length) false := by
  rw [shiftedLeft]
  split
  · rename_i h
    rw [List.drop_eq_nil_of_le h, List.nil_append, Nat.min_eq_right h]
  · rename_i h
    rw [Nat.min_eq_left (Nat.le_of_not_le h)]

theorem shiftedRight_eq (count : Nat) (bits : List Bool) :
    shiftedRight count bits =
      List.replicate (min count bits.length) false ++ bits.take (bits.length - count) := by
  rw [shiftedRight]
  split
  · rename_i h
    rw [Nat.sub_eq_zero_of_le h, List.take_zero, List.append_nil, Nat.min_eq_right h]
  · rename_i h
    rw [Nat.min_eq_left (Nat.le_of_not_le h)]

theorem range_eq_ok_iff {bytes : List UInt8} {start length : Nat} {bits : List Bool} :
    range bytes start length = .ok bits ↔
      start + length ≤ 8 * bytes.length ∧ bits = ((bitsOfBytes bytes).drop start).take length := by
  unfold range
  split
  · rename_i h
    simp only [Except.ok.injEq, h, true_and]
    exact eq_comm
  · rename_i h
    simp [h]

theorem length_of_range {bytes : List UInt8} {start length : Nat} {bits : List Bool}
    (h : range bytes start length = .ok bits) : bits.length = length := by
  obtain ⟨hle, rfl⟩ := range_eq_ok_iff.1 h
  simp
  omega

end HeaderCompression.Bits
