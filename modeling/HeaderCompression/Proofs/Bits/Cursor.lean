import HeaderCompression.Bits.Tape
import HeaderCompression.Proofs.Bits.Width
import HeaderCompression.Proofs.Outcome

namespace HeaderCompression.BitTape

inductive Reading where
  | number (width : Nat)
  | byte
  | aligned (count : Nat)
  | bytes (count : Nat)
  | skip
  deriving DecidableEq, Repr

inductive ReadValue where
  | nothing
  | number (n : Nat)
  | bytes (bytes : List UInt8)
  deriving DecidableEq, Repr

namespace Reading

def run : Reading → EStateM Error BitTape ReadValue
  | number width => return .number (← readNat width)
  | byte => return .number (← readByte)
  | aligned count => return .bytes (← readAligned count)
  | bytes count => return .bytes (← readBytes count)
  | skip => do
    skipToByte
    return .nothing

def after (tape : BitTape) (reading : Reading) : BitTape :=
  match reading.run tape with
  | .ok _ tape | .error _ tape => tape

/-- How many bits a reading is to take if the head stands at `position`. -/
def asked (position : Nat) : Reading → Nat
  | number width => width
  | byte => 8
  | aligned count => count
  | bytes count => 8 * count
  | skip => padding position

/-- How many bits a reading takes: the bits of whole bytes are counted in a word. -/
def size (position : Nat) : Reading → Nat
  | bytes count => 8 * count % UInt64.size
  | reading => reading.asked position

def value (bits : List Bool) : Reading → ReadValue
  | number _ | byte => .number (natOfBits bits)
  | aligned _ | bytes _ => .bytes (bytesOfNat (bytesFor bits.length) (natOfBits bits))
  | skip => .nothing

def tooWide? : Reading → Option Error
  | number width => if width > 64 then some (.decompression (.wideRead width)) else none
  | _ => none

def failure? (tape : BitTape) (reading : Reading) : Option Error :=
  let size := reading.size tape.head
  reading.tooWide? <|>
    if tape.head + size ≤ tape.bits.length then none
    else some (.exhausted size tape.head tape.remaining)

def outcome (tape : BitTape) (reading : Reading) : EStateM.Result Error BitTape ReadValue :=
  let size := reading.size tape.head
  match reading.failure? tape with
  | some error => .error error tape
  | none =>
    .ok (reading.value ((tape.bits.drop tape.head).take size)) (tape.seek (tape.head + size))

theorem bind_read_eq (reading : Reading) (tape : BitTape) {next : List Bool → ReadValue}
    (hwide : reading.tooWide? = none) (hvalue : ∀ bits, next bits = reading.value bits) :
    (do return next (← read (reading.size tape.head)) : EStateM Error BitTape ReadValue) tape =
      reading.outcome tape := by
  change EStateM.bind (read (reading.size tape.head)) _ tape = _
  rw [EStateM.bind, read, outcome, failure?, hwide]
  by_cases hroom : tape.head + reading.size tape.head ≤ tape.bits.length
  · simp only [hroom, if_true, hvalue]
    rfl
  · simp only [hroom, if_false]
    rfl

theorem run_skip (tape : BitTape) :
    skip.run tape = (do
      let _ ← read (padding tape.head)
      return .nothing : EStateM Error BitTape ReadValue) tape := by
  change EStateM.bind (discard (read (padding tape.head))) _ tape =
    EStateM.bind (read (padding tape.head)) _ tape
  rw [EStateM.bind, EStateM.bind, discard]
  cases hread : read (padding tape.head) tape <;> simp [Functor.mapConst, EStateM.map, hread]

theorem run_eq (reading : Reading) (tape : BitTape) : reading.run tape = reading.outcome tape := by
  have haligned (bits : List Bool) : ReadValue.bytes (alignRight bits) =
      .bytes (bytesOfNat (bytesFor bits.length) (natOfBits bits)) :=
    congrArg ReadValue.bytes (bytesOfNat_natOfBits bits).symm
  cases reading with
  | number width =>
    by_cases hwide : width > 64
    · rw [outcome, failure?, tooWide?, if_pos hwide, run, readNat]
      rw [if_pos hwide]
      rfl
    · rw [← bind_read_eq (number width) tape (if_neg hwide) fun _ => rfl, run, readNat]
      rw [if_neg hwide]
      simp only [bind_assoc, pure_bind]
      rfl
  | byte =>
    rw [← bind_read_eq byte tape rfl fun _ => rfl, run, readByte, readNat]
    simp [size, asked, value]
  | aligned count =>
    rw [← bind_read_eq (aligned count) tape rfl haligned, run, readAligned]
    simp only [bind_assoc, pure_bind, size, asked]
  | bytes count =>
    rw [← bind_read_eq (bytes count) tape rfl haligned, run, readBytes, readAligned]
    simp only [bind_assoc, pure_bind, size]
  | skip => exact (run_skip tape).trans (bind_read_eq skip tape rfl fun _ => rfl)

theorem room_of_failure? {reading : Reading} {tape : BitTape} (h : reading.failure? tape = none) :
    tape.head + reading.size tape.head ≤ tape.bits.length := by
  by_contra hroom
  rw [failure?, if_neg hroom] at h
  cases htoo : reading.tooWide? <;> simp [htoo] at h

theorem tooWide?_of_failure? {reading : Reading} {tape : BitTape}
    (h : reading.failure? tape = none) : reading.tooWide? = none := by
  rw [failure?] at h
  cases htoo : reading.tooWide? <;> simp [htoo] at h ⊢

theorem after_eq (tape : BitTape) (reading : Reading) :
    reading.after tape = match reading.failure? tape with
      | some _ => tape
      | none => tape.seek (tape.head + reading.size tape.head) := by
  rw [after, run_eq, outcome]
  cases reading.failure? tape <;> rfl

/-- The head behind a reading is a word. What is too wide is refused before the head is looked
at. -/
def EndsInWord (tape : BitTape) (reading : Reading) : Prop :=
  reading.tooWide? = none → tape.head + reading.size tape.head < UInt64.size

/-- What a reading promises: it gives the bits behind the head, as many as it is asked for, and
moves the head over them, or it fails and changes nothing. -/
def Honoured (tape : BitTape) (reading : Reading) : Prop :=
  match reading.run tape with
  | .error _ after => after = tape
  | .ok value after =>
    let asked := reading.asked tape.head
    tape.head + asked ≤ tape.bits.length ∧
      value = reading.value ((tape.bits.drop tape.head).take asked) ∧
      after = tape.seek (tape.head + asked)

theorem size_eq_asked {position : Nat} {reading : Reading}
    (h : reading.asked position < UInt64.size) :
    reading.size position = reading.asked position := by
  cases reading with
  | bytes count => exact Nat.mod_eq_of_lt h
  | _ => rfl

theorem honoured_iff {tape : BitTape} {reading : Reading} (hword : reading.EndsInWord tape) :
    reading.Honoured tape ↔
      reading.asked tape.head < UInt64.size ∨ reading.failure? tape ≠ none := by
  rw [Honoured, run_eq, outcome]
  cases hfailure : reading.failure? tape with
  | some error => simp
  | none =>
    have hsize := hword (tooWide?_of_failure? hfailure)
    constructor
    · rintro ⟨-, -, hafter⟩
      have hhead := congrArg head hafter
      simp only [seek] at hhead
      exact .inl (by omega)
    · rintro (hasked | hfails)
      · have hroom := room_of_failure? hfailure
        rw [size_eq_asked hasked] at hroom ⊢
        exact ⟨hroom, rfl, rfl⟩
      · exact (hfails rfl).elim

/-- The tapes that readings lead to from the start of some bits, the ones that fail among them. -/
inductive Reached (bits : List Bool) : BitTape → Prop
  | start : Reached bits ⟨bits, 0⟩
  | after {tape : BitTape} {reading : Reading} (h : Reached bits tape)
      (hword : reading.EndsInWord tape) : Reached bits (reading.after tape)

theorem Reached.bits_eq {bits : List Bool} {tape : BitTape} (h : Reached bits tape) :
    tape.bits = bits := by
  induction h with
  | start => rfl
  | @after tape reading _ _ ih =>
    rw [after_eq]
    cases reading.failure? tape <;> exact ih

theorem Reached.head_le {bits : List Bool} {tape : BitTape} (h : Reached bits tape) :
    tape.head ≤ bits.length := by
  induction h with
  | start => exact Nat.zero_le _
  | @after tape reading htape _ ih =>
    rw [after_eq]
    cases hfailure : reading.failure? tape with
    | some error => exact ih
    | none => exact htape.bits_eq ▸ room_of_failure? hfailure

end Reading

/-- What is written in one call: a number in 64 bits at most, a byte, the low bits of a byte string,
whole bytes whose bits can be counted, or zeros up to the next byte. -/
inductive Piece where
  | number (n : UInt64) {width : Nat} (h : width ≤ 64)
  | byte (byte : UInt8)
  | lowBits (bytes : List UInt8) {count : Nat} (h : count ≤ 8 * bytes.length)
  | bytes (bytes : List UInt8) (h : 8 * bytes.length < UInt64.size)
  | padding

namespace Piece

def write (tape : BitTape) : Piece → BitTape
  | @number n width _ => tape.writeNat n.toNat width
  | byte b => tape.writeBytes [b]
  | @lowBits bs count _ => tape.writeLowBits bs count
  | bytes bs _ => tape.writeBytes bs
  | padding => tape.padToByte

def reading : Piece → Reading
  | @number _ width _ => .number width
  | byte _ => .byte
  | @lowBits _ count _ => .aligned count
  | bytes bs _ => .bytes bs.length
  | padding => .skip

/-- What is read back of a piece: a number modulo the width that it was written in, low bits as the
number that they spell, in as few bytes as hold them. -/
def value : Piece → ReadValue
  | @number n width _ => .number (n.toNat % 2 ^ width)
  | byte b => .number b.toNat
  | @lowBits bs count _ => .bytes (bytesOfNat (bytesFor count) (natOfBytes bs % 2 ^ count))
  | bytes bs _ => .bytes bs
  | padding => .nothing

def bits (position : Nat) : Piece → List Bool
  | @number n width _ => bitsOfNat width n.toNat
  | byte b => bitsOfBytes [b]
  | @lowBits bs count _ => (bitsOfBytes bs).drop (8 * bs.length - count)
  | bytes bs _ => bitsOfBytes bs
  | padding => List.replicate (HeaderCompression.padding position) false

theorem write_eq (piece : Piece) (tape : BitTape) :
    piece.write tape = tape.write (piece.bits tape.bits.length) := by
  cases piece <;> rfl

theorem length_bits (piece : Piece) (position : Nat) :
    (piece.bits position).length = piece.reading.size position := by
  cases piece with
  | lowBits bs h => simp [bits, reading, Reading.size, Reading.asked]; omega
  | bytes bs h => simp only [bits, reading, Reading.size, length_bitsOfBytes, Nat.mod_eq_of_lt h]
  | _ => simp [bits, reading, Reading.size, Reading.asked]

theorem value_bits (piece : Piece) (position : Nat) :
    piece.reading.value (piece.bits position) = piece.value := by
  cases piece with
  | number n h => simp [bits, reading, Reading.value, value]
  | byte b => simp [bits, reading, Reading.value, value]
  | @lowBits bs count h =>
    have hcount : 8 * bs.length - (8 * bs.length - count) = count := by omega
    simp only [bits, reading, Reading.value, value, List.length_drop, length_bitsOfBytes, hcount,
      natOfBits_drop, natOfBytes_eq]
  | bytes bs =>
    simp only [bits, reading, Reading.value, value, bytesOfNat_natOfBits, alignRight_bitsOfBytes]
  | padding => rfl

theorem tooWide?_reading (piece : Piece) : piece.reading.tooWide? = none := by
  cases piece with
  | number n h => exact if_neg (Nat.not_lt.2 h)
  | _ => rfl

theorem run_reading (piece : Piece) (front rest : List Bool) :
    piece.reading.run ⟨front ++ piece.bits front.length ++ rest, front.length⟩ =
      .ok piece.value ⟨front ++ piece.bits front.length ++ rest,
        (front ++ piece.bits front.length).length⟩ := by
  have hroom : front.length + piece.reading.size front.length ≤
      (front ++ piece.bits front.length ++ rest).length := by
    simp [length_bits]
  have hfailure : piece.reading.failure?
      ⟨front ++ piece.bits front.length ++ rest, front.length⟩ = none := by
    rw [Reading.failure?, tooWide?_reading, if_pos hroom]
    rfl
  rw [Reading.run_eq, Reading.outcome, hfailure]
  simp only [seek, ← length_bits, List.append_assoc, List.drop_left, List.take_left, value_bits,
    List.length_append]

def readAll (pieces : List Piece) : EStateM Error BitTape (List ReadValue) :=
  pieces.mapM fun piece => piece.reading.run

theorem readAll_foldl_write (pieces : List Piece) (front : List Bool) (head : Nat) :
    ∃ more, pieces.foldl write ⟨front, head⟩ = ⟨front ++ more, head⟩ ∧
      readAll pieces ⟨front ++ more, front.length⟩ =
        .ok (pieces.map value) ⟨front ++ more, (front ++ more).length⟩ := by
  induction pieces generalizing front with
  | nil => exact ⟨[], by simp, by rw [List.append_nil]; rfl⟩
  | cons piece pieces ih =>
    -- The first piece belongs to the front of the others, so that their padding begins behind it.
    obtain ⟨more, hwritten, hread⟩ := ih (front ++ piece.bits front.length)
    refine ⟨piece.bits front.length ++ more, ?_, ?_⟩
    · rw [List.foldl_cons, write_eq, ← List.append_assoc]
      exact hwritten
    · rw [readAll, List.mapM_cons, ← List.append_assoc]
      exact run_bind_eq_ok_iff.2 ⟨_, _, run_reading piece front more,
        run_bind_eq_ok_iff.2 ⟨_, _, hread, rfl⟩⟩

end Piece

/-- A number of four bits, a byte behind them, and eleven bits that the padding completes. -/
example :
    let pieces : List Piece := [@Piece.number 0xf6 4 (by decide), .byte 0xab,
      @Piece.lowBits [0x12, 0x34] 11 (by decide), .padding, .bytes [1, 2] (by decide)]
    Piece.readAll pieces (pieces.foldl Piece.write .empty) =
      .ok [.number 6, .number 0xab, .bytes [2, 0x34], .nothing, .bytes [1, 2]]
        ⟨bitsOfBytes [0x6a, 0xb4, 0x68, 1, 2], 40⟩ := by
  rfl

end HeaderCompression.BitTape
