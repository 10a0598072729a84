import HeaderCompression.Json.Reader
import HeaderCompression.Text.Digit

namespace HeaderCompression.Json.Reader

variable {ε : Type}

/-- Four hexadecimal digits. A text with fewer than four bytes left ends too early, whatever they
are. -/
def codeUnit : Reader ε Nat := do
  let four := (← get).chars.take 4
  if (String.ofList four).utf8ByteSize < 4 then throw .ended
  match four.mapM Text.hexDigitValue? with
  | none => throw .malformed
  | some digits =>
    for _ in four do advance
    return digits.foldl (fun n digit => 16 * n + digit) 0

def isLowSurrogate (unit : Nat) : Bool :=
  0xDC00 ≤ unit && unit ≤ 0xDFFF

def isHighSurrogate (unit : Nat) : Bool :=
  0xD800 ≤ unit && unit ≤ 0xDBFF

def numberedChar : Reader ε Char := do
  let unit ← codeUnit
  if isLowSurrogate unit then throw .malformed
  if !isHighSurrogate unit then return Char.ofNat unit
  if (← take) ≠ '\\' then throw .malformed
  if (← take) ≠ 'u' then throw .malformed
  let low ← codeUnit
  if !isLowSurrogate low then throw .malformed
  return Char.ofNat (0x10000 + 0x400 * (unit - 0xD800) + (low - 0xDC00))

def letterChar? : Char → Option Char
  | '"' => some '"'
  | '\\' => some '\\'
  | '/' => some '/'
  | 'b' => some '\x08'
  | 'f' => some '\x0c'
  | 'n' => some '\n'
  | 'r' => some '\r'
  | 't' => some '\t'
  | _ => none

def escapedChar : Reader ε Char := do
  let letter ← take
  if letter = 'u' then numberedChar
  else match letterChar? letter with
    | some c => return c
    | none => throw .malformed

def stringBody : Reader ε String :=
  iterate (fun (read : List Char) => do
    match ← take with
    | '"' => return .inr (String.ofList read.reverse)
    | '\\' => return .inl ((← escapedChar) :: read)
    | c => if c.toNat < 0x20 then throw .malformed else return .inl (c :: read)) []

def skipString : Reader ε Unit :=
  iterate (fun () => do
    match ← take with
    | '"' => return .inr ()
    | '\\' =>
      let letter ← take
      if letter = 'u' then discard codeUnit
      else if (letterChar? letter).isNone then throw .malformed
      return .inl ()
    | c => if c.toNat < 0x20 then throw .malformed else return .inl ()) ()

end HeaderCompression.Json.Reader
