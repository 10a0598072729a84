import HeaderCompression.Text.Digit
import HeaderCompression.Text.Quoted

namespace HeaderCompression.Text

inductive HexFault where
  | oddLength
  | badDigit (byte : UInt8) (position : Nat)
  deriving DecidableEq, Repr

def HexFault.message : HexFault → String
  | .oddLength => "Odd number of digits"
  | .badDigit byte position =>
    s!"Invalid character {quotedChar (Char.ofNat byte.toNat)} at position {position}"

def hexOfByte (byte : UInt8) : List Char :=
  [Nat.digitChar (byte.toNat / 16), Nat.digitChar (byte.toNat % 16)]

def hexOfBytes (bytes : List UInt8) : String :=
  String.ofList (bytes.flatMap hexOfByte)

def hexValue? (code : UInt8) : Option Nat :=
  hexDigitValue? (Char.ofNat code.toNat)

/-- Reads pairs of digits from `position` on, after the bytes `read` so far, the last of them
first. -/
def bytesOfHexFrom (position : Nat) (read : List UInt8) :
    List UInt8 → Except HexFault (List UInt8)
  | high :: low :: rest =>
    match hexValue? high, hexValue? low with
    | none, _ => .error (.badDigit high position)
    | some _, none => .error (.badDigit low (position + 1))
    | some h, some l => bytesOfHexFrom (position + 2) (UInt8.ofNat (16 * h + l) :: read) rest
  | _ => .ok read.reverse

/-- An odd number of bytes is refused before any digit is looked at. -/
def bytesOfHex (text : String) : Except HexFault (List UInt8) :=
  let codes := text.toUTF8.toList
  if codes.length % 2 = 0 then bytesOfHexFrom 0 [] codes else .error .oddLength

end HeaderCompression.Text
