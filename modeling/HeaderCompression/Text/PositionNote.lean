import HeaderCompression.Text.Digit

namespace HeaderCompression.Text

/-- A number of at least one digit that fits 64 bits. -/
def isPosition (digits : List Char) : Bool :=
  !digits.isEmpty && naturalOfDigits digits < UInt64.size

def dropFront? : List Char → List Char → Option (List Char)
  | [], text => some text
  | _ :: _, [] => none
  | c :: front, d :: text => if c = d then dropFront? front text else none

def isPositionNote (text : List Char) : Bool :=
  match dropFront? " at line ".toList text with
  | none => false
  | some text =>
    isPosition (text.takeWhile isDigit) &&
      match dropFront? " column ".toList (text.dropWhile isDigit) with
      | none => false
      | some text => isPosition text && text.all isDigit

/-- Without a note such as ` at line 3 column 14` at its end. -/
def dropPositionNoteFrom : List Char → List Char
  | [] => []
  | c :: text => if isPositionNote (c :: text) then [] else c :: dropPositionNoteFrom text

def dropPositionNote (text : String) : String :=
  String.ofList (dropPositionNoteFrom text.toList)

end HeaderCompression.Text
