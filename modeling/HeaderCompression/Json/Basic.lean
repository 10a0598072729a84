import HeaderCompression.Text.Decimal

namespace HeaderCompression

/-- A number as it was written: whole numbers that fit 64 bits are exact, with `negative n` for
`-n`, and all others, the negative zero included, are doubles, kept by their bits. -/
inductive JsonNumber where
  | natural (n : Nat)
  | negative (n : Nat)
  | double (bits : UInt64)
  deriving DecidableEq, Repr

def JsonNumber.text : JsonNumber → String
  | natural n => toString n
  | negative n => "-" ++ toString n
  | double bits => (Text.Binary64.ofBits bits).text

inductive Json where
  | null
  | bool (b : Bool)
  | number (n : JsonNumber)
  | string (s : String)
  | array (items : List Json)
  | object (members : List (String × Json))

namespace Json

def escape (c : Char) : String :=
  match c with
  | '"' => "\\\""
  | '\\' => "\\\\"
  | '\x08' => "\\b"
  | '\x0c' => "\\f"
  | '\n' => "\\n"
  | '\r' => "\\r"
  | '\t' => "\\t"
  | _ =>
    if c.toNat < 0x20 then
      "\\u00" ++ String.ofList [Nat.digitChar (c.toNat / 16), Nat.digitChar (c.toNat % 16)]
    else c.toString

def stringText (s : String) : String :=
  "\"" ++ String.join (s.toList.map escape) ++ "\""

mutual

def text : Json → String
  | null => "null"
  | bool b => if b then "true" else "false"
  | number n => n.text
  | string s => stringText s
  | array items => "[" ++ String.intercalate "," (itemTexts items) ++ "]"
  | object members => "\x7b" ++ String.intercalate "," (memberTexts members) ++ "\x7d"

def itemTexts : List Json → List String
  | [] => []
  | item :: items => text item :: itemTexts items

def memberTexts : List (String × Json) → List String
  | [] => []
  | (name, value) :: members => (stringText name ++ ":" ++ text value) :: memberTexts members

end

/-- Puts a member in its place; a member of the same name gives way. -/
def insertMember (name : String) (value : Json) : List (String × Json) → List (String × Json)
  | [] => [(name, value)]
  | (other, kept) :: members =>
    if name < other then (name, value) :: (other, kept) :: members
    else if name = other then (name, value) :: members
    else (other, kept) :: insertMember name value members

end Json

end HeaderCompression
