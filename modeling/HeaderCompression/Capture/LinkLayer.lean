import HeaderCompression.Error
import HeaderCompression.Text.Digit

namespace HeaderCompression

inductive LinkLayer where
  | none
  | ethernet
  | ofLength (length : Nat)
  deriving DecidableEq, Repr

namespace LinkLayer

def headerLength : LinkLayer → Nat
  | none => 0
  | ethernet => 14
  | ofLength length => length

def packet (link : LinkLayer) (frame : List UInt8) : Except Error (List UInt8) :=
  if link.headerLength ≤ frame.length then .ok (frame.drop link.headerLength)
  else .error (.packet (.shortFrame frame.length link.headerLength))

/-- A link layer by name, in letters of either case, or by the length of its header. -/
def ofString? (text : String) : Option LinkLayer :=
  match text.map Char.toLower with
  | "none" | "raw" => some none
  | "ethernet" | "eth" => some ethernet
  | other => (Text.naturalBelow? UInt64.size other.toList).map ofLength

end LinkLayer

end HeaderCompression
