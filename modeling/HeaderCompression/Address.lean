import HeaderCompression.Bits.Basic
import HeaderCompression.Text.Digit

namespace HeaderCompression

structure Ipv6Address where
  bytes : List UInt8
  length_bytes : bytes.length = 16
  deriving DecidableEq, Repr

namespace Ipv6Address

def networkPrefix (address : Ipv6Address) : List UInt8 :=
  address.bytes.take 8

def interfaceId (address : Ipv6Address) : List UInt8 :=
  address.bytes.drop 8

theorem length_interfaceId (address : Ipv6Address) : address.interfaceId.length = 8 := by
  simp [interfaceId, address.length_bytes]

/-- The address of eight 16-bit groups; missing groups count as zero. -/
def ofGroups (groups : List Nat) : Ipv6Address :=
  ⟨bytesOfNat 16 ((groups ++ List.replicate (8 - groups.length) 0).take 8 |>.foldl
    (fun n group => 65536 * n + group) 0), length_bytesOfNat ..⟩

abbrev Parse (α : Type) := List Char → Option (α × List Char)

def digit? (radix : Nat) (c : Char) : Option Nat :=
  (Text.hexDigitValue? c).filter (· < radix)

def digits (radix : Nat) : List Char → List Nat × List Char
  | [] => ([], [])
  | c :: text =>
    match digit? radix c with
    | none => ([], c :: text)
    | some d =>
      let (ds, rest) := digits radix text
      (d :: ds, rest)

def group : Parse Nat := fun text =>
  let (ds, rest) := digits 16 text
  if ds.isEmpty || ds.length > 4 then none
  else some (ds.foldl (fun n d => 16 * n + d) 0, rest)

/-- A decimal number below 256 without needless zeros. -/
def octet : Parse Nat := fun text =>
  let (ds, rest) := digits 10 text
  let n := ds.foldl (fun n d => 10 * n + d) 0
  if ds.isEmpty || ds.length > 3 || n > 255 || (ds.head? == some 0 && ds.length > 1) then none
  else some (n, rest)

def char (expected : Char) (text : List Char) : Option (List Char) :=
  match text with
  | c :: rest => if c = expected then some rest else none
  | [] => none

def dottedGroups : Parse (List Nat) := fun text => do
  let (a, text) ← octet text
  let (b, text) ← octet (← char '.' text)
  let (c, text) ← octet (← char '.' text)
  let (d, text) ← octet (← char '.' text)
  return ([256 * a + b, 256 * c + d], text)

/-- Up to `limit` groups; whether dots ended them, and the rest of the text. All groups but the
first of the run need a colon in front. -/
def groups (first : Bool) : Nat → List Char → List Nat × Bool × List Char
  | 0, text => ([], false, text)
  | limit + 1, text =>
    let start := if first then some text else char ':' text
    match (if limit = 0 then none else start >>= dottedGroups) with
    | some (pair, rest) => (pair, true, rest)
    | none =>
      match start >>= group with
      | none => ([], false, text)
      | some (g, rest) =>
        let (gs, dotted, rest) := groups false limit rest
        (g :: gs, dotted, rest)

def ofChars? (text : List Char) : Option Ipv6Address :=
  let (head, dotted, rest) := groups true 8 text
  if head.length = 8 then
    if rest.isEmpty then some (ofGroups head) else none
  else if dotted then none
  else do
    let rest ← char ':' (← char ':' rest)
    let (tail, _, rest) := groups true (7 - head.length) rest
    if rest.isEmpty then
      some (ofGroups (head ++ List.replicate (8 - head.length - tail.length) 0 ++ tail))
    else none

def ofString? (text : String) : Option Ipv6Address :=
  ofChars? text.toList

end Ipv6Address

end HeaderCompression
