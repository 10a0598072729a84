namespace HeaderCompression.Text

/-- A finite double: `mantissa * 2 ^ exponent`, negated when `negative`. -/
structure Binary64 where
  negative : Bool
  mantissa : Nat
  exponent : Int
  deriving DecidableEq, Repr

def fractionWidth : Nat := 52

def Binary64.ofBits (bits : UInt64) : Binary64 :=
  let fraction := bits.toNat % (1 <<< fractionWidth)
  let biased : Nat := (bits.toNat >>> fractionWidth) % 2048
  let negative := bits.toNat.testBit 63
  if biased = 0 then ⟨negative, fraction, -1074⟩
  else ⟨negative, (1 <<< fractionWidth) + fraction, (biased : Int) - 1075⟩

/-- `digits * 10 ^ exponent`. -/
structure Digits where
  digits : Nat
  exponent : Int
  deriving DecidableEq, Repr

/-- The multiple of `10 ^ grid` nearest to the value, if it reads back as the value. Everything is
counted in quarters of the last binary place: the value is `4 * mantissa` of them, and the doubles
next to it are reached half way after two of them, one below a power of two. -/
def Binary64.onGrid? (x : Binary64) (grid : Int) : Option Digits :=
  let quarter := x.exponent - 2
  let up := Nat.pow 10 (-grid).toNat <<< quarter.toNat
  let unit := Nat.pow 10 grid.toNat <<< (-quarter).toNat
  let below := if x.mantissa = 1 <<< fractionWidth ∧ x.exponent > -1074 then 1 else 2
  let value := 4 * x.mantissa * up
  let low := (4 * x.mantissa - below) * up
  let high := (4 * x.mantissa + 2) * up
  let even := x.mantissa % 2 = 0
  let inside (c : Nat) : Bool :=
    (low < c * unit ∧ c * unit < high) ∨ (even ∧ (low = c * unit ∨ c * unit = high))
  let floor := value / unit
  match inside floor && floor != 0, inside (floor + 1) with
  | false, false => none
  | true, false => some ⟨floor, grid⟩
  | false, true => some ⟨floor + 1, grid⟩
  | true, true =>
    match compare (2 * value) ((2 * floor + 1) * unit) with
    | .lt => some ⟨floor, grid⟩
    | .gt => some ⟨floor + 1, grid⟩
    | .eq => some ⟨if floor % 2 = 0 then floor else floor + 1, grid⟩

/-- The digits on the coarsest decimal grid with a point that reads back; none for zero. -/
def Binary64.shortest (x : Binary64) : Option Digits :=
  if x.mantissa = 0 then none
  else (List.range 640).findSome? fun (k : Nat) => x.onGrid? (309 - (k : Int))

def Binary64.sign (x : Binary64) : String :=
  if x.negative then "-" else ""

/-- Shortest text: positional from `0.00001` up to below `10 ^ 16`, with at least one digit after
the point, and otherwise with an exponent, whose sign is always written. -/
def Binary64.text (x : Binary64) : String :=
  x.sign ++
    match x.shortest with
    | none => "0.0"
    | some ⟨digits, exponent⟩ =>
      let text := toString digits
      let point : Int := (text.length : Int) + exponent
      let zeros (n : Int) : String := "".pushn '0' n.toNat
      if 0 ≤ exponent && point ≤ 16 then text ++ zeros exponent ++ ".0"
      else if 0 < point && point ≤ 16 then
        String.ofList (text.toList.take point.toNat) ++ "." ++
          String.ofList (text.toList.drop point.toNat)
      else if -5 < point && point ≤ 0 then "0." ++ zeros (-point) ++ text
      else
        let tail := text.toList.drop 1
        let power := point - 1
        String.ofList (text.toList.take 1) ++
          (if tail.isEmpty then "" else "." ++ String.ofList tail) ++
          (if power < 0 then "e-" else "e+") ++ toString power.natAbs

/-- The whole number nearest to `numerator / denominator`, the even one of two equally near. -/
def roundHalfEven (numerator denominator : Nat) : Nat :=
  let floor := numerator / denominator
  let rest := numerator % denominator
  if 2 * rest < denominator then floor
  else if 2 * rest > denominator then floor + 1
  else if floor % 2 = 0 then floor else floor + 1

/-- The exact value rounded to a number of places after the point, half to even. -/
def Binary64.fixed (places : Nat) (x : Binary64) : String :=
  let unit := Nat.pow 10 places
  let scaled :=
    roundHalfEven (x.mantissa <<< x.exponent.toNat * unit) (1 <<< (-x.exponent).toNat)
  let whole := toString (scaled / unit)
  let fraction := toString (scaled % unit)
  if places = 0 then x.sign ++ whole
  else x.sign ++ whole ++ "." ++ "".pushn '0' (places - fraction.length) ++ fraction

def floatText (x : Float) : String :=
  (Binary64.ofBits x.toBits).text

def floatFixed (places : Nat) (x : Float) : String :=
  (Binary64.ofBits x.toBits).fixed places

end HeaderCompression.Text
