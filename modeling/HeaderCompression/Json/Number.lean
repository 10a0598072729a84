import HeaderCompression.Json.Basic
import HeaderCompression.Json.Reader
import HeaderCompression.Text.Digit

namespace HeaderCompression.Json

open Text (isDigit digitValue naturalOfDigits)

/-- The leading digits of a number, as long as they fit 64 bits, and how many were kept. -/
structure Significand where
  value : Nat
  kept : Nat
  deriving DecidableEq, Repr

def Significand.extend (value kept : Nat) : List Char → Significand
  | [] => ⟨value, kept⟩
  | c :: digits =>
    let longer := 10 * value + digitValue c
    if longer < UInt64.size then extend longer (kept + 1) digits else ⟨value, kept⟩

def powerOfTen (n : Nat) : Float :=
  Float.ofScientific 1 false n

/-- Shifts the decimal point of a double by one multiplication or division, preceded by divisions
by `10 ^ 308` when the exponent is out of reach; none when the result is too large. -/
def shiftPoint (x : Float) (exponent : Int) : Option Float :=
  if exponent.natAbs ≤ 308 then
    if 0 ≤ exponent then
      let shifted := x * powerOfTen exponent.toNat
      if shifted.isInf then none else some shifted
    else some (x / powerOfTen exponent.natAbs)
  else if x == 0 then some x
  else if 0 ≤ exponent then none
  else shiftPoint (x / powerOfTen 308) (exponent + 308)
termination_by exponent.natAbs
decreasing_by omega

namespace Reader

variable {ε : Type}

def digits : Reader ε (List Char) := do
  let chars := (← get).chars
  modify fun source => Source.dropWhile isDigit source.chars source.left
  return chars.takeWhile isDigit

def double (negative : Bool) (value : Nat) (exponent : Int) : Reader ε JsonNumber := do
  match shiftPoint value.toUInt64.toFloat exponent with
  | none => throw .malformed
  | some x => return .double (if negative then -x else x).toBits

def exponent (negative : Bool) (value : Nat) (start : Int) : Reader ε JsonNumber := do
  advance
  let down ← match ← peek with
    | some '+' => do advance; pure false
    | some '-' => do advance; pure true
    | _ => pure false
  match ← peek with
  | none => throw .ended
  | some c =>
    if !isDigit c then throw .malformed
    let size := naturalOfDigits (← digits)
    if size < UInt32.size / 2 then
      double negative value (if down then start - size else start + size)
    else if value ≠ 0 ∧ ¬ down then throw .malformed
    else return .double (if negative then -0.0 else 0.0).toBits

def fraction (negative : Bool) (value : Nat) (start : Int) : Reader ε JsonNumber := do
  advance
  let ds ← digits
  if ds.isEmpty then
    match ← peek with
    | none => throw .ended
    | some _ => throw .malformed
  let significand := Significand.extend value 0 ds
  let start := start - significand.kept
  match ← peek with
  | some 'e' | some 'E' => exponent negative significand.value start
  | _ => double negative significand.value start

def number (negative : Bool) : Reader ε JsonNumber := do
  match ← peek with
  | none => throw .ended
  | some first =>
    if !isDigit first then throw .malformed
    let ds ← digits
    if first = '0' ∧ ds.length ≠ 1 then throw .malformed
    let significand := Significand.extend 0 0 ds
    let value := significand.value
    let dropped := ds.length - significand.kept
    match ← peek with
    | some '.' => fraction negative value dropped
    | some 'e' | some 'E' => exponent negative value dropped
    | _ =>
      if dropped ≠ 0 then double negative value dropped
      else if !negative then return .natural value
      else if 0 < value ∧ value ≤ UInt64.size / 2 then return .negative value
      else double true value 0

def skipNumber : Reader ε Unit := do
  match ← digits with
  | [] => throw .malformed
  | first :: more =>
    if first = '0' ∧ more ≠ [] then throw .malformed
    if (← peek) = some '.' then
      advance
      if (← digits).isEmpty then throw .malformed
    if (← peek) = some 'e' ∨ (← peek) = some 'E' then
      advance
      if (← peek) = some '+' ∨ (← peek) = some '-' then advance
      if (← digits).isEmpty then throw .malformed

end Reader

end HeaderCompression.Json
