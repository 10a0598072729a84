import HeaderCompression.Json.Number
import HeaderCompression.Json.StringReader

namespace HeaderCompression.Json.Reader

variable {ε α : Type}

/-- Refuses the value that comes next for its shape, unless it is not well formed either. -/
def refuse : Reader ε α := do
  match ← next with
  | 'n' => word ['n', 'u', 'l', 'l']
  | 't' => word ['t', 'r', 'u', 'e']
  | 'f' => word ['f', 'a', 'l', 's', 'e']
  | '"' => advance; discard stringBody
  | '-' => advance; discard (number true)
  | '[' | '{' => return ← throw .mismatch
  | c => if Text.isDigit c then discard (number false) else throw .malformed
  throw .mismatch

def naturalBelow (bound : Nat) : Reader ε Nat := do
  let c ← next
  if c = '-' then
    advance
    discard (number true)
    throw .mismatch
  else if Text.isDigit c then
    match ← number false with
    | .natural n => if n < bound then return n else throw .mismatch
    | _ => throw .mismatch
  else refuse

def string : Reader ε String := do
  if (← next) = '"' then
    advance
    stringBody
  else refuse

def optional (reader : Reader ε α) : Reader ε (Option α) := do
  if (← next?) = some 'n' then
    word ['n', 'u', 'l', 'l']
    return none
  else return some (← reader)

/-- Whether another item follows in an array, and the way to it; the closing bracket stays. -/
def itemFollows (first : Bool) : Reader ε Bool := do
  match ← next with
  | ']' => return false
  | ',' =>
    if first then return true
    advance
    if (← next) = ']' then throw .malformed
    return true
  | _ => if first then return true else throw .malformed

def items (reader : Reader ε α) : Reader ε (List α) :=
  iterate (fun (read : List α) => do
    if ← itemFollows read.isEmpty then
      return .inl ((← reader) :: read)
    else
      advance
      return .inr read.reverse) []

def enter (room : Nat) (inside : Nat → Reader ε α) : Reader ε α :=
  match room with
  | 0 => throw .malformed
  | room + 1 => do
    advance
    inside room

def list (room : Nat) (reader : Nat → Reader ε α) : Reader ε (List α) := do
  if (← next) = '[' then enter room fun room => items (reader room)
  else refuse

/-- The next name in an object and the colon behind it are taken in two steps, since a name can be
refused before its colon is looked at. None at the closing brace, which is taken. -/
def name? (first : Bool) : Reader ε (Option String) := do
  let c ← next
  if c = '}' then
    advance
    return none
  if c = ',' ∧ ¬ first then
    advance
    if (← next) ≠ '"' then throw .malformed
  else if ¬ first ∨ c ≠ '"' then throw .malformed
  advance
  return some (← stringBody)

def colon : Reader ε Unit := do
  if (← next) = ':' then advance else throw .malformed

def members (reader : Reader ε Json) : Reader ε (List (String × Json)) :=
  iterate (fun ((first, read) : Bool × List (String × Json)) => do
    match ← name? first with
    | none => return .inr read
    | some name =>
      colon
      return .inl (false, insertMember name (← reader) read)) (true, [])

def value (room : Nat) : Reader ε Json := do
  match ← next with
  | 'n' => word ['n', 'u', 'l', 'l']; return .null
  | 't' => word ['t', 'r', 'u', 'e']; return .bool true
  | 'f' => word ['f', 'a', 'l', 's', 'e']; return .bool false
  | '"' => advance; return .string (← stringBody)
  | '-' => advance; return .number (← number true)
  | '[' =>
    match room with
    | 0 => throw .malformed
    | room + 1 =>
      advance
      return .array (← items (value room))
  | '{' =>
    match room with
    | 0 => throw .malformed
    | room + 1 =>
      advance
      return .object (← members (value room))
  | c => if Text.isDigit c then return .number (← number false) else throw .malformed

inductive Container where
  | array
  | object
  deriving DecidableEq, Repr

def Container.closing : Container → Char
  | array => ']'
  | object => '}'

def skipName : Container → Reader ε Unit
  | .array => return
  | .object => do
    if (← next) ≠ '"' then throw .malformed
    advance
    skipString
    colon

/-- One part of a skipped value: a scalar or an opening mark when `wanted`, otherwise what stands
between the values of the innermost of the opened containers. -/
def skipPart (opened : List Container) (wanted : Bool) :
    Reader ε ((List Container × Bool) ⊕ Unit) := do
  if wanted then
    match ← next with
    | 'n' => word ['n', 'u', 'l', 'l']
    | 't' => word ['t', 'r', 'u', 'e']
    | 'f' => word ['f', 'a', 'l', 's', 'e']
    | '"' => advance; skipString
    | '-' => advance; skipNumber
    | '[' => advance; return ← inside (.array :: opened)
    | '{' => advance; return ← inside (.object :: opened)
    | c => if Text.isDigit c then skipNumber else throw .malformed
    return after opened
  else
    match opened with
    | [] => return .inr ()
    | container :: outer =>
      match ← next with
      | ',' =>
        advance
        skipName container
        return .inl (opened, true)
      | c =>
        if c ≠ container.closing then throw .malformed
        advance
        return after outer
where
  /-- What follows a value: nothing, once all containers are closed. -/
  after : List Container → (List Container × Bool) ⊕ Unit
    | [] => .inr ()
    | opened => .inl (opened, false)
  inside : List Container → Reader ε ((List Container × Bool) ⊕ Unit)
    | [] => return .inr ()
    | container :: outer => do
      if (← next) = container.closing then
        advance
        return after outer
      skipName container
      return .inl (container :: outer, true)

def skipValue : Reader ε Unit :=
  iterate (fun (opened, wanted) => skipPart opened wanted) ([], true)

end HeaderCompression.Json.Reader
