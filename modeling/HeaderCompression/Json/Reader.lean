import HeaderCompression.Json.Fault

namespace HeaderCompression.Json

structure Source where
  chars : List Char
  left : Nat
  deriving DecidableEq, Repr

def Source.ofString (text : String) : Source :=
  ⟨text.toList, text.length⟩

def Source.dropWhile (p : Char → Bool) : List Char → Nat → Source
  | [], left => ⟨[], left⟩
  | c :: chars, left => if p c then dropWhile p chars (left - 1) else ⟨c :: chars, left⟩

/-- Takes a value off the front of a text, or finds the first problem there. A value is judged as
soon as it has been read, so one that is rejected wins over whatever is wrong further on. -/
abbrev Reader (ε : Type) := StateT Source (Except (Fault ε))

namespace Reader

variable {ε α σ : Type}

def peek : Reader ε (Option Char) := do
  return (← get).chars.head?

def advance : Reader ε Unit :=
  modify fun source => ⟨source.chars.tail, source.left - 1⟩

def take : Reader ε Char := do
  match ← peek with
  | none => throw .ended
  | some c => advance; return c

def isBlank (c : Char) : Bool :=
  c == ' ' || c == '\n' || c == '\t' || c == '\r'

/-- The next character that is not blank, left in place. -/
def next? : Reader ε (Option Char) := do
  modify fun source => Source.dropWhile isBlank source.chars source.left
  peek

def next : Reader ε Char := do
  match ← next? with
  | none => throw .ended
  | some c => return c

def word : List Char → Reader ε Unit
  | [] => return
  | expected :: rest => do
    if (← take) = expected then word rest else throw .malformed

/-- Repeats `step`, which takes something off the text each time, until it gives a result. -/
def iterate (step : σ → Reader ε (σ ⊕ α)) (state : σ) : Reader ε α := fun source =>
  match step state source with
  | .error fault => .error fault
  | .ok (.inr result, rest) => .ok (result, rest)
  | .ok (.inl state', rest) =>
    if rest.left < source.left then iterate step state' rest else .error .malformed
termination_by source => source.left

def document (reader : Reader ε α) (text : String) : Except (Fault ε) α := do
  let (value, rest) ← (do let value ← reader; return (value, ← next?)).run' (.ofString text)
  match rest with
  | none => return value
  | some _ => throw .malformed

end Reader

end HeaderCompression.Json
