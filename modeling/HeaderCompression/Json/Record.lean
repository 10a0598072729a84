import HeaderCompression.Json.Value

namespace HeaderCompression.Json

structure Member (ε δ : Type) where
  name : String
  isMet : δ → Bool
  read : Nat → δ → Reader ε δ

/-- How a record is read: its draft, its members in order, how many of them the array form has to
give, and what the draft amounts to, which is nothing while a member is missing. Unknown members
are skipped, and a known one must not come twice. -/
structure RecordShape (ε δ α : Type) where
  blank : δ
  members : List (Member ε δ)
  leading : Nat
  finish? : δ → Option α

namespace Reader

variable {ε δ α : Type}

def finish (shape : RecordShape ε δ α) (draft : δ) : Reader ε α :=
  match shape.finish? draft with
  | none => throw .mismatch
  | some result => return result

def namedMembers (shape : RecordShape ε δ α) (room : Nat) : Reader ε α :=
  iterate (fun ((first, draft) : Bool × δ) => do
    match ← name? first with
    | none => return .inr (← finish shape draft)
    | some name =>
      match shape.members.find? (·.name == name) with
      | none =>
        colon
        skipValue
        return .inl (false, draft)
      | some member =>
        if member.isMet draft then throw .mismatch
        colon
        return .inl (false, ← member.read room draft)) (true, shape.blank)

def listedMembers (shape : RecordShape ε δ α) (room : Nat) :
    List (Member ε δ) → Nat → δ → Reader ε α
  | [], _, draft => do
    if (← next) ≠ ']' then throw .malformed
    advance
    finish shape draft
  | member :: members, index, draft => do
    if ← itemFollows (index == 0) then
      listedMembers shape room members (index + 1) (← member.read room draft)
    else if index < shape.leading then throw .mismatch
    else
      advance
      finish shape draft

def record (room : Nat) (shape : RecordShape ε δ α) : Reader ε α := do
  match ← next with
  | '{' => enter room (namedMembers shape)
  | '[' => enter room fun room => listedMembers shape room shape.members 0 shape.blank
  | _ => refuse

/-- One of several words, as a string or as the only name of an object that holds `null`. -/
def choice (room : Nat) (meaning : String → Option α) : Reader ε α := do
  match ← next with
  | '"' => named
  | '{' =>
    enter room fun _ => do
      if (← next) ≠ '"' then throw .malformed
      let result ← named
      colon
      if (← next) = 'n' then word ['n', 'u', 'l', 'l'] else refuse
      if (← next) = '}' then advance else throw .malformed
      return result
  | _ => throw .malformed
where
  named : Reader ε α := do
    match meaning (← string) with
    | none => throw .mismatch
    | some result => return result

end Reader

end HeaderCompression.Json
