namespace HeaderCompression.Json

/-- The first problem in a text. `ε` is what the values themselves are rejected for. -/
inductive Fault (ε : Type) where
  | ended
  | malformed
  | mismatch
  | rejected (reason : ε)
  deriving DecidableEq, Repr

end HeaderCompression.Json
