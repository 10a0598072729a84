import HeaderCompression.Packet.Restored
import HeaderCompression.Proofs.Bits.Range

namespace HeaderCompression.Checked

inductive Trap where
  /-- A sum or a product is too large for its word. -/
  | overflow
  /-- A difference is below zero. -/
  | underflow
  /-- A word is shifted by its width or more. -/
  | shift
  /-- A slice or an element is outside of its list. -/
  | slice
  deriving DecidableEq, Repr

/-- Numbers are words that end at a limit, and an operation that has no result there is a trap.
Shifts by a fixed number of places, below the width of their word, cannot fail and are not
checked. -/
inductive Stop where
  | trap (trap : Trap)
  | error (error : Error)
  deriving DecidableEq, Repr

abbrev Run := Except Stop

variable {α β σ : Type} {limit a b count start stop i : Nat} {xs : List α} {x : α}

def add (limit a b : Nat) : Run Nat :=
  if a + b ≤ limit then .ok (a + b) else .error (.trap .overflow)

def mul (limit a b : Nat) : Run Nat :=
  if a * b ≤ limit then .ok (a * b) else .error (.trap .overflow)

def sub (a b : Nat) : Run Nat :=
  if b ≤ a then .ok (a - b) else .error (.trap .underflow)

def shiftLeft (width n count : Nat) : Run Nat :=
  if count < width then .ok (n * 2 ^ count % 2 ^ width) else .error (.trap .shift)

def slice (xs : List α) (start stop : Nat) : Run (List α) :=
  if start ≤ stop ∧ stop ≤ xs.length then .ok ((xs.drop start).take (stop - start))
  else .error (.trap .slice)

def element (xs : List α) (i : Nat) : Run α :=
  match xs[i]? with
  | some x => .ok x
  | none => .error (.trap .slice)

def copyOver (target source : List α) : Run (List α) :=
  if target.length = source.length then .ok source else .error (.trap .slice)

theorem add_eq_ok (h : a + b ≤ limit) : add limit a b = .ok (a + b) :=
  if_pos h

theorem mul_eq_ok (h : a * b ≤ limit) : mul limit a b = .ok (a * b) :=
  if_pos h

theorem sub_eq_ok (h : b ≤ a) : sub a b = .ok (a - b) :=
  if_pos h

theorem slice_eq_ok (h : start ≤ stop) (hstop : stop ≤ xs.length) :
    slice xs start stop = .ok ((xs.drop start).take (stop - start)) :=
  if_pos ⟨h, hstop⟩

theorem slice_length (h : start ≤ xs.length) : slice xs start xs.length = .ok (xs.drop start) := by
  rw [slice_eq_ok h le_rfl, List.take_of_length_le (by simp)]

theorem slice_zero (h : stop ≤ xs.length) : slice xs 0 stop = .ok (xs.take stop) := by
  rw [slice_eq_ok (Nat.zero_le _) h, List.drop_zero, Nat.sub_zero]

theorem element_eq_ok (h : i < xs.length) (default : α) :
    element xs i = .ok (xs.getD i default) := by
  rw [element]
  rw [List.getElem?_eq_getElem h, List.getD_eq_getElem _ _ h]

theorem copyOver_eq_ok {target source : List α} (h : target.length = source.length) :
    copyOver target source = .ok source :=
  if_pos h

theorem ok_bind (x : α) (f : α → Run β) : (Except.ok x >>= f) = f x := rfl

theorem ofExcept_ok_bind (x : α) (f : α → EStateM Stop σ β) :
    (ofExcept (.ok x : Run α) >>= f : EStateM Stop σ β) = f x := rfl

def lift (result : Except Error α) : Run α :=
  result.mapError .error

def outcome {ε : Type} : EStateM.Result ε σ α → Except ε (α × σ)
  | .ok a s => .ok (a, s)
  | .error e _ => .error e

theorem outcome_eq_ok_iff {ε : Type} {result : EStateM.Result ε σ α} {s : σ} :
    outcome result = .ok (x, s) ↔ result = .ok x s := by
  cases result <;> simp [outcome]

theorem outcome_bind {ε : Type} (m : EStateM ε σ α) (f : α → EStateM ε σ β) (s : σ) :
    outcome ((m >>= f) s) = outcome (m s) >>= fun p => outcome (f p.1 p.2) := by
  change outcome (EStateM.bind m f s) = _
  rw [EStateM.bind]
  cases m s <;> rfl

/-- A checked run ends as the plain one does, and its error is one of those that are expected. -/
structure Follows (expected : Error → Prop) (run : Run α) (plain : Except Error α) : Prop where
  eq : run = lift plain
  expected : ∀ error, plain = .error error → expected error

variable {expected : Error → Prop} {run : Run α} {plain : Except Error α}
  {f : α → Run β} {g : α → Except Error β}

namespace Follows

theorem ok (x : α) : Follows expected (.ok x) (.ok x) :=
  ⟨rfl, fun _ h => by cases h⟩

theorem error {error : Error} (h : expected error) :
    Follows expected (.error (.error error) : Run α) (.error error) := by
  refine ⟨rfl, ?_⟩
  rintro _ ⟨⟩
  exact h

theorem of_ok (hplain : plain = .ok x) (hrun : run = .ok x) : Follows expected run plain := by
  rw [hplain, hrun]
  exact ok x

theorem lift (h : ∀ error, plain = .error error → expected error) :
    Follows expected (Checked.lift plain) plain :=
  ⟨rfl, h⟩

/-- A run is followed step by step; what a step gives is known of the plain one. -/
theorem bind (h : Follows expected run plain)
    (hnext : ∀ x, plain = .ok x → Follows expected (f x) (g x)) :
    Follows expected (run >>= f) (plain >>= g) := by
  rw [h.eq]
  cases hplain : plain with
  | ok x => exact hnext x hplain
  | error e => exact error (h.expected e hplain)

theorem map (h : Follows expected run plain) (f : α → β) :
    Follows expected (f <$> run) (f <$> plain) := by
  rw [h.eq]
  cases hplain : plain with
  | ok x => exact ok (f x)
  | error e => exact error (h.expected e hplain)

theorem run_bind {m : EStateM Stop σ α} {n : EStateM Error σ α} {f : α → EStateM Stop σ β}
    {g : α → EStateM Error σ β} {s : σ} (h : Follows expected (outcome (m s)) (outcome (n s)))
    (hnext : ∀ x t, n s = .ok x t → Follows expected (outcome (f x t)) (outcome (g x t))) :
    Follows expected (outcome ((m >>= f) s)) (outcome ((n >>= g) s)) := by
  rw [outcome_bind, outcome_bind]
  exact h.bind fun p hp => hnext p.1 p.2 (outcome_eq_ok_iff.1 hp)

theorem run_ofExcept (h : Follows expected run plain) (s : σ) :
    Follows expected (outcome ((ofExcept run : EStateM Stop σ α) s))
      (outcome ((ofExcept plain : EStateM Error σ α) s)) := by
  rw [h.eq]
  cases hplain : plain with
  | ok x => exact ok (x, s)
  | error e => exact error (h.expected e hplain)

end Follows

theorem foldlM_eq_ok {f : β → α → Except Error β} {g : β → α → Run β} {y z : β}
    (hstep : ∀ y z, ∀ x ∈ xs, f y x = .ok z → g y x = .ok z) (h : xs.foldlM f y = .ok z) :
    xs.foldlM g y = .ok z := by
  induction xs generalizing y with
  | nil =>
    cases h
    rfl
  | cons x xs ih =>
    rw [List.foldlM_cons] at h ⊢
    obtain ⟨next, hnext, h⟩ := bind_eq_ok_iff.1 h
    rw [hstep y next x List.mem_cons_self hnext]
    exact ih (fun y z x hx => hstep y z x (List.mem_cons_of_mem _ hx)) h

theorem findM?_eq_ok {p : α → Run Bool} {q : α → Bool} (h : ∀ x ∈ xs, p x = .ok (q x)) :
    xs.findM? p = .ok (xs.find? q) := by
  induction xs with
  | nil => rfl
  | cons x xs ih =>
    obtain ⟨hx, hxs⟩ := List.forall_mem_cons.1 h
    rw [List.findM?, hx, List.find?_cons]
    cases q x with
    | true => rfl
    | false => exact ih hxs

/-- The errors that received data can lead to, each with what is known when it is reported. -/
inductive Expected (device : Device) (endpoint : Endpoint) (data : List UInt8) : Error → Prop
  | empty (h : data = []) : Expected device endpoint data (.decompression .empty)
  | unknownCode (h : device.mode = .composite) : Expected device endpoint data .unknownCode
  | ruleNotFound {layer : Layer} {rule : Nat} (h : device.mode = .layered) :
      Expected device endpoint data (.ruleNotFound layer rule)
  | exhausted {needed position remaining : Nat} (h : remaining < needed) :
      Expected device endpoint data (.exhausted needed position remaining)
  | mappingIndex {field : HeaderField} {index entries : Nat} (h : entries ≤ index) :
      Expected device endpoint data (.decompression (.mappingIndex field index entries))
  | noDeviceAddress (h : endpoint.address? = none) :
      Expected device endpoint data (.decompression .noDeviceAddress)
  | appIid : Expected device endpoint data .appIid
  | missingTokenLength : Expected device endpoint data (.decompression .missingTokenLength)
  | tokenLength {announced found : Nat} (h : announced ≠ found) :
      Expected device endpoint data (.decompression (.tokenLength announced found))
  | tokenBeforeLength : Expected device endpoint data (.decompression .tokenBeforeLength)
  | longToken {length : Nat} (h : CoapMessage.maxTokenLength < length) :
      Expected device endpoint data (.packet (.coap (.longToken length)))
  | largeLength {length : Nat} (h : 65535 < length) :
      Expected device endpoint data (.packet (.largeLength length))

end HeaderCompression.Checked
