import HeaderCompression.Proofs.Checked.Basic
import HeaderCompression.Proofs.Header.Coap
import HeaderCompression.Proofs.Rule.Reading

namespace HeaderCompression.Checked

variable {device : Device} {endpoint : Endpoint} {received data front value source : List UInt8}
  {limit count start sourceStart length : Nat} {tape : BitTape} {f : RuleField}
  {previous : List Column} {pending : Packet.Pending}

namespace Tape

def require (limit count : Nat) : EStateM Stop BitTape Unit := do
  let tape ← get
  let stop ← ofExcept (add limit tape.head count)
  if stop > tape.bits.length then throw (.error (.exhausted count tape.head tape.remaining))

def take (limit count : Nat) : EStateM Stop BitTape (List Bool) := do
  let tape ← get
  let stop ← ofExcept (add limit tape.head count)
  let bits ← ofExcept (slice tape.bits tape.head stop)
  set (tape.seek stop)
  return bits

def readNat (limit width : Nat) : EStateM Stop BitTape Nat := do
  if width > 64 then throw (.error (.decompression (.wideRead width)))
  require limit width
  return natOfBits (← take limit width)

def readAligned (limit count : Nat) : EStateM Stop BitTape (List UInt8) := do
  require limit count
  let room ← ofExcept (mul limit (bytesFor count) 8)
  let pad ← ofExcept (sub room count)
  let space ← ofExcept (slice (List.replicate room false) pad room)
  let bits ← ofExcept (copyOver space (← take limit count))
  return bytesOfBits (List.replicate pad false ++ bits)

def readByte (limit : Nat) : EStateM Stop BitTape Nat :=
  readNat limit 8

def readBytes (limit count : Nat) : EStateM Stop BitTape (List UInt8) := do
  readAligned limit (← ofExcept (mul limit count 8))

theorem require_eq (h : tape.head + count ≤ limit) :
    require limit count tape = if tape.head + count ≤ tape.bits.length then .ok () tape
      else .error (.error (.exhausted count tape.head tape.remaining)) tape := by
  change (ofExcept (add limit tape.head count) >>= _ : EStateM Stop BitTape Unit) tape = _
  rw [add_eq_ok h]
  by_cases hroom : tape.head + count ≤ tape.bits.length
  · rw [if_pos hroom]
    change (if tape.head + count > tape.bits.length then _ else _ : EStateM Stop BitTape Unit)
      tape = _
    rw [if_neg (Nat.not_lt.2 hroom)]
    rfl
  · rw [if_neg hroom]
    change (if tape.head + count > tape.bits.length then _ else _ : EStateM Stop BitTape Unit)
      tape = _
    rw [if_pos (Nat.lt_of_not_le hroom)]
    rfl

theorem take_eq (h : tape.head + count ≤ limit) (hroom : tape.head + count ≤ tape.bits.length) :
    take limit count tape =
      .ok ((tape.bits.drop tape.head).take count) (tape.seek (tape.head + count)) := by
  change (ofExcept (add limit tape.head count) >>= _ : EStateM Stop BitTape (List Bool)) tape = _
  rw [add_eq_ok h]
  change (ofExcept (slice tape.bits tape.head (tape.head + count)) >>= _ :
    EStateM Stop BitTape (List Bool)) tape = _
  rw [slice_eq_ok (Nat.le_add_right ..) hroom, Nat.add_sub_cancel_left]
  rfl

theorem exhausted (hhead : tape.head ≤ tape.bits.length)
    (hroom : ¬ tape.head + count ≤ tape.bits.length) :
    Expected device endpoint received (.exhausted count tape.head tape.remaining) := by
  apply Expected.exhausted
  rw [BitTape.remaining]
  omega

theorem readNat_eq {width : Nat} (hwidth : width ≤ 64) (h : tape.head + width ≤ limit) :
    readNat limit width tape = if tape.head + width ≤ tape.bits.length then
        .ok (natOfBits ((tape.bits.drop tape.head).take width)) (tape.seek (tape.head + width))
      else .error (.error (.exhausted width tape.head tape.remaining)) tape := by
  rw [readNat]
  rw [if_neg (Nat.not_lt.2 hwidth)]
  change EStateM.bind (require limit width) _ tape = _
  rw [EStateM.bind, require_eq h]
  by_cases hroom : tape.head + width ≤ tape.bits.length
  · rw [if_pos hroom, if_pos hroom]
    exact run_bind_eq_ok_iff.2 ⟨_, _, take_eq h hroom, rfl⟩
  · rw [if_neg hroom, if_neg hroom]

theorem readNat_follows (hhead : tape.head ≤ tape.bits.length) {width : Nat} (hwidth : width ≤ 64)
    (h : tape.head + width ≤ limit) :
    Follows (Expected device endpoint received) (outcome (readNat limit width tape))
      (outcome (BitTape.readNat width tape)) := by
  rw [readNat_eq hwidth h, BitTape.readNat]
  rw [if_neg (Nat.not_lt.2 hwidth)]
  by_cases hroom : tape.head + width ≤ tape.bits.length
  · have hread : BitTape.read width tape = .ok _ _ := if_pos hroom
    rw [if_pos hroom]
    exact .of_ok (outcome_eq_ok_iff.2 (run_bind_eq_ok_iff.2 ⟨_, _, hread, rfl⟩)) rfl
  · have hread : BitTape.read width tape = .error _ tape := if_neg hroom
    rw [if_neg hroom, outcome_bind, hread]
    exact .error (exhausted hhead hroom)

theorem readAligned_follows (hhead : tape.head ≤ tape.bits.length)
    (h : tape.head + count + 8 ≤ limit) :
    Follows (Expected device endpoint received) (outcome (readAligned limit count tape))
      (outcome (BitTape.readAligned count tape)) := by
  have hbytes : count ≤ bytesFor count * 8 ∧ bytesFor count * 8 ≤ count + 8 := by
    rw [bytesFor]
    omega
  rw [readAligned, BitTape.readAligned]
  by_cases hroom : tape.head + count ≤ tape.bits.length
  · have hread : BitTape.read count tape = .ok _ _ := if_pos hroom
    have hrequire := (require_eq (show tape.head + count ≤ limit by omega)).trans (if_pos hroom)
    refine .of_ok (outcome_eq_ok_iff.2 (run_bind_eq_ok_iff.2 ⟨_, _, hread, rfl⟩))
      (outcome_eq_ok_iff.2 (run_bind_eq_ok_iff.2 ⟨_, _, hrequire, ?_⟩))
    rw [mul_eq_ok (by omega), ofExcept_ok_bind, sub_eq_ok hbytes.1, ofExcept_ok_bind,
      slice_eq_ok (Nat.sub_le ..) (by simp), ofExcept_ok_bind]
    refine run_bind_eq_ok_iff.2 ⟨_, _, take_eq (by omega) hroom, ?_⟩
    rw [copyOver_eq_ok (by simp; omega), ofExcept_ok_bind]
    have hpad : bytesFor count * 8 - count = padding count := by
      have := add_padding count
      omega
    have htaken : ((tape.bits.drop tape.head).take count).length = count := by
      rw [List.length_take, List.length_drop]
      omega
    rw [hpad, alignRight, htaken]
    rfl
  · have hread : BitTape.read count tape = .error _ tape := if_neg hroom
    have hrequire := (require_eq (show tape.head + count ≤ limit by omega)).trans (if_neg hroom)
    rw [outcome_bind, outcome_bind, hread, hrequire]
    exact .error (exhausted hhead hroom)

end Tape

/-- Whether the bits of a tape can be counted, and those of any value behind them. -/
def Room (limit : Nat) (front data : List UInt8) : Prop :=
  8 * (front.length + data.length) + 2 ^ 17 ≤ limit

theorem Room.head (h : Room limit front data) {tape : BitTape} (htape : tape = .behind front data) :
    tape.head ≤ tape.bits.length ∧ tape.head + 2 ^ 17 ≤ limit := by
  rw [Room] at h
  subst htape
  simp only [BitTape.behind, length_bitsOfBytes, List.length_append]
  omega

theorem Room.readByte_follows (h : Room limit front data) :
    Follows (Expected device endpoint received) (outcome (Tape.readByte limit (.behind front data)))
      (outcome (BitTape.readByte (.behind front data))) := by
  obtain ⟨hhead, hlimit⟩ := h.head rfl
  exact Tape.readNat_follows hhead (by decide) (by omega)

theorem Room.readBytes_follows (h : Room limit front data) (hcount : count ≤ 8192) :
    Follows (Expected device endpoint received)
      (outcome (Tape.readBytes limit count (.behind front data)))
      (outcome (BitTape.readWhole count (.behind front data))) := by
  obtain ⟨hhead, hlimit⟩ := h.head rfl
  rw [Tape.readBytes, BitTape.readWhole, mul_eq_ok (by omega), ofExcept_ok_bind, Nat.mul_comm]
  exact Tape.readAligned_follows hhead (by omega)

/-- The bits of a range; its end is the limit at most. -/
def range (limit : Nat) (bytes : List UInt8) (start length : Nat) : Run (List Bool) :=
  let stop := min (start + length) limit
  if 8 * bytes.length < stop then .error (.error (.outOfBounds start stop (8 * bytes.length)))
  else slice (bitsOfBytes bytes) start stop

def clear (limit : Nat) (bytes : List UInt8) (start length : Nat) : Run (List UInt8) := do
  let bits ← range limit bytes start length
  return Bits.overwrite bytes start (List.replicate bits.length false)

/-- Each bit that is added has a place among those that are there. -/
def merge (limit : Nat) (bytes : List UInt8) (start : Nat) (source : List UInt8)
    (sourceStart length : Nat) : Run (List UInt8) := do
  let added ← range limit source sourceStart length
  let bits ← slice (← range limit bytes start length) 0 added.length
  return Bits.overwrite bytes start (List.zipWith or bits added)

theorem range_eq_ok {bits : List Bool} (h : Bits.range value start length = .ok bits)
    (hlimit : start + length ≤ limit) : range limit value start length = .ok bits := by
  obtain ⟨hinside, rfl⟩ := Bits.range_eq_ok_iff.1 h
  unfold range
  dsimp only
  rw [Nat.min_eq_left hlimit, if_neg (Nat.not_lt.2 hinside),
    slice_eq_ok (Nat.le_add_right ..) (by rwa [length_bitsOfBytes]), Nat.add_sub_cancel_left]

theorem clear_eq_ok {result : List UInt8} (h : Bits.clear value start length = .ok result)
    (hlimit : start + length ≤ limit) : clear limit value start length = .ok result := by
  rw [Bits.clear, Bits.Edit.clear] at h
  obtain ⟨bits, hbits, h⟩ := bind_eq_ok_iff.1 ((Bits.update_eq ..).symm.trans h)
  rw [clear, range_eq_ok hbits hlimit]
  exact congrArg _ (Except.ok.inj h)

theorem merge_eq_ok {result : List UInt8}
    (h : Bits.merge value start source sourceStart length = .ok result)
    (hlimit : start + length ≤ limit) (hsource : sourceStart + length ≤ limit) :
    merge limit value start source sourceStart length = .ok result := by
  rw [Bits.merge_eq] at h
  obtain ⟨added, hadded, h⟩ := bind_eq_ok_iff.1 h
  rw [Bits.update_eq] at h
  obtain ⟨bits, hbits, h⟩ := bind_eq_ok_iff.1 h
  have hlength := Bits.length_of_range hadded
  have hlength' := Bits.length_of_range hbits
  rw [merge, range_eq_ok hadded hsource, ok_bind, range_eq_ok hbits hlimit, ok_bind,
    slice_zero (by omega), List.take_of_length_le (by omega)]
  exact congrArg _ (Except.ok.inj h)

def columnOfBytes (limit : Nat) (field : HeaderField) (value : List UInt8) : Run Column := do
  let bits ← mul limit value.length 8
  return ⟨field, bits % 65536, value⟩

def columnOf (limit : Nat) (f : RuleField) (value : List UInt8) : Run Column :=
  match f.length with
  | .fixed bits => .ok ⟨f.field, bits, value⟩
  | _ => columnOfBytes limit f.field value

theorem columnOfBytes_eq_ok {field : HeaderField} (h : 8 * value.length ≤ limit) :
    columnOfBytes limit field value = .ok (.ofBytes field value) := by
  rw [columnOfBytes, mul_eq_ok (by omega), Nat.mul_comm]
  rfl

theorem columnOf_eq_ok (h : 8 * value.length ≤ limit) :
    columnOf limit f value = .ok (f.columnOf value) := by
  rw [columnOf, RuleField.columnOf]
  cases f.length with
  | fixed bits => rfl
  | token => exact columnOfBytes_eq_ok h
  | «variable» => exact columnOfBytes_eq_ok h

def readValue (limit : Nat) (f : RuleField) (previous : List Column) :
    EStateM Stop BitTape Column := do
  match f.length with
  | .fixed bits =>
    let value ← Tape.readBytes limit (bytesFor bits)
    let unused ← ofExcept (sub (← ofExcept (mul limit value.length 8)) bits)
    return ⟨f.field, bits, ← ofExcept (clear limit value 0 unused)⟩
  | .token =>
    match Column.find? previous .coapTokenLength with
    | none => throw (.error (.decompression .tokenBeforeLength))
    | some announced =>
      let value ← Tape.readBytes limit announced.toNat
      ofExcept (columnOfBytes limit f.field value)
  | .variable =>
    let length ← Tape.readByte limit
    let value ← Tape.readBytes limit length
    ofExcept (columnOfBytes limit f.field value)

def readMapping (limit : Nat) (f : RuleField) : EStateM Stop BitTape Column := do
  match f.target.list? with
  | none => throw (.error (.decompression (.noMapping f.field)))
  | some values =>
    let index ← Tape.readByte limit
    match values[index]? with
    | none => throw (.error (.decompression (.mappingIndex f.field index values.length)))
    | some value => ofExcept (columnOf limit f value)

/-- The width of the low bits may be cut off at zero, the places where they stand may not. -/
def readLowBits (limit : Nat) (f : RuleField) : EStateM Stop BitTape Column := do
  match f.operator, f.target.single? with
  | .msb count, some target =>
    let bits ← ofExcept (lift f.requireBits)
    let width := bits - count
    let targetBits ← ofExcept (mul limit target.length 8)
    let start ← ofExcept (sub targetBits width)
    let cleared ← ofExcept (clear limit target start width)
    let received ← Tape.readBytes limit (bytesFor width)
    let receivedBits ← ofExcept (mul limit received.length 8)
    let receivedStart ← ofExcept (sub receivedBits width)
    let value ← ofExcept (merge limit cleared start received receivedStart width)
    return ⟨f.field, bits, value⟩
  | _, _ => throw (.error (.decompression (.lsbWithoutTarget f.field)))

def onTape {α : Type} (read : EStateM Stop BitTape α) : EStateM Stop Decoder α := fun decoder =>
  match read decoder.tape with
  | .ok a tape => .ok a { decoder with tape }
  | .error stop tape => .error stop { decoder with tape }

def restoreTarget (limit : Nat) (f : RuleField) : Run Column :=
  match f.target.single? with
  | none => .error (.error (.decompression (.noTarget f.field)))
  | some value => columnOf limit f value

def restoreField (limit : Nat) (f : RuleField) (endpoint : Endpoint) (previous : List Column) :
    EStateM Stop Decoder Column := do
  match f.action with
  | .notSent => ofExcept (restoreTarget limit f)
  | .valueSent => onTape (readValue limit f previous)
  | .mappingSent => onTape (readMapping limit f)
  | .lsb => onTape (readLowBits limit f)
  | .computeLength =>
    modify Decoder.leaveLength
    ofExcept (lift f.placeholder)
  | .computeChecksum =>
    modify Decoder.leaveChecksum
    ofExcept (lift f.placeholder)
  | .devIid =>
    match endpoint.interfaceId? with
    | none => throw (.error (.decompression .noDeviceAddress))
    | some iid => ofExcept (columnOfBytes limit f.field iid)
  | .appIid => throw (.error .appIid)

def restoreFields (limit : Nat) (endpoint : Endpoint) (fields : List RuleField)
    (previous : List Column) : EStateM Stop Decoder (List Column) :=
  fields.foldlM (fun columns f => do
    return columns ++ [← restoreField limit f endpoint columns]) previous

def restore (limit : Nat) (rule : Rule) (endpoint : Endpoint) :
    EStateM Stop Decoder (List Column) :=
  restoreFields limit endpoint (rule.fieldsFor endpoint.direction) []

/-- The token length that has been restored, if there is one, fits its half byte. -/
def Announces (previous : List Column) : Prop :=
  ∀ announced, Column.find? previous .coapTokenLength = some announced → announced.toNat < 16

theorem onTape_follows {α : Type} {read : EStateM Stop BitTape α} {plain : EStateM Error BitTape α}
    {decoder : Decoder} (h : Follows (Expected device endpoint received)
      (outcome (read decoder.tape)) (outcome (plain decoder.tape))) :
    Follows (Expected device endpoint received) (outcome (onTape read decoder))
      (outcome (Decoder.onTape plain decoder)) := by
  have hmap := h.map fun (x, tape) => (x, ({ decoder with tape } : Decoder))
  rw [onTape, Decoder.onTape]
  cases hrun : read decoder.tape <;> cases hplain : plain decoder.tape <;>
    rw [hrun, hplain] at hmap <;> exact hmap

theorem Announces.nil : Announces [] := by
  intro announced h
  cases h

section Fields

variable (hwf : f.WellFormed) (hroom : Room limit front data)

theorem bytesFor_le {bits : Nat} (h : bits < 65536) : bytesFor bits ≤ 8192 := by
  rw [bytesFor]
  omega

include hwf hroom in
theorem readValue_follows (hprevious : Announces previous) :
    Follows (Expected device endpoint received)
      (outcome (readValue limit f previous (.behind front data)))
      (outcome (f.readValue previous (.behind front data))) := by
  have hlimit : 2 ^ 17 ≤ limit := (Nat.le_add_left ..).trans hroom
  rw [readValue, RuleField.readValue]
  cases hlength : f.length with
  | fixed bits =>
    have hbytes := bytesFor_le (hwf.narrow bits hlength)
    refine (hroom.readBytes_follows hbytes).run_bind fun unit tape hread => ?_
    obtain ⟨rest, rfl, hunit, rfl⟩ := BitTape.readWhole_eq_ok_iff.1 hread
    have hpad := add_padding bits
    have hclear := clear_unused hunit
    rw [mul_eq_ok (by omega), ofExcept_ok_bind, Nat.mul_comm, sub_eq_ok (by omega),
      ofExcept_ok_bind, clear_eq_ok hclear (by omega), hclear]
    exact .ok _
  | token =>
    dsimp only
    cases hfind : Column.find? previous .coapTokenLength with
    | none => exact .error .tokenBeforeLength
    | some announced =>
      have hsmall := hprevious announced hfind
      refine (hroom.readBytes_follows (by omega)).run_bind fun unit tape hread => ?_
      obtain ⟨rest, rfl, hunit, rfl⟩ := BitTape.readWhole_eq_ok_iff.1 hread
      rw [columnOfBytes_eq_ok (by omega)]
      exact .ok _
  | «variable» =>
    refine hroom.readByte_follows.run_bind fun n tape hread => ?_
    obtain ⟨byte, data, rfl, rfl, rfl⟩ := BitTape.readByte_eq_ok_iff.1 hread
    have hbyte := byte.toNat_lt
    have hroom' : Room limit (front ++ [byte]) data := by
      rw [Room] at hroom ⊢
      simp only [List.length_append, List.length_cons, List.length_nil] at hroom ⊢
      omega
    refine (hroom'.readBytes_follows (by omega)).run_bind fun unit tape hread => ?_
    obtain ⟨rest, rfl, hunit, rfl⟩ := BitTape.readWhole_eq_ok_iff.1 hread
    rw [columnOfBytes_eq_ok (by omega)]
    exact .ok _

variable (htargets : ∀ value ∈ f.target.values, 8 * value.length ≤ limit)

include hwf hroom htargets in
theorem readMapping_follows (haction : f.action = .mappingSent) :
    Follows (Expected device endpoint received)
      (outcome (readMapping limit f (.behind front data)))
      (outcome (f.readMapping (.behind front data))) := by
  obtain ⟨values, htarget, -⟩ := hwf.mapping (hwf.mappingSent haction)
  rw [readMapping, RuleField.readMapping, TargetValue.list?_eq_some_iff.2 htarget]
  refine hroom.readByte_follows.run_bind fun n tape hread => ?_
  obtain ⟨byte, data, rfl, rfl, rfl⟩ := BitTape.readByte_eq_ok_iff.1 hread
  cases hvalue : values[byte.toNat]? with
  | none => exact .error (.mappingIndex (List.getElem?_eq_none_iff.1 hvalue))
  | some value =>
    have hmem : value ∈ f.target.values := by
      rw [htarget]
      exact List.mem_of_getElem? hvalue
    dsimp only
    rw [columnOf_eq_ok (htargets value hmem)]
    exact .ok _

include hwf hroom htargets in
theorem readLowBits_follows (haction : f.action = .lsb) :
    Follows (Expected device endpoint received)
      (outcome (readLowBits limit f (.behind front data)))
      (outcome (f.readLowBits (.behind front data))) := by
  obtain ⟨count, known, hoperator, hlength, htarget, hcount⟩ := hwf.exists_known haction
  have hnarrow := hwf.narrow _ hlength
  have hlimit : 2 ^ 17 ≤ limit := (Nat.le_add_left ..).trans hroom
  have hsize := htargets (alignRight known) (by simp [htarget, TargetValue.values])
  have hpad := (fitsWidth_alignRight known).add_padding
  have hclear := clear_low hcount
  have hbytes : bytesFor (known.length - count) ≤ 8192 := bytesFor_le (by omega)
  rw [readLowBits, RuleField.readLowBits, hoperator, htarget]
  dsimp only [TargetValue.single?]
  rw [RuleField.requireBits_eq_ok hlength]
  change Follows _ (outcome ((ofExcept (mul limit (alignRight known).length 8) >>= _ :
    EStateM Stop BitTape Column) _)) _
  rw [mul_eq_ok (by omega), ofExcept_ok_bind, Nat.mul_comm, sub_eq_ok (by omega),
    ofExcept_ok_bind, clear_eq_ok hclear (by omega), ofExcept_ok_bind]
  change Follows _ _ (outcome ((ofExcept (Bits.clear (alignRight known) _ _) >>= _ :
    EStateM Error BitTape Column) _))
  rw [hclear]
  refine (hroom.readBytes_follows hbytes).run_bind fun unit tape hread => ?_
  obtain ⟨rest, rfl, hunit, rfl⟩ := BitTape.readWhole_eq_ok_iff.1 hread
  have hunitPad := add_padding (known.length - count)
  have hmerge := merge_used hcount hunit
  rw [mul_eq_ok (by omega), ofExcept_ok_bind, Nat.mul_comm, sub_eq_ok (by omega),
    ofExcept_ok_bind, merge_eq_ok hmerge (by omega) (by omega), hmerge]
  exact .ok _

include hwf hroom htargets in
theorem restoreField_follows (hprevious : Announces previous) (pending : Packet.Pending) :
    Follows (Expected device endpoint received)
      (outcome (restoreField limit f endpoint previous (.behind front data pending)))
      (outcome (f.restore endpoint previous (.behind front data pending))) := by
  unfold restoreField RuleField.restore
  cases haction : f.action with
  | notSent =>
    obtain ⟨value, htarget⟩ := hwf.notSent haction
    have hsize := htargets value (by simp [htarget, TargetValue.values])
    rw [restoreTarget, RuleField.restoreTarget, htarget]
    dsimp only [TargetValue.single?]
    rw [columnOf_eq_ok hsize]
    exact .ok _
  | valueSent => exact onTape_follows (readValue_follows hwf hroom hprevious)
  | mappingSent => exact onTape_follows (readMapping_follows hwf hroom htargets haction)
  | lsb => exact onTape_follows (readLowBits_follows hwf hroom htargets haction)
  | computeLength | computeChecksum =>
    have hlength := hwf.length_of_isComputed (by simp [RuleField.isComputed, haction])
    have hplaceholder : f.placeholder = .ok _ :=
      bind_eq_ok_iff.2 ⟨_, RuleField.requireBits_eq_ok hlength, rfl⟩
    rw [hplaceholder]
    exact .ok _
  | devIid =>
    cases haddress : endpoint.address? with
    | none =>
      have hiid : endpoint.interfaceId? = none := by rw [Endpoint.interfaceId?, haddress]; rfl
      rw [hiid]
      exact .error (.noDeviceAddress haddress)
    | some address =>
      have hiid : endpoint.interfaceId? = some address.interfaceId := by
        rw [Endpoint.interfaceId?, haddress]
        rfl
      have hlimit : 2 ^ 17 ≤ limit := (Nat.le_add_left ..).trans hroom
      have hsize := address.length_interfaceId
      rw [hiid]
      dsimp only
      rw [columnOfBytes_eq_ok (by omega)]
      exact .ok _
  | appIid => exact .error .appIid

end Fields

theorem of_find?_eq_some {columns : List Column} {column : Column} {field : HeaderField}
    (h : Column.find? columns field = some column) : column.field = field ∧ column ∈ columns := by
  have hfield := List.find?_some h
  exact ⟨eq_of_beq hfield, List.mem_of_find?_eq_some h⟩

theorem Announces.append {column : Column} {unit : List UInt8} (h : Announces previous)
    (hwf : f.WellFormed) (hreads : f.Reads endpoint previous unit column) :
    Announces (previous ++ [column]) := by
  intro announced hfind
  rw [Column.find?, List.find?_append] at hfind
  cases hbefore : previous.find? (·.field == .coapTokenLength) with
  | some before =>
    rw [hbefore] at hfind
    cases hfind
    exact h _ hbefore
  | none =>
    rw [hbefore, Option.none_or] at hfind
    obtain ⟨hsome, hmem⟩ := of_find?_eq_some hfind
    obtain rfl := List.mem_singleton.1 hmem
    have hfield : f.field = .coapTokenLength := hreads.field_eq.symm.trans hsome
    have hfits := (hreads.fitsWidth hwf (hwf.width 4 (by rw [hfield]; rfl))).2
    rw [Column.toNat_eq (by rw [hfits.1, bytesFor]; decide)]
    exact hfits.2

theorem restoreFields_follows {fields : List RuleField} (hwf : ∀ f ∈ fields, f.WellFormed)
    (htargets : ∀ f ∈ fields, ∀ value ∈ f.target.values, 8 * value.length ≤ limit)
    (hroom : Room limit front data) (hprevious : Announces previous) :
    Follows (Expected device endpoint received)
      (outcome (restoreFields limit endpoint fields previous (.behind front data pending)))
      (outcome (FieldPair.restoreAll endpoint fields previous (.behind front data pending))) := by
  induction fields generalizing previous front data pending with
  | nil => exact .ok _
  | cons f fields ih =>
    obtain ⟨hf, hfields⟩ := List.forall_mem_cons.1 hwf
    obtain ⟨hfTargets, hfieldsTargets⟩ := List.forall_mem_cons.1 htargets
    rw [restoreFields, FieldPair.restoreAll, List.foldlM_cons, List.foldlM_cons]
    have hfield : Follows (Expected device endpoint received) _ _ :=
      restoreField_follows hf hroom hfTargets hprevious pending
    refine (hfield.run_bind fun column decoder _ => .ok _).run_bind fun columns decoder hstep => ?_
    obtain ⟨column, _, hrun, hstep⟩ := run_bind_eq_ok_iff.1 hstep
    cases hstep
    obtain ⟨unit, rest, rfl, hreads, rfl⟩ := hf.restore_eq_ok_iff.1 hrun
    apply ih hfields hfieldsTargets
    · rw [Room] at hroom ⊢
      simp only [List.length_append] at hroom ⊢
      omega
    · exact hprevious.append hf hreads

theorem restore_follows {rule : Rule} (hwf : rule.WellFormed)
    (htargets : ∀ f ∈ rule.fields, ∀ value ∈ f.target.values, 8 * value.length ≤ limit)
    (hroom : Room limit [] data) :
    Follows (Expected device endpoint received)
      (outcome (restore limit rule endpoint (.ofBytes data pending)))
      (outcome (rule.restore endpoint (.ofBytes data pending))) :=
  restoreFields_follows (fun f hf => hwf f (List.mem_of_mem_filter hf))
    (fun f hf => htargets f (List.mem_of_mem_filter hf)) hroom Announces.nil

end HeaderCompression.Checked
