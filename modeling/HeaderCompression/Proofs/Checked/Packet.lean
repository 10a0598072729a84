import HeaderCompression.Proofs.Checked.Completion
import HeaderCompression.Proofs.Checked.Header
import HeaderCompression.Proofs.Checked.Size
import HeaderCompression.Proofs.Packet.Truncation

namespace HeaderCompression.Checked

variable {device : Device} {endpoint : Endpoint} {received data body message : List UInt8}
  {layer : Layer} {rule : Rule} {rule? : Option Rule} {selection : Selection} {limit n : Nat}
  {columns : List Column} {direction : Direction} {pending pending' : Packet.Pending}
  {fields : List RuleField}

/-- No number of a run on some data is larger. -/
def demand (device : Device) (data : List UInt8) : Nat :=
  8 * (data.length + deviceRoom device) + 2 ^ 17

def residueLength (limit : Nat) (rule : Rule) (direction : Direction) : Run Nat :=
  (rule.fieldsFor direction).foldlM (fun total f => do
    add limit total (← lift f.residueLength)) 0

def partLength (limit : Nat) (rule? : Option Rule) (direction : Direction) (verbatim : Nat) :
    Run Nat :=
  match rule? with
  | none => .ok verbatim
  | some rule => residueLength limit rule direction

/-- What is reported of a part that is missing is computed before it is looked for. -/
def partAt (limit : Nat) (body : List UInt8) (start length : Nat) : Run (List UInt8) := do
  let stop ← add limit start length
  let needed ← mul limit length 8
  let position ← mul limit start 8
  let remaining ← mul limit (body.length - start) 8
  if stop ≤ body.length then slice body start stop
  else throw (.error (.exhausted needed position remaining))

def restoreColumns (limit : Nat) (rule : Rule) (endpoint : Endpoint) (data : List UInt8)
    (pending : Packet.Pending) : Run (List Column × Decoder) :=
  outcome (restore limit rule endpoint (.ofBytes data pending))

def header (limit : Nat) (layer : Layer) (direction : Direction) (columns : List Column) :
    Run (List UInt8) :=
  match layer with
  | .network => ipv6Header limit direction columns
  | .transport => udpHeader limit direction columns
  | .application => coapHeader limit columns

def restoreHeader (limit : Nat) (layer : Layer) (rule? : Option Rule) (endpoint : Endpoint)
    (data : List UInt8) (pending : Packet.Pending) : Run (List UInt8 × Packet.Pending) :=
  match rule? with
  | none => .ok (data, pending)
  | some rule => do
    let (columns, decoder) ← restoreColumns limit rule endpoint data pending
    return (← header limit layer endpoint.direction columns, decoder.pending)

def restoreMessage (limit : Nat) (rule? : Option Rule) (endpoint : Endpoint) (data : List UInt8)
    (pending : Packet.Pending) : Run (List UInt8 × Packet.Pending) :=
  match rule? with
  | none => .ok (data, pending)
  | some rule => do
    let (columns, decoder) ← restoreColumns limit rule endpoint data pending
    let header ← coapHeader limit columns
    let payload ← slice data decoder.tape.byteHead data.length
    return (header ++ payload, decoder.pending)

def restoreParts (limit : Nat) (ipv6Rule? udpRule? coapRule? : Option Rule) (endpoint : Endpoint)
    (ipv6 udp coap : List UInt8) : Run (List UInt8) := do
  let (coap, pending) ← restoreMessage limit coapRule? endpoint coap .none
  let (udp, pending) ← restoreHeader limit .transport udpRule? endpoint udp pending
  let (ipv6, pending) ← restoreHeader limit .network ipv6Rule? endpoint ipv6 pending
  let headers ← add limit ipv6.length udp.length
  discard (add limit headers coap.length)
  return (← outcome (complete limit pending (ipv6 ++ udp ++ coap))).2

def restorePacket (limit : Nat) (device : Device) (endpoint : Endpoint) (selection : Selection)
    (body : List UInt8) : Run (List UInt8) := do
  let ipv6Rule? ← lift (selection.network?.mapM (device.rule .network))
  let udpRule? ← lift (selection.transport?.mapM (device.rule .transport))
  let coapRule? ← lift (selection.application?.mapM (device.rule .application))
  let ipv6Length ← partLength limit ipv6Rule? endpoint.direction ipv6HeaderLength
  let udpLength ← partLength limit udpRule? endpoint.direction udpHeaderLength
  let ipv6Part ← partAt limit body 0 ipv6Length
  let udpPart ← partAt limit body ipv6Length udpLength
  let headers ← add limit ipv6Length udpLength
  let coapPart ← slice body headers body.length
  restoreParts limit ipv6Rule? udpRule? coapRule? endpoint ipv6Part udpPart coapPart

/-- Whether the front of the tape is the code, without the bits of its id that do not fit. A tape
that is too short is not an error. -/
def leads (limit : Nat) (code : RuleCode) (tape : BitTape) : Run Bool := do
  let mask ← sub (← shiftLeft 64 1 code.length) 1
  match Tape.readNat limit code.length (tape.seek 0) with
  | .ok n _ => return n == code.id &&& mask
  | .error (.error _) _ => return false
  | .error stop _ => throw stop

def matchCode (limit : Nat) (device : Device) (data : List UInt8) : Run CodeMatch := do
  if data.isEmpty then throw (.error (.decompression .empty))
  let tape := BitTape.ofBytes data
  match ← device.codeMatches.findM? fun (code, _) => leads limit code tape with
  | none => throw (.error .unknownCode)
  | some (_, result) => return result

def decompress (limit : Nat) (device : Device) (endpoint : Endpoint) (data : List UInt8) :
    Run RestoredPacket :=
  match device.mode with
  | .layered =>
    match data.head? with
    | none => .error (.error (.decompression .empty))
    | some first => do
      let body ← slice data 1 data.length
      let id := LayeredId.ofByte first
      return ⟨← restorePacket limit device endpoint id.selection body, ⟨first.toNat, 8⟩, some id⟩
  | .composite => do
    match ← matchCode limit device data with
    | .uncompressed =>
      let packet ← slice data device.uncompressed.byteCount data.length
      return ⟨packet, device.uncompressed, none⟩
    | .composite rule =>
      let body ← slice data rule.code.byteCount data.length
      return ⟨← restorePacket limit device endpoint rule.selection body, rule.code, none⟩

theorem exists_residueLengths (limit : Nat) (h : ∀ f ∈ fields, ∃ n ≤ 8, f.residueLength = .ok n) :
    ∃ lengths, fields.mapM (·.residueLength) = .ok lengths ∧ lengths.sum ≤ 8 * fields.length ∧
      ∀ total, total + 8 * fields.length ≤ limit →
        fields.foldlM (fun total f => do add limit total (← lift f.residueLength)) total =
          .ok (total + lengths.sum) := by
  induction fields with
  | nil => exact ⟨[], rfl, Nat.le_refl _, fun _ _ => rfl⟩
  | cons f fields ih =>
    obtain ⟨⟨n, hn, hlength⟩, hfields⟩ := List.forall_mem_cons.1 h
    obtain ⟨lengths, hlengths, hsum, hfold⟩ := ih hfields
    refine ⟨n :: lengths, ?_, ?_, fun total htotal => ?_⟩
    · rw [List.mapM_cons, hlength, hlengths]
      rfl
    · rw [List.sum_cons, List.length_cons]
      omega
    · rw [List.length_cons] at htotal
      rw [List.foldlM_cons, hlength, List.sum_cons, ← Nat.add_assoc]
      change (add limit total n >>= _) = _
      rw [add_eq_ok (by omega), ok_bind, hfold _ (by omega)]

theorem partAt_follows {start length : Nat} (hstart : start ≤ 80) (hlength : length ≤ 80)
    (hbody : start ≤ body.length) (hlimit : 8 * body.length + 2 ^ 17 ≤ limit) :
    Follows (Expected device endpoint received) (partAt limit body start length)
      (HeaderCompression.partAt body start length) := by
  rw [partAt, HeaderCompression.partAt]
  rw [add_eq_ok (by omega), ok_bind, mul_eq_ok (by omega), ok_bind, mul_eq_ok (by omega), ok_bind,
    mul_eq_ok (by omega), ok_bind]
  by_cases hinside : start + length ≤ body.length
  · rw [if_pos hinside, if_pos hinside, slice_eq_ok (Nat.le_add_right ..) hinside,
      Nat.add_sub_cancel_left]
    exact .ok _
  · rw [if_neg hinside, if_neg hinside, Nat.mul_comm length, Nat.mul_comm start,
      Nat.mul_comm (body.length - start)]
    exact .error (.exhausted (by omega))

theorem restoreColumns_eq (rule : Rule) (endpoint : Endpoint) (data : List UInt8)
    (pending : Packet.Pending) : HeaderCompression.restoreColumns rule endpoint data pending =
      outcome (rule.restore endpoint (.ofBytes data pending)) := by
  rw [HeaderCompression.restoreColumns]
  cases rule.restore endpoint (.ofBytes data pending) <;> rfl

/-- A rule that is named is looked up; whether it has to be there depends on what names it. -/
theorem rule?_follows {id? : Option Nat}
    (h : ∀ id error, id? = some id → device.rule layer id = .error error →
      Expected device endpoint received error) :
    Follows (Expected device endpoint received) (lift (id?.mapM (device.rule layer)))
      (id?.mapM (device.rule layer)) := by
  apply Follows.lift
  intro error herror
  cases id? with
  | none => cases herror
  | some id =>
    change some <$> device.rule layer id = _ at herror
    cases hrule : device.rule layer id with
    | ok rule =>
      rw [hrule] at herror
      cases herror
    | error fault =>
      rw [hrule] at herror
      cases herror
      exact h id _ rfl hrule

section Layers

variable (haccepted : device.Accepted) (hlimit : demand device received ≤ limit)

include haccepted hlimit in
theorem partLength_eq_ok (hrule : ∀ rule ∈ rule?, rule ∈ device.rules layer)
    (hlayer : layer ≠ .application) {verbatim : Nat} (hverbatim : verbatim ≤ 80)
    (direction : Direction) :
    ∃ n ≤ 80, HeaderCompression.partLength rule? direction verbatim = .ok n ∧
      partLength limit rule? direction verbatim = .ok n := by
  cases rule? with
  | none => exact ⟨verbatim, hverbatim, rfl, rfl⟩
  | some rule =>
    have hmem := hrule rule rfl
    -- Ten fields at most, and eight bytes of residue for each of them.
    have hcount : (rule.fieldsFor direction).length ≤ 10 := by
      cases layer with
      | network =>
        have hfields := haccepted.map_field_fieldsFor hmem rfl direction
        rw [← List.length_map (·.field), hfields]
        decide
      | transport =>
        have hfields := haccepted.map_field_fieldsFor hmem rfl direction
        rw [← List.length_map (·.field), hfields]
        decide
      | application => exact (hlayer rfl).elim
    obtain ⟨lengths, hlengths, hsum, hfold⟩ := exists_residueLengths limit
      (haccepted.residueLengths_le hmem hlayer direction)
    rw [demand] at hlimit
    have hrun := hfold 0 (by omega)
    rw [Nat.zero_add] at hrun
    refine ⟨lengths.sum, by omega, ?_, hrun⟩
    exact bind_eq_ok_iff.2 ⟨lengths, hlengths, congrArg Except.ok List.sum_eq_foldl.symm⟩

include haccepted hlimit in
theorem restoreColumns_follows (hrule : rule ∈ device.rules layer)
    (hdata : data.length ≤ received.length) (pending : Packet.Pending) :
    Follows (Expected device endpoint received) (restoreColumns limit rule endpoint data pending)
      (HeaderCompression.restoreColumns rule endpoint data pending) := by
  rw [demand] at hlimit
  rw [restoreColumns_eq]
  apply restore_follows (haccepted.wellFormed layer rule hrule)
  · intro f hf value hvalue
    have hfield := fieldRoom_le hf
    have hroom := ruleRoom_le hrule
    have hlength := length_le_fieldRoom hvalue
    omega
  · rw [Room, List.length_nil]
    omega

include haccepted hlimit in
theorem restoreHeader_follows (hlayer : layer ≠ .application)
    (hrule : ∀ rule ∈ rule?, rule ∈ device.rules layer) (hdata : data.length ≤ received.length)
    (pending : Packet.Pending) :
    Follows (Expected device endpoint received)
      (restoreHeader limit layer rule? endpoint data pending)
      (HeaderCompression.restoreHeader layer rule? endpoint data pending) := by
  cases rule? with
  | none => exact .ok _
  | some rule =>
    have hmem := hrule rule rfl
    refine (restoreColumns_follows haccepted hlimit hmem hdata pending).bind fun result hresult => ?_
    obtain ⟨columns, decoder⟩ := result
    have hcanonical :=
      haccepted.canonical_of_restore hmem hlayer (restoreColumns_eq_ok_iff.1 hresult)
    have hwide : 2 ^ 17 ≤ limit := (Nat.le_add_left ..).trans hlimit
    have hheader : Follows (Expected device endpoint received)
        (header limit layer endpoint.direction columns)
        (layer.header endpoint.direction columns) := by
      cases layer with
      | network => exact ipv6Header_follows hwide hcanonical _
      | transport => exact udpHeader_follows hwide hcanonical _
      | application => exact (hlayer rfl).elim
    exact hheader.bind fun header _ => .ok _

include haccepted hlimit in
theorem restoreMessage_follows (hrule : ∀ rule ∈ rule?, rule ∈ device.rules .application)
    (hdata : data.length ≤ received.length) (pending : Packet.Pending) :
    Follows (Expected device endpoint received) (restoreMessage limit rule? endpoint data pending)
      (HeaderCompression.restoreMessage rule? endpoint data pending) := by
  cases rule? with
  | none => exact .ok _
  | some rule =>
    have hmem := hrule rule rfl
    refine (restoreColumns_follows haccepted hlimit hmem hdata pending).bind fun result hresult => ?_
    obtain ⟨columns, decoder⟩ := result
    have hrestore := restoreColumns_eq_ok_iff.1 hresult
    have hroom := room_of_restore haccepted hmem hrestore
    have hhead := (haccepted.wellFormed _ rule hmem).byteHead_le hrestore
    obtain ⟨units, hread⟩ := haccepted.exists_readAll hmem hrestore
    have hfields : ∀ column ∈ columns, column.field.layer = .application := by
      intro column hcolumn
      obtain ⟨f, hf, _, _, hreads⟩ := hread.exists_reads hcolumn
      rw [hreads.field_eq]
      exact haccepted.field_layer hmem f (List.mem_of_mem_filter hf)
    rw [demand] at hlimit
    refine (coapHeader_follows hfields (by omega)).bind fun header _ => ?_
    rw [slice_length hhead]
    exact .ok _

include haccepted in
theorem length_of_restoreMessage (hrule : ∀ rule ∈ rule?, rule ∈ device.rules .application)
    (h : HeaderCompression.restoreMessage rule? endpoint data pending = .ok (message, pending')) :
    message.length ≤ 13 + deviceRoom device + data.length := by
  cases rule? with
  | none =>
    cases h
    omega
  | some rule =>
    obtain ⟨⟨columns, decoder⟩, hrun, h⟩ := bind_eq_ok_iff.1 h
    obtain ⟨header, hheader, h⟩ := bind_eq_ok_iff.1 h
    cases h
    have hroom := room_of_restore haccepted (hrule rule rfl) (restoreColumns_eq_ok_iff.1 hrun)
    have hlength := CoapHeader.length_of_ofColumns hheader
    rw [List.length_append, List.length_drop]
    omega

include haccepted hlimit in
theorem restoreParts_follows {ipv6Rule? udpRule? coapRule? : Option Rule}
    {ipv6 udp coap : List UInt8} (hrules : device.Resolves selection ipv6Rule? udpRule? coapRule?)
    (hipv6 : ipv6Rule? = none → ipv6.length = 40) (hudp : udpRule? = none → udp.length = 8)
    (hipv6Data : ipv6.length ≤ received.length) (hudpData : udp.length ≤ received.length)
    (hcoapData : coap.length ≤ received.length) :
    Follows (Expected device endpoint received)
      (restoreParts limit ipv6Rule? udpRule? coapRule? endpoint ipv6 udp coap)
      (HeaderCompression.restoreParts ipv6Rule? udpRule? coapRule? endpoint ipv6 udp coap) := by
  refine (restoreMessage_follows haccepted hlimit hrules.mem_application hcoapData
    .none).bind fun result hresult => ?_
  obtain ⟨message, pending⟩ := result
  have hlength := length_of_restoreMessage haccepted hrules.mem_application hresult
  refine (restoreHeader_follows haccepted hlimit (by decide) hrules.mem_transport hudpData
    pending).bind fun result hresult => ?_
  obtain ⟨middle, pending'⟩ := result
  have hmiddle : middle.length = 8 :=
    length_of_restoreHeader hudp (fun _ _ => length_of_header_transport) hresult
  refine (restoreHeader_follows haccepted hlimit (by decide) hrules.mem_network hipv6Data
    pending').bind fun result hresult => ?_
  obtain ⟨front, pending''⟩ := result
  have hfront : front.length = 40 :=
    length_of_restoreHeader hipv6 (fun _ _ => length_of_header_network) hresult
  have hpacket : (front ++ middle ++ message).length = 48 + message.length := by
    rw [List.length_append, List.length_append, hfront, hmiddle]
  rw [demand] at hlimit
  dsimp only
  rw [add_eq_ok (by omega), ok_bind, add_eq_ok (by omega)]
  have hcomplete : Follows (Expected device endpoint received)
      (outcome (complete limit pending'' (front ++ middle ++ message)))
      (outcome (Packet.complete pending'' (front ++ middle ++ message))) :=
    complete_follows pending'' (by omega) (by omega)
  have hpacket := hcomplete.map (·.2)
  cases hplain : Packet.complete pending'' (front ++ middle ++ message) with
  | ok _ packet =>
    rw [hplain] at hpacket
    exact hpacket
  | error error packet =>
    rw [hplain] at hpacket
    exact hpacket

include haccepted hlimit in
theorem restorePacket_follows (hbody : body.length ≤ received.length)
    (hfound : ∀ layer id error, selection.layer? layer = some id →
      device.rule layer id = .error error → Expected device endpoint received error) :
    Follows (Expected device endpoint received)
      (restorePacket limit device endpoint selection body)
      (HeaderCompression.restorePacket device endpoint selection body) := by
  have hlookup (layer : Layer) := rule?_follows (hfound layer)
  rw [restorePacket_eq]
  refine (hlookup .network).bind fun ipv6Rule? hnetwork => ?_
  refine (hlookup .transport).bind fun udpRule? htransport => ?_
  refine (hlookup .application).bind fun coapRule? happlication => ?_
  have hrules : device.Resolves selection ipv6Rule? udpRule? coapRule? :=
    ⟨hnetwork, htransport, happlication⟩
  obtain ⟨ipv6Length, hipv6Small, hipv6Plain, hipv6Run⟩ := partLength_eq_ok haccepted hlimit
    hrules.mem_network (by decide) (show ipv6HeaderLength ≤ 80 by decide) endpoint.direction
  obtain ⟨udpLength, hudpSmall, hudpPlain, hudpRun⟩ := partLength_eq_ok haccepted hlimit
    hrules.mem_transport (by decide) (show udpHeaderLength ≤ 80 by decide) endpoint.direction
  have hbits : 8 * body.length + 2 ^ 17 ≤ limit := by
    rw [demand] at hlimit
    omega
  rw [hipv6Plain, hipv6Run, hudpPlain, hudpRun]
  refine (partAt_follows (Nat.zero_le _) hipv6Small (Nat.zero_le _) hbits).bind
    fun ipv6Part hipv6 => ?_
  obtain ⟨hipv6Body, rfl⟩ := partAt_eq_ok_iff.1 hipv6
  refine (partAt_follows hipv6Small hudpSmall (by omega) hbits).bind fun udpPart hudp => ?_
  obtain ⟨hudpBody, rfl⟩ := partAt_eq_ok_iff.1 hudp
  -- Both parts are there, so the rest of the body starts inside of it.
  rw [add_eq_ok (by omega), ok_bind, slice_length hudpBody, ok_bind]
  apply restoreParts_follows haccepted hlimit hrules
  · rintro rfl
    exact length_part_of_none 0 hipv6Plain hipv6Body
  · rintro rfl
    exact length_part_of_none ipv6Length hudpPlain hudpBody
  · exact ((List.take_sublist ..).trans (List.drop_sublist ..)).length_le.trans hbody
  · exact ((List.take_sublist ..).trans (List.drop_sublist ..)).length_le.trans hbody
  · exact (List.drop_sublist ..).length_le.trans hbody

end Layers

theorem leads_eq_ok {code : RuleCode} (hlength : code.length ≤ 32) (hlimit : 2 ^ 17 ≤ limit)
    (data : List UInt8) :
    leads limit code (.ofBytes data) = .ok (code.leads (bitsOfBytes (data.take 8))) := by
  have hshift : shiftLeft 64 1 code.length = .ok (2 ^ code.length) := by
    rw [shiftLeft]
    rw [if_pos (by omega), Nat.one_mul,
      Nat.mod_eq_of_lt (Nat.pow_lt_pow_right (by decide) (by omega))]
  have hread := Tape.readNat_eq (show code.length ≤ 64 by omega)
    (show ((BitTape.ofBytes data).seek 0).head + code.length ≤ limit from
      (Nat.zero_add _).trans_le (by omega))
  have hbits : bitsOfBytes (data.take 8) = (bitsOfBytes data).take 64 := bitsOfBytes_take ..
  rw [leads]
  rw [hshift, ok_bind, sub_eq_ok Nat.one_le_two_pow, ok_bind]
  rw [RuleCode.leads, hbits, List.take_take, Nat.min_eq_left (by omega), List.length_take,
    decide_eq_true (show code.length ≤ 64 by omega), Bool.true_and]
  by_cases hroom : code.length ≤ (bitsOfBytes data).length
  · rw [hread.trans (if_pos ((Nat.zero_add _).trans_le hroom)),
      decide_eq_true (Nat.le_min.2 ⟨by omega, hroom⟩), Bool.true_and]
    dsimp only
    rw [Nat.and_two_pow_sub_one_eq_mod, RuleCode.value, Nat.one_shiftLeft]
    rfl
  · rw [hread.trans (if_neg fun h => hroom ((Nat.zero_add _).ge.trans h)),
      decide_eq_false (fun h => hroom (Nat.le_min.1 h).2), Bool.false_and]
    rfl

theorem matchCode_follows (haccepted : device.Accepted) (hmode : device.mode = .composite)
    (hlimit : 2 ^ 17 ≤ limit) (data : List UInt8) :
    Follows (Expected device endpoint data) (matchCode limit device data)
      (device.matchCode data) := by
  rw [matchCode, Device.matchCode]
  by_cases hdata : data = []
  · subst hdata
    exact .error (.empty rfl)
  have hsome : data.isEmpty = false := by simpa using hdata
  have hcodes : ∀ entry ∈ device.codeMatches, leads limit entry.1 (.ofBytes data) =
      .ok (entry.1.leads (bitsOfBytes (data.take 8))) := by
    intro entry hentry
    have hmem := device.codeMatches_perm.mem_iff.1 hentry
    have hlength := haccepted.isCodeLength hmode (Device.codes_eq device ▸ List.mem_map_of_mem hmem)
    rw [Device.isCodeLength, Bool.and_eq_true, decide_eq_true_iff, decide_eq_true_iff] at hlength
    exact leads_eq_ok hlength.2 hlimit data
  have hfind : device.codeMatches.findM? (fun entry => leads limit entry.1 (.ofBytes data)) = _ :=
    findM?_eq_ok hcodes
  rw [hsome, if_neg Bool.false_ne_true, if_neg Bool.false_ne_true]
  dsimp only
  rw [hfind, ok_bind]
  cases device.codeMatches.find? fun entry => entry.1.leads (bitsOfBytes (data.take 8)) with
  | none => exact .error (.unknownCode hmode)
  | some entry => exact .ok entry.2

theorem byteCount_le_of_matchCode (haccepted : device.Accepted) (hmode : device.mode = .composite)
    (h : device.matchCode data = .ok .uncompressed) :
    device.uncompressed.byteCount ≤ data.length := by
  obtain ⟨-, entry, hentry, hfound, hlead⟩ := haccepted.exists_entry hmode h
  exact Device.entry_uncompressed hentry hfound ▸ RuleCode.byteCount_le hlead

theorem decompress_follows (haccepted : device.Accepted) (endpoint : Endpoint)
    (hlimit : demand device data ≤ limit) :
    Follows (Expected device endpoint data) (decompress limit device endpoint data)
      (HeaderCompression.decompress device endpoint data) := by
  unfold decompress HeaderCompression.decompress
  cases hmode : device.mode with
  | layered =>
    dsimp only
    cases data with
    | nil => exact .error (.empty rfl)
    | cons first body =>
      dsimp only [List.head?_cons]
      rw [slice_length (by simp), ok_bind, List.drop_one, List.tail_cons]
      refine (restorePacket_follows haccepted hlimit (by simp) ?_).bind fun packet _ => .ok _
      intro layer id error _ herror
      cases Device.eq_of_rule_eq_error herror
      exact .ruleNotFound hmode
  | composite =>
    dsimp only
    have hwide : 2 ^ 17 ≤ limit := (Nat.le_add_left ..).trans hlimit
    refine (matchCode_follows haccepted hmode hwide data).bind fun found hfound => ?_
    cases found with
    | uncompressed =>
      dsimp only
      rw [slice_length (byteCount_le_of_matchCode haccepted hmode hfound)]
      exact .ok _
    | composite composite =>
      obtain ⟨-, hle, -⟩ := haccepted.matchCode_of_take hmode hfound
      obtain ⟨-, entry, hentry, hentryFound, -⟩ := haccepted.exists_entry hmode hfound
      dsimp only
      rw [slice_length hle, ok_bind]
      refine (restorePacket_follows haccepted hlimit ?_ ?_).bind fun packet _ => .ok _
      · exact (List.drop_sublist ..).length_le
      · intro layer id error hid herror
        obtain ⟨rule, hrule⟩ := haccepted.exists_rule_of_composite
          (Device.mem_composites_of_entry hentry hentryFound) hid
        cases hrule.symm.trans herror

/-- An error about a rule that cannot be executed, about columns that it does not make, or about
bits that are not there to be written. None of them is the fault of received data. -/
def isInternal : Error → Bool
  | .outOfBounds .. | .wideWord _ | .lengthMismatch .. => true
  | .decompression fault =>
    match fault with
    | .wideRead _ | .variableResidue _ | .noFixedLength _ | .missingField _ | .foreignField _
    | .noTarget _ | .noMapping _ | .lsbWithoutTarget _ => true
    | _ => false
  | _ => false

theorem Expected.not_internal {error : Error} (h : Expected device endpoint data error) :
    isInternal error = false := by
  cases h <;> rfl

end HeaderCompression.Checked

namespace HeaderCompression.Device

/-- The receiver is safe, whatever bytes it reads. On a machine whose numbers reach as far as the
bits of the data and of the rules can be counted, it never traps, and it ends as the receiver that
knows no limit. The errors that it ends with are those that received data can be at fault for. -/
theorem decompress_safe (device : Device) (haccepted : device.Accepted) (endpoint : Endpoint)
    (data : List UInt8) :
    (∀ limit, Checked.demand device data ≤ limit →
      Checked.decompress limit device endpoint data =
        Checked.lift (decompress device endpoint data) ∧
      ∀ trap, Checked.decompress limit device endpoint data ≠ .error (.trap trap)) ∧
    ∀ error, decompress device endpoint data = .error error →
      Checked.Expected device endpoint data error ∧ Checked.isInternal error = false := by
  constructor
  · intro limit hlimit
    have hfollows := Checked.decompress_follows haccepted endpoint hlimit
    refine ⟨hfollows.eq, fun trap htrap => ?_⟩
    rw [hfollows.eq] at htrap
    cases hplain : decompress device endpoint data with
    | ok restored =>
      rw [hplain] at htrap
      cases htrap
    | error error =>
      rw [hplain] at htrap
      cases htrap
  · intro error herror
    have hexpected := (Checked.decompress_follows haccepted endpoint le_rfl).expected error herror
    exact ⟨hexpected, hexpected.not_internal⟩

/-- Words of 64 bits are wide enough for a message, and for what is left of it when it is cut. -/
theorem sensor_decompress_safe :
    Checked.decompress (2 ^ 64 - 1) sensor (.ofDirection .up) sensorMessage =
        .ok ⟨sensorPacket.take 48 ++ [0x42, 1, 0x12, 0x34, 0xAA, 0xBB], ⟨0x10, 8⟩,
          some ⟨false, 0, 0, 1⟩⟩ ∧
      Checked.decompress (2 ^ 64 - 1) sensor (.ofDirection .up) (sensorMessage.take 50) =
        .error (.error (.exhausted 8 8 0)) ∧
      Checked.Expected sensor (.ofDirection .up) (sensorMessage.take 50) (.exhausted 8 8 0) := by
  have hwhole : decompress sensor (.ofDirection .up) sensorMessage =
      .ok ⟨sensorPacket.take 48 ++ [0x42, 1, 0x12, 0x34, 0xAA, 0xBB], ⟨0x10, 8⟩,
        some ⟨false, 0, 0, 1⟩⟩ := by decide +kernel
  have hcut : decompress sensor (.ofDirection .up) (sensorMessage.take 50) =
      .error (.exhausted 8 8 0) := by decide +kernel
  have hsafe := decompress_safe sensor sensor_accepted (.ofDirection .up)
  obtain ⟨hrun, -⟩ := (hsafe sensorMessage).1 (2 ^ 64 - 1) (by decide +kernel)
  obtain ⟨hcutRun, -⟩ := (hsafe (sensorMessage.take 50)).1 (2 ^ 64 - 1) (by decide +kernel)
  rw [hwhole] at hrun
  rw [hcut] at hcutRun
  exact ⟨hrun, hcutRun, ((hsafe (sensorMessage.take 50)).2 _ hcut).1⟩

end HeaderCompression.Device
