import HeaderCompression.Proofs.Rule.Residue

namespace HeaderCompression

variable {endpoint : Endpoint} {p : FieldPair} {error : Error}

namespace FieldPair

/-- Why the field does not send the column that it accepts. -/
def refusal? (endpoint : Endpoint) (p : FieldPair) : Option Error :=
  match p.1.action with
  | .appIid => some .appIid
  | .devIid =>
    match endpoint.interfaceId? with
    | none => some (.compression .noDeviceAddress)
    | some iid => if p.2.value = iid then none else some (.compression .foreignInterfaceId)
  | .valueSent =>
    if p.1.length = .variable ∧ 255 < p.2.value.length then
      some (.compression (.longValue p.1.field p.2.value.length))
    else none
  | .notSent | .mappingSent | .lsb | .computeLength | .computeChecksum => none

theorem isSome_refusal?_iff : (p.refusal? endpoint).isSome ↔
    p.1.action = .appIid ∨
    (p.1.action = .devIid ∧ endpoint.interfaceId? ≠ some p.2.value) ∨
    (p.1.action = .valueSent ∧ p.1.length = .variable ∧ 255 < p.2.value.length) := by
  rw [refusal?]
  cases haction : p.1.action with
  | devIid =>
    cases hiid : endpoint.interfaceId? with
    | none => simp
    | some iid =>
      by_cases hvalue : p.2.value = iid
      · simp [hvalue]
      · simp [hvalue, Ne.symm hvalue]
  | valueSent =>
    by_cases hlong : p.1.length = .variable ∧ 255 < p.2.value.length
    · simp [hlong]
    · simp [hlong]
  | _ => simp

theorem valueResidue_eq_error_iff : p.1.valueResidue p.2 = .error error ↔
    (if p.1.length = .variable ∧ 255 < p.2.value.length then
      some (.compression (.longValue p.1.field p.2.value.length)) else none) = some error := by
  rw [RuleField.valueResidue]
  cases hlength : p.1.length with
  | fixed | token => simp
  | «variable» =>
    dsimp only
    by_cases hshort : p.2.value.length < 256
    · rw [if_pos hshort, if_neg (by omega)]
      simp
    · rw [if_neg hshort, if_pos ⟨rfl, by omega⟩]
      simp

theorem Sound.exists_place (h : p.Sound) (haction : p.1.action = .mappingSent) :
    ∃ index, p.1.target.list?.bind p.2.placeIn? = some index := by
  have hmatch := (RuleField.accepts_iff.1 h.accepts).2.2
  obtain ⟨values, htarget, -⟩ := h.wellFormed.mapping (h.wellFormed.mappingSent haction)
  simp only [RuleField.matchesOperator, h.wellFormed.mappingSent haction, htarget,
    TargetValue.list?, Option.any_some] at hmatch
  rw [htarget]
  exact Option.isSome_iff_exists.1 hmatch

theorem Sound.exists_lowBits (h : p.Sound) (haction : p.1.action = .lsb) :
    ∃ count sent, p.1.operator = .msb count ∧ p.2.lowBits count = .ok sent := by
  obtain ⟨count, hoperator⟩ := h.wellFormed.lsb haction
  obtain ⟨low, -, -, -, hbits, hvalue, -, hcount, -⟩ :=
    RuleField.exists_low_of_msb h.wellFormed h.accepts h.fits hoperator
  exact ⟨count, _, hoperator, Column.lowBits_alignRight hbits hvalue hcount⟩

theorem Sound.residue_eq_error_iff (h : p.Sound) :
    p.1.residue endpoint p.2 = .error error ↔ p.refusal? endpoint = some error := by
  rw [RuleField.residue, refusal?]
  cases haction : p.1.action with
  | notSent | computeLength | computeChecksum => simp
  | valueSent => exact valueResidue_eq_error_iff
  | mappingSent =>
    obtain ⟨index, hindex⟩ := h.exists_place haction
    simp [hindex]
  | lsb =>
    obtain ⟨count, sent, hoperator, hsent⟩ := h.exists_lowBits haction
    simp [hoperator, hsent]
  | devIid =>
    cases endpoint.interfaceId? with
    | none => simp
    | some iid => by_cases hvalue : p.2.value = iid <;> simp [hvalue]
  | appIid => simp

end FieldPair

theorem Rule.residue_eq_error_iff {rule : Rule} {columns : List Column}
    (hsound : ∀ p ∈ rule.pairs endpoint.direction columns, p.Sound) :
    rule.residue endpoint columns = .error error ↔
      (rule.pairs endpoint.direction columns).findSome? (·.refusal? endpoint) = some error := by
  rw [← mapM_eq_error_iff fun p hp _ => (hsound p hp).residue_eq_error_iff]
  change ((rule.pairs endpoint.direction columns).mapM _ >>= _) = _ ↔ _
  cases (rule.pairs endpoint.direction columns).mapM fun p => p.1.residue endpoint p.2 with
  | error e => simp [bind, Except.bind]
  | ok parts => simp [bind, Except.bind, pure, Except.pure]

/-- A rule that accepts the columns of a header fails to send them exactly if one of its fields is
the application's interface id, the device's where the endpoint has another or none, or a value of
more than 255 bytes behind its length. It fails with the reason of the first such field, so no value
is ever missing from its list, no low bits are sent without a match in front of them, and no bits
are copied from outside a column. -/
theorem Device.residue_refused_iff (device : Device) (haccepted : device.Accepted) (layer : Layer)
    (rule : Rule) (hrule : rule ∈ device.rules layer) (endpoint : Endpoint) (data : List UInt8)
    (columns : List Column) (length : Nat)
    (hcolumns : layer.columns endpoint.direction data = .ok (columns, length))
    (haccepts : rule.accepts columns endpoint.direction) :
    ((∃ error, rule.residue endpoint columns = .error error) ↔
      ∃ p ∈ rule.pairs endpoint.direction columns, p.1.action = .appIid ∨
        (p.1.action = .devIid ∧ endpoint.interfaceId? ≠ some p.2.value) ∨
        (p.1.action = .valueSent ∧ p.1.length = .variable ∧ 255 < p.2.value.length)) ∧
    ∀ error, rule.residue endpoint columns = .error error ↔
      (rule.pairs endpoint.direction columns).findSome? (·.refusal? endpoint) = some error := by
  have hsound := haccepted.sound_pairs hrule hcolumns haccepts
  refine ⟨?_, fun error => Rule.residue_eq_error_iff hsound⟩
  calc (∃ error, rule.residue endpoint columns = .error error)
      ↔ ((rule.pairs endpoint.direction columns).findSome? (·.refusal? endpoint)).isSome := by
        rw [Option.isSome_iff_exists]
        exact exists_congr fun error => Rule.residue_eq_error_iff hsound
    _ ↔ ∃ p ∈ rule.pairs endpoint.direction columns, (p.refusal? endpoint).isSome :=
        List.findSome?_isSome_iff
    _ ↔ _ := exists_congr fun p => and_congr_right fun _ => FieldPair.isSome_refusal?_iff

def Device.nomadText : String :=
  "[[[1,\"composite\",0,8,null,
    [[1,null,[[\"IPV6.VER\",null,null,6,\"equal\",null,\"not-sent\"],
    [\"IPV6.TC\",null,null,null,\"ignore\",null,\"value-sent\"],
    [\"IPV6.FL\",null,null,0,\"ignore\",null,\"not-sent\"],
    [\"IPV6.LEN\",null,null,null,\"ignore\",null,\"compute-length\"],
    [\"IPV6.NXT\",null,null,17,\"equal\",null,\"not-sent\"],
    [\"IPV6.HOP_LMT\",null,null,64,\"ignore\",null,\"not-sent\"],
    [\"IPV6.DEV_PREFIX\",null,null,null,\"ignore\",null,\"value-sent\"],
    [\"IPV6.DEV_IID\",null,null,null,\"ignore\",null,\"DevIID\"],
    [\"IPV6.APP_PREFIX\",null,null,null,\"ignore\",null,\"value-sent\"],
    [\"IPV6.APP_IID\",null,null,null,\"ignore\",null,\"value-sent\"]]]],
    [[1,null,[[\"UDP.DEV_PORT\",null,null,5683,\"MSB\",12,\"LSB\"],
    [\"UDP.APP_PORT\",null,null,null,\"ignore\",null,\"value-sent\"],
    [\"UDP.LEN\",null,null,null,\"ignore\",null,\"compute-length\"],
    [\"UDP.CKSUM\",null,null,null,\"ignore\",null,\"compute-checksum\"]]]],
    [[1,null,[[\"COAP.VER\",null,null,1,\"equal\",null,\"not-sent\"],
    [\"COAP.TYPE\",null,null,null,\"ignore\",null,\"value-sent\"],
    [\"COAP.TKL\",null,null,0,\"equal\",null,\"not-sent\"],
    [\"COAP.CODE\",null,null,null,\"ignore\",null,\"value-sent\"],
    [\"COAP.MID\",null,null,null,\"ignore\",null,\"value-sent\"]]]],
    [[1,4,null,1,1,1]]]]]"

/-- A device that moves between networks and keeps its interface id. -/
def Device.nomad : Device :=
  ⟨1, .composite, ⟨0, 8⟩, none,
    [⟨1, none, [
      ⟨.ipv6Version, .fixed 4, none, .equal, .single [6], .notSent⟩,
      ⟨.ipv6TrafficClass, .fixed 8, none, .ignore, .none, .valueSent⟩,
      ⟨.ipv6FlowLabel, .fixed 20, none, .ignore, .single [0, 0, 0], .notSent⟩,
      ⟨.ipv6PayloadLength, .fixed 16, none, .ignore, .none, .computeLength⟩,
      ⟨.ipv6NextHeader, .fixed 8, none, .equal, .single [17], .notSent⟩,
      ⟨.ipv6HopLimit, .fixed 8, none, .ignore, .single [64], .notSent⟩,
      ⟨.ipv6DevicePrefix, .fixed 64, none, .ignore, .none, .valueSent⟩,
      ⟨.ipv6DeviceIid, .fixed 64, none, .ignore, .none, .devIid⟩,
      ⟨.ipv6AppPrefix, .fixed 64, none, .ignore, .none, .valueSent⟩,
      ⟨.ipv6AppIid, .fixed 64, none, .ignore, .none, .valueSent⟩]⟩],
    [⟨1, none, [
      ⟨.udpDevicePort, .fixed 16, none, .msb 12, .single [0x16, 0x33], .lsb⟩,
      ⟨.udpAppPort, .fixed 16, none, .ignore, .none, .valueSent⟩,
      ⟨.udpLength, .fixed 16, none, .ignore, .none, .computeLength⟩,
      ⟨.udpChecksum, .fixed 16, none, .ignore, .none, .computeChecksum⟩]⟩],
    [⟨1, none, [
      ⟨.coapVersion, .fixed 2, none, .equal, .single [1], .notSent⟩,
      ⟨.coapType, .fixed 2, none, .ignore, .none, .valueSent⟩,
      ⟨.coapTokenLength, .fixed 4, none, .equal, .single [0], .notSent⟩,
      ⟨.coapCode, .fixed 8, none, .ignore, .none, .valueSent⟩,
      ⟨.coapMessageId, .fixed 16, none, .ignore, .none, .valueSent⟩]⟩],
    [⟨⟨1, 4⟩, none, ⟨some 1, some 1, some 1⟩⟩]⟩

set_option maxRecDepth 8000 in
theorem Device.nomad_accepted : nomad.Accepted := by
  have htext : nomadText = String.ofList _ := rfl
  have hcheck : RuleSet.check ⟨[nomad]⟩ = .ok () := by decide +kernel
  exact accepted_of_chars htext hcheck (by decide +kernel) List.mem_cons_self

def Device.nomadAddress : Ipv6Address :=
  ⟨List.replicate 8 0x2A ++ List.replicate 8 0x0D, rfl⟩

def Device.nomadEndpoint (direction : Direction) : Endpoint :=
  (Endpoint.ofDirection direction).withAddress (some nomadAddress)

def Device.nomadHeader : List UInt8 :=
  [0x60, 0, 0, 0, 0, 12, 17, 64] ++ nomadAddress.bytes ++ List.replicate 16 0x2B

/-- A header is refused at an endpoint that has no address or another one, and sent at the
device's own. -/
theorem Device.nomad_residue_refused :
    ∃ rule ∈ nomad.rules .network, ∃ columns,
      Layer.columns .network .up nomadHeader = .ok (columns, 40) ∧ rule.accepts columns .up ∧
      rule.residue (.ofDirection .up) columns = .error (.compression .noDeviceAddress) ∧
      ¬ ∃ error, rule.residue (nomadEndpoint .up) columns = .error error := by
  have hrule : nomad.ipv6Rules.head (by decide) ∈ nomad.rules .network := List.head_mem _
  have hcolumns : Layer.columns .network .up nomadHeader =
      .ok (Layout.columns (Layout.ipv6 .up) nomadHeader, 40) := by decide +kernel
  have haccepts : (nomad.ipv6Rules.head (by decide)).accepts
      (Layout.columns (Layout.ipv6 .up) nomadHeader) .up := by decide +kernel
  have hrefused (address? : Option Ipv6Address) := residue_refused_iff nomad nomad_accepted .network
    _ hrule ((Endpoint.ofDirection .up).withAddress address?) nomadHeader _ 40 hcolumns haccepts
  refine ⟨_, hrule, _, hcolumns, haccepts, ((hrefused none).2 _).2 (by decide +kernel), ?_⟩
  rw [nomadEndpoint, (hrefused (some nomadAddress)).1]
  decide +kernel

end HeaderCompression
