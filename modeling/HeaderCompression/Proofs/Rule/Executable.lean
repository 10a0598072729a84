import HeaderCompression.Proofs.Rule.WellFormed

namespace HeaderCompression

variable {d : FieldDescription} {f : RuleField} {field : HeaderField} {length : FieldLength}

structure FieldLength.Suits (length : FieldLength) (field : HeaderField) : Prop where
  width : ∀ width, field.width? = some width → length = .fixed width
  whole : field.width? = none → (∃ count, 0 < count ∧ length = .fixed (8 * count)) ∨
    length = .variable ∨ (length = .token ∧ field = .coapToken)
  narrow : ∀ bits, length = .fixed bits → bits < 65536

theorem FieldLength.Suits.pos {bits : Nat} (h : Suits (.fixed bits) field) : 0 < bits := by
  cases hwidth : field.width? with
  | some width =>
    cases h.width width hwidth
    exact HeaderField.width_pos hwidth
  | none =>
    obtain ⟨count, hcount, heq⟩ | heq | ⟨heq, -⟩ := h.whole hwidth <;> cases heq
    omega

namespace FieldDescription

def namedLength? (field : HeaderField) : Option Json → Option FieldLength
  | none => some (defaultLength field)
  | some (.number (.natural bits)) => some (.fixed bits)
  | some (.string "tkl") => some .token
  | some (.string "var") => some .variable
  | some _ => none

def namedOperator? (name : String) (count? : Option Nat) : Option MatchingOperator :=
  match name with
  | "equal" => some .equal
  | "ignore" => some .ignore
  | "match-mapping" => some .mapping
  | "MSB" => count?.map .msb
  | _ => none

/-- The target value in the bytes of the length; for a mapping, each value of its list. -/
def namedTarget? (field : HeaderField) (length : FieldLength) (operator : MatchingOperator) :
    Option Json → Option TargetValue
  | none | some .null => some .none
  | some value =>
    match operator, value with
    | .mapping, .array items => (items.mapM (targetBytes field length)).toOption.map .list
    | _, value => (targetBytes field length value).toOption.map .single

/-- The field that a description names, whether it can be executed or not. -/
def named? (d : FieldDescription) : Option RuleField := do
  let length ← namedLength? d.field d.length?
  let direction? ← (direction d.direction?).toOption
  let operator ← namedOperator? d.operator d.operatorCount?
  let action ← CompressionAction.ofName? d.action
  let target ← namedTarget? d.field length operator d.target?
  return ⟨d.field, length, direction?, operator, target, action⟩

theorem named?_eq_some_iff :
    d.named? = some f ↔ namedLength? d.field d.length? = some f.length ∧
      direction d.direction? = .ok f.direction? ∧
      namedOperator? d.operator d.operatorCount? = some f.operator ∧
      CompressionAction.ofName? d.action = some f.action ∧
      namedTarget? d.field f.length f.operator d.target? = some f.target ∧ f.field = d.field := by
  obtain ⟨field, length, direction?, operator, target, action⟩ := f
  simp only [named?, Option.bind_eq_bind, Option.bind_eq_some_iff, toOption_eq_some_iff,
    Option.pure_def, Option.some.injEq, RuleField.mk.injEq]
  constructor
  · rintro ⟨_, hlength, _, hdirection, _, hoperator, _, haction, _, htarget, rfl, rfl, rfl, rfl,
      rfl, rfl⟩
    exact ⟨hlength, hdirection, hoperator, haction, htarget, rfl⟩
  · rintro ⟨hlength, hdirection, hoperator, haction, htarget, rfl⟩
    exact ⟨_, hlength, _, hdirection, _, hoperator, _, haction, _, htarget, rfl, rfl, rfl, rfl,
      rfl, rfl⟩

theorem namedLength?_of_ok {written : Option Json} (h : fieldLength field written = .ok length) :
    namedLength? field written = some length := by
  have hwritten := writtenLength_eq_ok h
  unfold writtenLength at hwritten
  split at hwritten
  · cases hwritten
    rfl
  · split at hwritten
    · cases hwritten
      rfl
    · cases hwritten
  · cases hwritten
    rfl
  · cases hwritten
    rfl
  · cases hwritten

theorem fieldLength_suits {written : Option Json} (h : fieldLength field written = .ok length) :
    length.Suits field :=
  ⟨(fieldLength_eq_ok h).1, (fieldLength_eq_ok h).2, fun _ hbits => fieldLength_narrow (hbits ▸ h)⟩

theorem fieldLength_of_suits {written : Option Json}
    (h : namedLength? field written = some length) (hsuits : length.Suits field) :
    fieldLength field written = .ok length := by
  have hwritten : writtenLength field written = .ok length := by
    unfold namedLength? at h
    split at h <;> cases h
    · rfl
    · exact if_pos ⟨hsuits.pos, hsuits.narrow _ rfl⟩
    · rfl
    · rfl
  refine bind_eq_ok_iff.2 ⟨length, hwritten, ?_⟩
  cases hwidth : field.width? with
  | some width =>
    cases hsuits.width width hwidth
    simp
  | none =>
    obtain ⟨count, -, rfl⟩ | rfl | ⟨rfl, rfl⟩ := hsuits.whole hwidth
    · simp
    · rfl
    · rfl

theorem fieldLength_eq_ok_iff {written : Option Json} :
    fieldLength field written = .ok length ↔
      namedLength? field written = some length ∧ length.Suits field :=
  ⟨fun h => ⟨namedLength?_of_ok h, fieldLength_suits h⟩, fun h => fieldLength_of_suits h.1 h.2⟩

section Operator

variable {name : String} {count? : Option Nat} {operator : MatchingOperator}

theorem namedOperator?_of_ok (h : matchingOperator length name count? = .ok operator) :
    namedOperator? name count? = some operator := by
  unfold matchingOperator at h
  unfold namedOperator?
  split at h
  · cases h
    rfl
  · cases h
    rfl
  · cases h
    rfl
  · split at h
    · cases h
    · split at h
      · cases h
      · cases h
        rfl
    · cases h
  · cases h

theorem matchingOperator_of_named (h : namedOperator? name count? = some operator)
    (hmsb : ∀ count, operator = .msb count → ∃ bits, length = .fixed bits ∧ count ≤ bits) :
    matchingOperator length name count? = .ok operator := by
  unfold namedOperator? at h
  split at h
  · cases h
    rfl
  · cases h
    rfl
  · cases h
    rfl
  · obtain ⟨count, rfl, rfl⟩ := Option.map_eq_some_iff.1 h
    obtain ⟨bits, rfl, hbits⟩ := hmsb count rfl
    exact if_neg (Nat.not_lt.2 hbits)
  · cases h

theorem matchingOperator_eq_ok_iff : matchingOperator length name count? = .ok operator ↔
    namedOperator? name count? = some operator ∧
      ∀ count, operator = .msb count → ∃ bits, length = .fixed bits ∧ count ≤ bits :=
  ⟨fun h => ⟨namedOperator?_of_ok h, fun _ hcount => matchingOperator_eq_msb (hcount ▸ h)⟩,
    fun h => matchingOperator_of_named h.1 h.2⟩

end Operator

theorem compressionAction_eq_ok_iff {name : String} {action : CompressionAction} :
    compressionAction name = .ok action ↔ CompressionAction.ofName? name = some action := by
  rw [compressionAction]
  cases CompressionAction.ofName? name <;> simp

section Target

variable {operator : MatchingOperator} {value : Json} {value? : Option Json} {result : TargetValue}

theorem namedTarget?_single (hnull : value ≠ .null)
    (hlist : operator = .mapping → ∀ items, value ≠ .array items) :
    namedTarget? field length operator (some value) =
      (targetBytes field length value).toOption.map .single := by
  unfold namedTarget?
  split
  · contradiction
  · rename_i heq
    exact absurd (Option.some.inj heq) hnull
  · rename_i heq
    cases heq
    split
    · exact absurd rfl (hlist rfl _)
    · rfl

theorem target_single (hnull : value ≠ .null) (hoperator : operator ≠ .mapping) :
    target field length operator (some value) =
      (targetBytes field length value >>= fun bytes => .ok (.single bytes)) := by
  unfold target
  split
  · contradiction
  · rename_i heq
    exact absurd (Option.some.inj heq) hnull
  · rename_i heq
    cases heq
    split
    · contradiction
    · contradiction
    · rfl

theorem target_array (items : List Json) :
    target field length .mapping (some (.array items)) =
      (if items.isEmpty ∨ items.length > maxListed then .error (.mappingSize items.length)
      else items.mapM (targetBytes field length) >>= fun values => .ok (.list values)) := by
  unfold target
  dsimp only
  split <;> rfl

theorem size_of_mapM {items : List Json} {values : List (List UInt8)}
    (h : items.mapM (targetBytes field length) = .ok values) :
    ¬(items.isEmpty ∨ items.length > maxListed) ↔
      0 < values.length ∧ values.length ≤ maxListed := by
  rw [← (mapM_eq_ok_iff.1 h).length_eq, List.isEmpty_iff, ← List.length_eq_zero_iff]
  omega

theorem target_without_list (hnull : value ≠ .null) (hlist : ∀ items, value ≠ .array items) :
    target field length .mapping (some value) = .error .mappingWithoutList := by
  cases value with
  | null => exact absurd rfl hnull
  | array items => exact absurd rfl (hlist items)
  | _ => rfl

theorem target_array_eq_ok_iff {items : List Json} :
    target field length .mapping (some (.array items)) = .ok result ↔
      namedTarget? field length .mapping (some (.array items)) = some result ∧
        ∃ values, result = .list values ∧ 0 < values.length ∧ values.length ≤ maxListed := by
  have hnamed : namedTarget? field length .mapping (some (.array items)) =
      (items.mapM (targetBytes field length)).toOption.map .list := rfl
  rw [target_array, hnamed]
  cases hvalues : items.mapM (targetBytes field length) with
  | error error => split <;> simp [Except.toOption, bind, Except.bind]
  | ok values =>
    by_cases hsize : items.isEmpty ∨ items.length > maxListed
    · rw [if_pos hsize]
      constructor
      · intro h
        cases h
      · rintro ⟨h, _, rfl, hlength⟩
        cases h
        exact absurd hsize ((size_of_mapM hvalues).2 hlength)
    · rw [if_neg hsize]
      constructor
      · intro h
        cases h
        exact ⟨rfl, values, rfl, (size_of_mapM hvalues).1 hsize⟩
      · rintro ⟨h, -⟩
        cases h
        rfl

theorem target_eq_ok_iff : target field length operator value? = .ok result ↔
    namedTarget? field length operator value? = some result ∧ (operator = .mapping →
      result = .none ∨ ∃ values, result = .list values ∧ 0 < values.length ∧
        values.length ≤ maxListed) := by
  by_cases habsent : value? = none ∨ value? = some .null
  · have htarget : target field length operator value? = .ok .none := by
      rcases habsent with rfl | rfl <;> rfl
    have hnamed : namedTarget? field length operator value? = some .none := by
      rcases habsent with rfl | rfl <;> rfl
    rw [htarget, hnamed]
    constructor
    · intro h
      cases h
      exact ⟨rfl, fun _ => .inl rfl⟩
    · rintro ⟨h, -⟩
      cases h
      rfl
  obtain ⟨value, rfl⟩ := Option.ne_none_iff_exists'.1 (not_or.1 habsent).1
  have hnull : value ≠ .null := fun h => habsent (.inr (congrArg some h))
  by_cases hoperator : operator = .mapping
  · subst hoperator
    by_cases hlist : ∃ items, value = .array items
    · obtain ⟨items, rfl⟩ := hlist
      rw [target_array_eq_ok_iff]
      -- A list that is there is never taken for an absent value.
      refine and_congr_right fun hnamed => ⟨fun h _ => .inr h, fun h => (h rfl).resolve_left ?_⟩
      rintro rfl
      obtain ⟨_, -, h⟩ := Option.map_eq_some_iff.1 hnamed
      cases h
    · rw [target_without_list hnull fun items h => hlist ⟨items, h⟩,
        namedTarget?_single hnull fun _ items h => hlist ⟨items, h⟩]
      constructor
      · intro h
        cases h
      · rintro ⟨hnamed, hmapping⟩
        obtain ⟨bytes, -, rfl⟩ := Option.map_eq_some_iff.1 hnamed
        obtain h | ⟨values, h, -⟩ := hmapping rfl <;> cases h
  · rw [target_single hnull hoperator, namedTarget?_single hnull fun h => absurd h hoperator]
    simp only [bind_eq_ok_iff, Option.map_eq_some_iff, toOption_eq_some_iff, Except.ok.injEq,
      hoperator, false_imp_iff, and_true]

end Target

theorem checkAction_of_wellFormed (h : f.WellFormed) : checkAction f = .ok () := by
  cases haction : f.action with
  | notSent =>
    obtain ⟨value, hvalue⟩ := h.notSent haction
    simp [checkAction, haction, hvalue, TargetValue.single?]
  | valueSent => simp [checkAction, haction]
  | mappingSent => simp [checkAction, haction, h.mappingSent haction]
  | lsb =>
    obtain ⟨count, hcount⟩ := h.lsb haction
    simp [checkAction, haction, hcount]
  | computeLength =>
    obtain hfield | hfield := h.computeLength haction <;> simp [checkAction, haction, hfield]
  | computeChecksum => simp [checkAction, haction, h.computeChecksum haction]
  | devIid => simp [checkAction, haction, h.devIid haction]
  | appIid => simp [checkAction, haction, h.appIid haction]

theorem checkOperator_of_wellFormed (h : f.WellFormed) : checkOperator f = .ok () := by
  cases hoperator : f.operator with
  | equal =>
    obtain ⟨value, hvalue⟩ := h.equal hoperator
    simp [checkOperator, hoperator, hvalue, TargetValue.single?]
  | ignore => simp [checkOperator, hoperator]
  | msb count =>
    obtain ⟨value, hvalue⟩ := (h.msb count hoperator).2
    simp [checkOperator, hoperator, hvalue, TargetValue.single?]
  | mapping =>
    obtain ⟨values, hvalues, -⟩ := h.mapping hoperator
    simp [checkOperator, hoperator, hvalues, TargetValue.list?]

theorem toField_eq_ok_iff_named : d.toField = .ok f ↔ d.named? = some f ∧ f.WellFormed := by
  constructor
  · intro h
    obtain ⟨hlength, hdirection, hoperator, haction, htarget, hfield, -, -⟩ :=
      toField_eq_ok_iff.1 h
    refine ⟨named?_eq_some_iff.2 ⟨(fieldLength_eq_ok_iff.1 hlength).1, hdirection,
      (matchingOperator_eq_ok_iff.1 hoperator).1, compressionAction_eq_ok_iff.1 haction,
      (target_eq_ok_iff.1 htarget).1, hfield⟩, toField_wellFormed h⟩
  · rintro ⟨hnamed, hwell⟩
    obtain ⟨hlength, hdirection, hoperator, haction, htarget, hfield⟩ :=
      named?_eq_some_iff.1 hnamed
    refine toField_eq_ok_iff.2 ⟨fieldLength_eq_ok_iff.2 ⟨hlength, ?_⟩, hdirection,
      matchingOperator_eq_ok_iff.2 ⟨hoperator, fun count hcount => (hwell.msb count hcount).1⟩,
      compressionAction_eq_ok_iff.2 haction,
      target_eq_ok_iff.2 ⟨htarget, fun hmapping => .inr (hwell.mapping hmapping)⟩, hfield,
      checkAction_of_wellFormed hwell, checkOperator_of_wellFormed hwell⟩
    rw [← hfield]
    exact ⟨hwell.width, hwell.whole, hwell.narrow⟩

/-- What loads is what is named and well-formed: a field that loads can be executed, and a field that
is named and refused cannot. In particular no list of values is left unsent. -/
theorem toField_executable (d : FieldDescription) :
    (∀ f, d.toField = .ok f ↔ d.named? = some f ∧ f.WellFormed) ∧
    (∀ f, d.named? = some f → ((∃ fault, d.toField = .error fault) ↔ ¬ f.WellFormed)) ∧
    ∀ f, d.toField = .ok f → f.action = .notSent → f.operator ≠ .mapping := by
  refine ⟨fun f => toField_eq_ok_iff_named, fun f hnamed => ?_, fun f h hnotSent hmapping => ?_⟩
  · have hloads : d.toField = .ok f ↔ f.WellFormed :=
      toField_eq_ok_iff_named.trans (and_iff_right hnamed)
    rw [← hloads]
    cases hresult : d.toField with
    | error fault => simp
    | ok g =>
      have hsame : g = f :=
        Option.some.inj ((toField_eq_ok_iff_named.1 hresult).1.symm.trans hnamed)
      simp [hsame]
  · have hwell := toField_wellFormed h
    obtain ⟨value, hvalue⟩ := hwell.notSent hnotSent
    obtain ⟨values, hvalues, -⟩ := hwell.mapping hmapping
    cases hvalue.symm.trans hvalues

def onePort : FieldDescription :=
  ⟨.udpDevicePort, none, none, some (.number (.natural 5683)), "equal", none, "not-sent"⟩

def twoPorts : FieldDescription :=
  { onePort with
    target? := some (.array [.number (.natural 5683), .number (.natural 5684)])
    operator := "match-mapping" }

theorem ports_executable :
    (∃ f, onePort.toField = .ok f ∧ f.WellFormed ∧ f.action = .notSent ∧ f.operator ≠ .mapping) ∧
      ∃ f, twoPorts.named? = some f ∧ (∃ fault, twoPorts.toField = .error fault) ∧
        ¬ f.WellFormed := by
  have hone : onePort.toField =
      .ok ⟨.udpDevicePort, .fixed 16, none, .equal, .single [0x16, 0x33], .notSent⟩ := by
    decide +kernel
  have htwo : twoPorts.named? = some
      ⟨.udpDevicePort, .fixed 16, none, .mapping, .list [[0x16, 0x33], [0x16, 0x34]], .notSent⟩ := by
    decide +kernel
  have hrefused : twoPorts.toField = .error .notSentWithoutTarget := by decide +kernel
  obtain ⟨hloads, -, hnotSent⟩ := toField_executable onePort
  obtain ⟨-, hfails, -⟩ := toField_executable twoPorts
  exact ⟨⟨_, hone, ((hloads _).1 hone).2, rfl, hnotSent _ hone rfl⟩,
    ⟨_, htwo, ⟨_, hrefused⟩, (hfails _ htwo).1 ⟨_, hrefused⟩⟩⟩

end FieldDescription

end HeaderCompression
