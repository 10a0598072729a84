import HeaderCompression.Proofs.Bits.Width
import HeaderCompression.Proofs.Outcome
import HeaderCompression.Rule.Description

namespace HeaderCompression

variable {d : FieldDescription} {f : RuleField} {field : HeaderField} {length : FieldLength}

def TargetValue.values : TargetValue → List (List UInt8)
  | none => []
  | single value => [value]
  | list values => values

@[simp] theorem TargetValue.single?_eq_some_iff {target : TargetValue} {value : List UInt8} :
    target.single? = some value ↔ target = single value := by
  cases target <;> simp [TargetValue.single?]

@[simp] theorem TargetValue.list?_eq_some_iff {target : TargetValue} {values : List (List UInt8)} :
    target.list? = some values ↔ target = list values := by
  cases target <;> simp [TargetValue.list?]

theorem TargetValue.exists_single {target : TargetValue} (h : ¬ target.single?.isNone) :
    ∃ value, target = single value := by
  cases target <;> simp [TargetValue.single?] at h ⊢

theorem TargetValue.exists_list {target : TargetValue} (h : ¬ target.list?.isNone) :
    ∃ values, target = list values := by
  cases target <;> simp [TargetValue.list?] at h ⊢

namespace RuleField

structure WellFormed (f : RuleField) : Prop where
  /-- A header field of fixed width has this width in the rule. -/
  width : ∀ width, f.field.width? = some width → f.length = .fixed width
  /-- Other fields have whole bytes, as many as are written in the rule or found in the packet. -/
  whole : f.field.width? = none → (∃ count, 0 < count ∧ f.length = .fixed (8 * count)) ∨
    f.length = .variable ∨ (f.length = .token ∧ f.field = .coapToken)
  narrow : ∀ bits, f.length = .fixed bits → bits < 65536
  targets : ∀ bits, f.length = .fixed bits → ∀ value ∈ f.target.values, FitsWidth bits value
  equal : f.operator = .equal → ∃ value, f.target = .single value
  msb : ∀ count, f.operator = .msb count →
    (∃ bits, f.length = .fixed bits ∧ count ≤ bits) ∧ ∃ value, f.target = .single value
  mapping : f.operator = .mapping →
    ∃ values, f.target = .list values ∧ 0 < values.length ∧ values.length ≤ maxListed
  notSent : f.action = .notSent → ∃ value, f.target = .single value
  mappingSent : f.action = .mappingSent → f.operator = .mapping
  lsb : f.action = .lsb → ∃ count, f.operator = .msb count
  computeLength : f.action = .computeLength →
    f.field = .ipv6PayloadLength ∨ f.field = .udpLength
  computeChecksum : f.action = .computeChecksum → f.field = .udpChecksum
  devIid : f.action = .devIid → f.field = .ipv6DeviceIid
  appIid : f.action = .appIid → f.field = .ipv6AppIid

end RuleField

theorem natOfBytes_lt_of_first {bits : Nat} {value : List UInt8}
    (hlen : value.length ≤ bytesFor bits)
    (hfirst : value.length = bytesFor bits → bits % 8 ≠ 0 →
      (value.headD 0).toNat < 2 ^ (bits % 8)) : natOfBytes value < 2 ^ bits := by
  have hall : natOfBytes value < 2 ^ (8 * value.length) := (fitsWidth_of_bytes value).2
  by_cases hshort : 8 * value.length ≤ bits
  · exact Nat.lt_of_lt_of_le hall (Nat.pow_le_pow_right (by omega) hshort)
  · cases value with
    | nil => simp at hshort
    | cons first rest =>
      simp only [bytesFor, List.length_cons, List.headD_cons] at hlen hfirst hshort
      have hpart : bits = bits % 8 + 8 * rest.length := by omega
      have hlow := hfirst (by omega) (by omega)
      have hrest := (fitsWidth_of_bytes rest).2
      rw [natOfBytes_cons, hpart, pow_add, show (256 : Nat) = 2 ^ 8 from rfl, ← pow_mul]
      calc first.toNat * 2 ^ (8 * rest.length) + natOfBytes rest
          < first.toNat * 2 ^ (8 * rest.length) + 2 ^ (8 * rest.length) := by omega
        _ = (first.toNat + 1) * 2 ^ (8 * rest.length) := by ring
        _ ≤ 2 ^ (bits % 8) * 2 ^ (8 * rest.length) := Nat.mul_le_mul_right _ hlow

theorem HeaderField.width_le {width : Nat} (h : field.width? = some width) : width ≤ 64 := by
  cases field <;> simp_all [HeaderField.width?] <;> omega

theorem HeaderField.width_pos {width : Nat} (h : field.width? = some width) : 0 < width := by
  cases field <;> cases h <;> decide

namespace FieldDescription

theorem fitted_eq_ok {bits : Nat} {value result : List UInt8}
    (h : fitted bits value = .ok result) :
    FitsWidth bits result ∧ natOfBytes result = natOfBytes value := by
  simp only [fitted] at h
  split at h
  · cases h
  rename_i hfits
  cases h
  simp only [not_or, not_and, Nat.not_lt, not_not] at hfits
  obtain ⟨hlen, hfirst⟩ := hfits
  have hshift (n k : Nat) : n >>> k = 0 ↔ n < 2 ^ k := by
    rw [Nat.shiftRight_eq_div_pow, Nat.div_eq_zero_iff_lt (Nat.two_pow_pos k)]
  simp only [hshift] at hfirst
  have hnat : natOfBytes (List.replicate (bytesFor bits - (value.dropWhile (· == 0)).length) 0 ++
      value.dropWhile (· == 0)) = natOfBytes value := by
    rw [natOfBytes_replicate_zero_append, natOfBytes_dropWhile_zero]
  refine ⟨⟨by simp; omega, ?_⟩, hnat⟩
  rw [hnat, ← natOfBytes_dropWhile_zero]
  exact natOfBytes_lt_of_first hlen hfirst

theorem targetBytes_fits {bits : Nat} {value : Json} {result : List UInt8}
    (h : targetBytes field (.fixed bits) value = .ok result) : FitsWidth bits result := by
  unfold targetBytes at h
  dsimp only at h
  split at h
  all_goals
    obtain ⟨bytes, -, h⟩ := bind_eq_ok_iff.1 h
    exact (fitted_eq_ok h).1

theorem writtenLength_eq_fixed {written : Option Json} {bits : Nat}
    (h : writtenLength field written = .ok (.fixed bits)) :
    field.width? = some bits ∨ 0 < bits ∧ bits < 65536 := by
  unfold writtenLength at h
  split at h
  · simp only [defaultLength, Except.ok.injEq] at h
    split at h
    · rename_i width hwidth
      cases h
      exact .inl hwidth
    · split at h <;> cases h
  · split at h
    · rename_i hbits
      cases h
      exact .inr hbits
    · cases h
  all_goals cases h

theorem fieldLength_eq_ok {written : Option Json} (h : fieldLength field written = .ok length) :
    (∀ width, field.width? = some width → length = .fixed width) ∧
      (field.width? = none → (∃ count, 0 < count ∧ length = .fixed (8 * count)) ∨
        length = .variable ∨ (length = .token ∧ field = .coapToken)) := by
  obtain ⟨length', hwritten, h⟩ := bind_eq_ok_iff.1 h
  split at h
  · rename_i width bits hwidth
    split at h
    · exact (throw_bind_ne_ok h).elim
    · rename_i hbits
      cases h
      rw [hwidth]
      exact ⟨fun _ he => by cases he; rw [not_not.1 hbits], fun he => by cases he⟩
  · exact (throw_bind_ne_ok h).elim
  · rename_i bits hwidth
    split at h
    · exact (throw_bind_ne_ok h).elim
    · rename_i hbits
      cases h
      have hpos : 0 < bits := ((writtenLength_eq_fixed hwritten).resolve_left (by simp [hwidth])).1
      have hdvd : bits = 8 * (bits / 8) := by omega
      exact ⟨fun _ he => by simp [hwidth] at he, fun _ => .inl ⟨bits / 8, by omega, by rw [← hdvd]⟩⟩
  · rename_i hwidth
    split at h
    · exact (throw_bind_ne_ok h).elim
    · rename_i hfield
      cases h
      exact ⟨fun _ he => by simp [hwidth] at he, fun _ => .inr (.inr ⟨rfl, not_not.1 hfield⟩)⟩
  · rename_i hwidth
    cases h
    exact ⟨fun _ he => by simp [hwidth] at he, fun _ => .inr (.inl rfl)⟩

theorem writtenLength_eq_ok {written : Option Json} (h : fieldLength field written = .ok length) :
    writtenLength field written = .ok length := by
  obtain ⟨length', hwritten, h⟩ := bind_eq_ok_iff.1 h
  have hsame : length' = length := by
    split at h
    · split at h
      · exact (throw_bind_ne_ok h).elim
      · exact Except.ok.inj h
    · exact (throw_bind_ne_ok h).elim
    · split at h
      · exact (throw_bind_ne_ok h).elim
      · exact Except.ok.inj h
    · split at h
      · exact (throw_bind_ne_ok h).elim
      · exact Except.ok.inj h
    · exact Except.ok.inj h
  rw [hwritten, hsame]

theorem fieldLength_narrow {written : Option Json} {bits : Nat}
    (h : fieldLength field written = .ok (.fixed bits)) : bits < 65536 := by
  rcases writtenLength_eq_fixed (writtenLength_eq_ok h) with hwidth | hbits
  · have hsmall := HeaderField.width_le hwidth
    omega
  · exact hbits.2

theorem matchingOperator_eq_msb {name : String} {count? : Option Nat} {count : Nat}
    (h : matchingOperator length name count? = .ok (.msb count)) :
    ∃ bits, length = .fixed bits ∧ count ≤ bits := by
  unfold matchingOperator at h
  split at h
  · cases h
  · cases h
  · cases h
  · split at h
    · cases h
    · rename_i bits
      split at h
      · cases h
      · cases h
        exact ⟨bits, rfl, by omega⟩
    · cases h
  · cases h

theorem target_eq_single {operator : MatchingOperator} {value? : Option Json}
    {value : List UInt8} (h : target field length operator value? = .ok (.single value)) :
    ∃ json, targetBytes field length json = .ok value := by
  unfold target at h
  split at h
  · cases h
  · cases h
  · split at h
    · split at h
      · exact (throw_bind_ne_ok h).elim
      · obtain ⟨values, -, h⟩ := bind_eq_ok_iff.1 h
        cases h
    · cases h
    · obtain ⟨value', hvalue, h⟩ := bind_eq_ok_iff.1 h
      cases h
      exact ⟨_, hvalue⟩

theorem target_eq_list {operator : MatchingOperator} {value? : Option Json}
    {values : List (List UInt8)} (h : target field length operator value? = .ok (.list values)) :
    (0 < values.length ∧ values.length ≤ maxListed) ∧
      ∀ value ∈ values, ∃ json, targetBytes field length json = .ok value := by
  unfold target at h
  split at h
  · cases h
  · cases h
  · split at h
    · rename_i items
      split at h
      · exact (throw_bind_ne_ok h).elim
      · rename_i hsize
        obtain ⟨values', hvalues, h⟩ := bind_eq_ok_iff.1 h
        cases h
        have hitems := mapM_eq_ok_iff.1 hvalues
        have hlen := hitems.length_eq
        simp only [List.isEmpty_iff, ← List.length_eq_zero_iff] at hsize
        refine ⟨by omega, fun value hvalue => ?_⟩
        obtain ⟨i, hi, rfl⟩ := List.getElem_of_mem hvalue
        exact ⟨_, hitems.get (hlen ▸ hi) hi⟩
    · cases h
    · obtain ⟨value', hvalue, h⟩ := bind_eq_ok_iff.1 h
      cases h

theorem target_fits {bits : Nat} {operator : MatchingOperator} {value? : Option Json}
    {result : TargetValue} (h : target field (.fixed bits) operator value? = .ok result) :
    ∀ value ∈ result.values, FitsWidth bits value := by
  intro value hvalue
  cases result with
  | none => simp [TargetValue.values] at hvalue
  | single value' =>
    obtain ⟨json, hjson⟩ := target_eq_single h
    rw [TargetValue.values, List.mem_singleton] at hvalue
    exact hvalue ▸ targetBytes_fits hjson
  | list values =>
    obtain ⟨json, hjson⟩ := (target_eq_list h).2 value hvalue
    exact targetBytes_fits hjson

theorem checkOperator_eq_ok (h : checkOperator f = .ok ()) :
    (f.operator = .equal → ∃ value, f.target = .single value) ∧
      (∀ count, f.operator = .msb count → ∃ value, f.target = .single value) ∧
      (f.operator = .mapping → ∃ values, f.target = .list values) := by
  rw [checkOperator] at h
  refine ⟨fun he => ?_, fun count he => ?_, fun he => ?_⟩ <;> rw [he] at h <;> dsimp only at h
  · exact TargetValue.exists_single (not_of_ite_eq_ok h)
  · exact TargetValue.exists_single (not_of_ite_eq_ok h)
  · exact TargetValue.exists_list (not_of_ite_eq_ok h)

theorem checkAction_eq_ok (h : checkAction f = .ok ()) :
    (f.action = .notSent → ∃ value, f.target = .single value) ∧
      (f.action = .mappingSent → f.operator = .mapping) ∧
      (f.action = .lsb → ∃ count, f.operator = .msb count) ∧
      (f.action = .computeLength → f.field = .ipv6PayloadLength ∨ f.field = .udpLength) ∧
      (f.action = .computeChecksum → f.field = .udpChecksum) ∧
      (f.action = .devIid → f.field = .ipv6DeviceIid) ∧
      (f.action = .appIid → f.field = .ipv6AppIid) := by
  rw [checkAction] at h
  refine ⟨fun he => ?_, fun he => ?_, fun he => ?_, fun he => ?_, fun he => ?_, fun he => ?_,
    fun he => ?_⟩ <;> rw [he] at h <;> dsimp only at h
  · exact TargetValue.exists_single (not_of_ite_eq_ok h)
  · exact not_not.1 (not_of_ite_eq_ok h)
  · split at h
    · rename_i count hcount
      exact ⟨count, hcount⟩
    · cases h
  · by_contra hfield
    exact not_of_ite_eq_ok h (not_or.1 hfield)
  · exact not_not.1 (not_of_ite_eq_ok h)
  · exact not_not.1 (not_of_ite_eq_ok h)
  · exact not_not.1 (not_of_ite_eq_ok h)

/-- A description loads if each of its parts does and the field passes its checks. -/
theorem toField_eq_ok_iff :
    d.toField = .ok f ↔ fieldLength d.field d.length? = .ok f.length ∧
      direction d.direction? = .ok f.direction? ∧
      matchingOperator f.length d.operator d.operatorCount? = .ok f.operator ∧
      compressionAction d.action = .ok f.action ∧
      target d.field f.length f.operator d.target? = .ok f.target ∧
      f.field = d.field ∧ checkAction f = .ok () ∧ checkOperator f = .ok () := by
  constructor
  · intro h
    obtain ⟨length, hlength, h⟩ := bind_eq_ok_iff.1 h
    obtain ⟨direction?, hdirection, h⟩ := bind_eq_ok_iff.1 h
    obtain ⟨operator, hoperator, h⟩ := bind_eq_ok_iff.1 h
    obtain ⟨action, haction, h⟩ := bind_eq_ok_iff.1 h
    obtain ⟨target, htarget, h⟩ := bind_eq_ok_iff.1 h
    obtain ⟨_, hneeds, h⟩ := bind_eq_ok_iff.1 h
    obtain ⟨_, hoperand, h⟩ := bind_eq_ok_iff.1 h
    cases h
    exact ⟨hlength, hdirection, hoperator, haction, htarget, rfl, hneeds, hoperand⟩
  · obtain ⟨field, length, direction?, operator, target, action⟩ := f
    rintro ⟨hlength, hdirection, hoperator, haction, htarget, rfl, hneeds, hoperand⟩
    exact bind_eq_ok_iff.2 ⟨_, hlength, bind_eq_ok_iff.2 ⟨_, hdirection, bind_eq_ok_iff.2 ⟨_,
      hoperator, bind_eq_ok_iff.2 ⟨_, haction, bind_eq_ok_iff.2 ⟨_, htarget, bind_eq_ok_iff.2 ⟨_,
      hneeds, bind_eq_ok_iff.2 ⟨_, hoperand, rfl⟩⟩⟩⟩⟩⟩⟩

theorem toField_wellFormed (h : d.toField = .ok f) : f.WellFormed := by
  obtain ⟨hlength, -, hoperator, -, htarget, hfield, haction, hneeds⟩ := toField_eq_ok_iff.1 h
  rw [← hfield] at hlength htarget
  obtain ⟨hwidth, hwhole⟩ := fieldLength_eq_ok hlength
  obtain ⟨hequal, hmsb, hmapping⟩ := checkOperator_eq_ok hneeds
  obtain ⟨hnot, hsent, hlsb, hlen, hsum, hdev, happ⟩ := checkAction_eq_ok haction
  exact
    { width := hwidth
      whole := hwhole
      narrow := fun bits he => fieldLength_narrow (he ▸ hlength)
      targets := fun bits he => target_fits (he ▸ htarget)
      equal := hequal
      msb := fun count he => ⟨matchingOperator_eq_msb (he ▸ hoperator), hmsb count he⟩
      mapping := fun he => by
        obtain ⟨values, hvalues⟩ := hmapping he
        exact ⟨values, hvalues, (target_eq_list (hvalues ▸ htarget)).1⟩
      notSent := hnot
      mappingSent := hsent
      lsb := hlsb
      computeLength := hlen
      computeChecksum := hsum
      devIid := hdev
      appIid := happ }

end FieldDescription

end HeaderCompression
