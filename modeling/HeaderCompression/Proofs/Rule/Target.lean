import HeaderCompression.Proofs.Rule.WellFormed
import HeaderCompression.Rule.Acceptance

namespace HeaderCompression

variable {xs ys value : List UInt8} {bits n : Nat} {field : HeaderField} {length : FieldLength}
  {d : FieldDescription} {f : RuleField}

theorem natOfBytes_ge_of_first (byte : UInt8) (bytes : List UInt8) :
    byte.toNat * 2 ^ (8 * bytes.length) ≤ natOfBytes (byte :: bytes) := by
  rw [natOfBytes_cons, show (256 : Nat) = 2 ^ 8 from rfl, ← pow_mul]
  exact Nat.le_add_right ..

/-- Without leading zeros, the length and the first byte tell how large a number is. -/
theorem natOfBytes_lt_iff (hhead : value.head? ≠ some 0) (bits : Nat) :
    natOfBytes value < 2 ^ bits ↔ value.length ≤ bytesFor bits ∧
      (value.length = bytesFor bits → bits % 8 ≠ 0 → (value.headD 0).toNat < 2 ^ (bits % 8)) := by
  refine ⟨fun hlt => ?_, fun ⟨hlen, hfirst⟩ => natOfBytes_lt_of_first hlen hfirst⟩
  cases value with
  | nil => exact ⟨Nat.zero_le _, fun _ _ => by simp⟩
  | cons byte bytes =>
    have hbyte : 0 < byte.toNat := by
      apply Nat.pos_of_ne_zero
      intro hzero
      exact hhead (congrArg some (UInt8.toNat_inj.1 hzero))
    have hsum := natOfBytes_ge_of_first byte bytes
    have hshort : 8 * bytes.length < bits := by
      apply (Nat.pow_lt_pow_iff_right (show 1 < 2 by decide)).1
      calc 2 ^ (8 * bytes.length) ≤ byte.toNat * 2 ^ (8 * bytes.length) :=
            Nat.le_mul_of_pos_left _ hbyte
        _ < 2 ^ bits := hsum.trans_lt hlt
    simp only [bytesFor, List.length_cons, List.headD_cons]
    refine ⟨by omega, fun hlen hpart => ?_⟩
    have hbits : bits = bits % 8 + 8 * bytes.length := by omega
    apply Nat.lt_of_mul_lt_mul_right (a := 2 ^ (8 * bytes.length))
    rw [← pow_add, ← hbits]
    exact hsum.trans_lt hlt

theorem head?_dropWhile_zero (value : List UInt8) :
    (value.dropWhile (· == 0)).head? ≠ some 0 := by
  intro hhead
  have hne := List.head?_dropWhile_not (· == 0) value
  rw [hhead] at hne
  cases hne

theorem eq_of_natOfBytes_eq (hxs : xs.head? ≠ some 0) (hys : ys.head? ≠ some 0)
    (h : natOfBytes xs = natOfBytes ys) : xs = ys := by
  wlog hle : xs.length ≤ ys.length generalizing xs ys
  · exact (this hys hxs h.symm (Nat.le_of_not_le hle)).symm
  have hpadded : List.replicate (ys.length - xs.length) 0 ++ xs = ys := by
    apply natOfBytes_injective
    · simp
      omega
    · rw [natOfBytes_replicate_zero_append, h]
  cases hmissing : ys.length - xs.length with
  | zero => rwa [hmissing] at hpadded
  | succ missing =>
    rw [hmissing, List.replicate_succ] at hpadded
    exact (hys (by rw [← hpadded]; rfl)).elim

theorem Column.matchesValue_ofNat {m : Nat} (hm : m < 2 ^ bits) (hn : n < 2 ^ bits) :
    (Column.ofNat field bits m).matchesValue (Column.ofNat field bits n).value ↔ m = n := by
  have hroom : 2 ^ bits ≤ 256 ^ bytesFor bits := by
    rw [show (256 : Nat) = 2 ^ 8 from rfl, ← pow_mul, ← add_padding]
    exact Nat.pow_le_pow_right (by decide) (Nat.le_add_right ..)
  rw [matchesValue, beq_iff_eq]
  constructor
  · intro hsame
    have hnat := congrArg natOfBytes hsame
    simp only [Column.ofNat, natOfBytes_bytesOfNat] at hnat
    rwa [Nat.mod_eq_of_lt (hm.trans_le hroom), Nat.mod_eq_of_lt (hn.trans_le hroom)] at hnat
  · rintro rfl
    rfl

namespace FieldDescription

/-- A value can be brought to a width exactly if its number fits the width, and becomes this number
in as many bytes as the width takes. -/
theorem fitted_eq (bits : Nat) (value : List UInt8) :
    fitted bits value = if natOfBytes value < 2 ^ bits then
        .ok (bytesOfNat (bytesFor bits) (natOfBytes value))
      else .error (.wideTarget bits) := by
  have hlt := natOfBytes_lt_iff (head?_dropWhile_zero value) bits
  rw [natOfBytes_dropWhile_zero] at hlt
  cases hresult : fitted bits value with
  | ok result =>
    obtain ⟨⟨hlen, hfits⟩, hnat⟩ := fitted_eq_ok hresult
    rw [if_pos (hnat ▸ hfits), ← hnat, ← hlen, bytesOfNat_natOfBytes]
  | error fault =>
    simp only [fitted] at hresult
    split at hresult
    · rename_i hwide
      cases hresult
      rw [if_neg]
      rw [hlt]
      rintro ⟨hlen, hfirst⟩
      rcases hwide with hlong | ⟨hlen', hpart, hshift⟩
      · omega
      · apply hshift
        rw [Nat.shiftRight_eq_div_pow, Nat.div_eq_zero_iff_lt (Nat.two_pow_pos _)]
        exact hfirst hlen' hpart
    · cases hresult

theorem natOfBytes_minimalBytes (n : UInt64) : natOfBytes (minimalBytes n.toNat) = n.toNat := by
  rw [minimalBytes, natOfBytes_dropWhile_zero, natOfBytes_bytesOfNat]
  exact Nat.mod_eq_of_lt n.toNat_lt

theorem length_minimalBytes_lt {n : UInt64} (h : natOfBytes value = n.toNat)
    (hne : value ≠ minimalBytes n.toNat) : (minimalBytes n.toNat).length < value.length := by
  have hsame : value.dropWhile (· == 0) = minimalBytes n.toNat := by
    apply eq_of_natOfBytes_eq (head?_dropWhile_zero _) (head?_dropWhile_zero _)
    rw [natOfBytes_dropWhile_zero, h]
    exact (natOfBytes_minimalBytes n).symm
  have hsuffix := List.dropWhile_suffix (· == (0 : UInt8)) (l := value)
  rw [hsame] at hsuffix
  exact Nat.lt_of_le_of_ne hsuffix.length_le fun hlen => hne (hsuffix.eq_of_length hlen).symm

theorem minimalBytes_eq_nil_iff {n : UInt64} : minimalBytes n.toNat = [] ↔ n = 0 := by
  constructor
  · intro hnil
    have hnat := natOfBytes_minimalBytes n
    rw [hnil] at hnat
    exact UInt64.toNat_inj.1 hnat.symm
  · rintro rfl
    rfl

theorem targetBytes_natural_fixed (field : HeaderField) (bits : Nat) (n : UInt64) :
    targetBytes field (.fixed bits) (.number (.natural n.toNat)) =
      if n.toNat < 2 ^ bits then .ok (Column.ofNat field bits n.toNat).value
      else .error (.wideTarget bits) := by
  have hfitted := fitted_eq bits (minimalBytes n.toNat)
  rw [natOfBytes_minimalBytes] at hfitted
  exact hfitted

theorem targetBytes_natural (hlength : ∀ bits, length ≠ .fixed bits) (n : UInt64) :
    targetBytes field length (.number (.natural n.toNat)) = .ok (minimalBytes n.toNat) := by
  cases length with
  | fixed bits => exact (hlength bits rfl).elim
  | _ => rfl

def withNumber (n : UInt64) (d : FieldDescription) : FieldDescription :=
  { d with target? := some (.number (.natural n.toNat)) }

theorem target_natural {operator : MatchingOperator} (hoperator : operator ≠ .mapping) (n : Nat) :
    target field length operator (some (.number (.natural n))) =
      .single <$> targetBytes field length (.number (.natural n)) := by
  cases operator with
  | mapping => exact (hoperator rfl).elim
  | _ => exact (map_eq_pure_bind ..).symm

/-- Which single target value a field has does not matter to the checks. -/
theorem checks_single (f : RuleField) (value other : List UInt8) :
    checkAction { f with target := .single value } =
        checkAction { f with target := .single other } ∧
      checkOperator { f with target := .single value } =
        checkOperator { f with target := .single other } :=
  ⟨rfl, rfl⟩

theorem toField_withNumber {m : UInt64} (h : (d.withNumber m).toField = .ok f) (n : UInt64)
    (g : RuleField) :
    (d.withNumber n).toField = .ok g ↔
      ∃ value, targetBytes d.field f.length (.number (.natural n.toNat)) = .ok value ∧
        g = { f with target := .single value } := by
  obtain ⟨hlength, hdirection, hoperator, haction, htarget, hfield, hneeds, hoperand⟩ :=
    toField_eq_ok_iff.1 h
  have hsingle : f.operator ≠ .mapping := by
    intro hmapping
    rw [hmapping] at htarget
    cases htarget
  obtain ⟨known, -, hknown⟩ := map_eq_ok_iff.1 ((target_natural hsingle m.toNat).symm.trans htarget)
  constructor
  · intro hg
    obtain ⟨hlength', hdirection', hoperator', haction', htarget', hfield', -, -⟩ :=
      toField_eq_ok_iff.1 hg
    obtain ⟨field, length, direction?, operator, target, action⟩ := g
    cases hlength.symm.trans hlength'
    cases hdirection.symm.trans hdirection'
    cases hoperator.symm.trans hoperator'
    cases haction.symm.trans haction'
    cases hfield.trans hfield'.symm
    obtain ⟨value, hvalue, rfl⟩ :=
      map_eq_ok_iff.1 ((target_natural hsingle n.toNat).symm.trans htarget')
    exact ⟨value, hvalue, rfl⟩
  · rintro ⟨value, hvalue, rfl⟩
    have hsame := checks_single f value known
    rw [hknown] at hsame
    refine toField_eq_ok_iff.2 ⟨hlength, hdirection, hoperator, haction, ?_, hfield,
      hsame.1.trans hneeds, hsame.2.trans hoperand⟩
    exact (target_natural hsingle n.toNat).trans (map_eq_ok_iff.2 ⟨value, hvalue, rfl⟩)

/-- A number has one representation in rules and in packets. Any value is brought to a width exactly
if its number fits, and as this number. So a header field takes the numbers below its width, and of
all columns of this width its target matches the one of the same number; where the length is left to
the packet, the target is the shortest spelling of the number. A description loads with a number
exactly if the value is taken, and the value is all that changes with the number. -/
theorem number_representation :
    (∀ bits value, fitted bits value =
      if natOfBytes value < 2 ^ bits then .ok (bytesOfNat (bytesFor bits) (natOfBytes value))
      else .error (.wideTarget bits)) ∧
    (∀ (field : HeaderField) (bits : Nat), field.width? = some bits → ∀ n : UInt64,
      ((∃ value, targetBytes field (.fixed bits) (.number (.natural n.toNat)) = .ok value) ↔
        n.toNat < 2 ^ bits) ∧
      ∀ value, targetBytes field (.fixed bits) (.number (.natural n.toNat)) = .ok value →
        ∀ x < 2 ^ bits, (Column.ofNat field bits x).matchesValue value ↔ x = n.toNat) ∧
    (∀ (field : HeaderField) (length : FieldLength), (∀ bits, length ≠ .fixed bits) → ∀ n : UInt64,
      ∃ value, targetBytes field length (.number (.natural n.toNat)) = .ok value ∧
        natOfBytes value = n.toNat ∧ (value = [] ↔ n = 0) ∧
        ∀ other, natOfBytes other = n.toNat → other ≠ value → value.length < other.length) ∧
    ∀ (d : FieldDescription) (f : RuleField), (d.withNumber 0).toField = .ok f →
      (∀ bits, d.field.width? = some bits → f.length = .fixed bits) ∧
      ∀ (n : UInt64) (g : RuleField), (d.withNumber n).toField = .ok g ↔
        ∃ value, targetBytes d.field f.length (.number (.natural n.toNat)) = .ok value ∧
          g = { f with target := .single value } := by
  refine ⟨fitted_eq, ?fixed, ?unfixed, ?loaded⟩
  case fixed =>
    intro field bits hwidth n
    rw [targetBytes_natural_fixed]
    refine ⟨?_, fun value hvalue x hx => ?_⟩
    · split <;> simp_all
    · split at hvalue
      · rename_i hn
        cases hvalue
        exact Column.matchesValue_ofNat hx hn
      · cases hvalue
  case unfixed =>
    intro field length hlength n
    exact ⟨_, targetBytes_natural hlength n, natOfBytes_minimalBytes n, minimalBytes_eq_nil_iff,
      fun other hother hne => length_minimalBytes_lt hother hne⟩
  case loaded =>
    intro d f hf
    refine ⟨fun bits hwidth => ?_, fun n g => toField_withNumber hf n g⟩
    have hfield : f.field = d.field := (toField_eq_ok_iff.1 hf).2.2.2.2.2.1
    exact (toField_wellFormed hf).width bits (hfield ▸ hwidth)

def flowLabel : FieldDescription :=
  ⟨.ipv6FlowLabel, none, none, none, "equal", none, "not-sent"⟩

def contentFormat : FieldDescription :=
  ⟨.coapOption .contentFormat, none, some "UP", none, "equal", none, "not-sent"⟩

/-- A flow label takes the number `0x12345` in three bytes and no number of 21 bits; the option
takes 256 in two bytes, which a spelling with a leading zero exceeds. -/
theorem flowLabel_representation :
    (∃ f, (flowLabel.withNumber 0x12345).toField = .ok f ∧
      f.target = .single [0x01, 0x23, 0x45]) ∧
    (¬ ∃ f, (flowLabel.withNumber 0x100000).toField = .ok f) ∧
    (∃ f, (contentFormat.withNumber 256).toField = .ok f ∧ f.target = .single [1, 0]) ∧
    natOfBytes [0, 1, 0] = 256 ∧ [1, 0].length < [0, 1, 0].length := by
  obtain ⟨-, hfixed, hunfixed, hloaded⟩ := number_representation
  have hlabel : (flowLabel.withNumber 0).toField =
      .ok ⟨.ipv6FlowLabel, .fixed 20, none, .equal, .single [0, 0, 0], .notSent⟩ := by
    decide +kernel
  have hoption : (contentFormat.withNumber 0).toField =
      .ok ⟨.coapOption .contentFormat, .variable, some .up, .equal, .single [], .notSent⟩ := by
    decide +kernel
  have hbytes : targetBytes .ipv6FlowLabel (.fixed 20) (.number (.natural 0x12345)) =
      .ok [0x01, 0x23, 0x45] := by decide +kernel
  have hminimal : targetBytes (.coapOption .contentFormat) .variable (.number (.natural 256)) =
      .ok [1, 0] := by decide +kernel
  refine ⟨⟨_, ((hloaded _ _ hlabel).2 0x12345 _).2 ⟨_, hbytes, rfl⟩, rfl⟩, ?wide,
    ⟨_, ((hloaded _ _ hoption).2 256 _).2 ⟨_, hminimal, rfl⟩, rfl⟩, rfl, ?longer⟩
  case wide =>
    rintro ⟨f, hf⟩
    obtain ⟨value, hvalue, -⟩ := ((hloaded _ _ hlabel).2 0x100000 f).1 hf
    exact absurd ((hfixed .ipv6FlowLabel 20 rfl 0x100000).1.1 ⟨value, hvalue⟩) (by decide)
  case longer =>
    obtain ⟨value, hvalue, -, -, hlonger⟩ :=
      hunfixed (.coapOption .contentFormat) .variable (by simp) 256
    cases hvalue.symm.trans hminimal
    exact hlonger [0, 1, 0] rfl (by decide)

end FieldDescription

end HeaderCompression
