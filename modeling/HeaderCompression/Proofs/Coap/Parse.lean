import HeaderCompression.Coap.Parse
import HeaderCompression.Proofs.Bits.Width
import HeaderCompression.Proofs.Outcome
import Mathlib.Data.Set.Operations

namespace HeaderCompression

variable {data rest payload : List UInt8} {number n : Nat} {previous : UInt16} {first : UInt8}
  {option : CoapOption} {options : List CoapOption} {message : CoapMessage}

namespace CoapMessage

theorem readNumber_eq_ok {nibble : Nat} (h : readNumber nibble data = .ok (n, rest)) :
    data = CoapOption.extension n ++ rest ∧ CoapOption.nibble n = nibble ∧ n < 65536 := by
  unfold readNumber at h
  split at h
  · cases h
    rename_i hsmall
    simp only [CoapOption.extension, CoapOption.nibble, if_pos hsmall]
    exact ⟨rfl, trivial, by omega⟩
  · split at h
    · split at h
      · rename_i byte _
        cases h
        have hbyte := byte.toNat_lt
        have hlow : ¬ byte.toNat + 13 < 13 := by omega
        have hhigh : byte.toNat + 13 < 269 := by omega
        simp only [CoapOption.extension, CoapOption.nibble, if_neg hlow, if_pos hhigh]
        exact ⟨by simp, by omega, by omega⟩
      · cases h
    · split at h
      · split at h
        · rename_i high low _
          dsimp only at h
          split at h
          · cases h
            have hlow : ¬ natOfBytes [high, low] + 269 < 13 := by omega
            have hhigh : ¬ natOfBytes [high, low] + 269 < 269 := by omega
            simp only [CoapOption.extension, CoapOption.nibble, if_neg hlow, if_neg hhigh,
              Nat.add_sub_cancel]
            exact ⟨by rw [bytesOfNat_two]; rfl, by omega, by omega⟩
          · cases h
        · cases h
      · cases h

theorem nibble_le (n : Nat) : CoapOption.nibble n ≤ 14 := by
  rw [CoapOption.nibble]
  split
  · omega
  · split <;> omega

/-- The largest number that two bytes can hold behind a half byte: they hold what is above 269. -/
def maxNumber : Nat := 269 + 65535

/-- What is written of a number is only read if the number has 16 bits, although two bytes hold some
more. -/
theorem readNumber_encode (hn : n ≤ maxNumber) (rest : List UInt8) :
    readNumber (CoapOption.nibble n) (CoapOption.extension n ++ rest) =
      if n < 65536 then .ok (n, rest) else .error .largeOptionField := by
  rw [maxNumber] at hn
  unfold readNumber CoapOption.nibble CoapOption.extension
  by_cases hsmall : n < 13
  · have hn : n < 65536 := by omega
    simp only [if_pos hsmall, List.nil_append, if_pos hn]
  by_cases hmiddle : n < 269
  · have hbyte : (UInt8.ofNat (n - 13)).toNat = n - 13 :=
      UInt8.toNat_ofNat_of_lt' (by rw [UInt8.size]; omega)
    have hback : n - 13 + 13 = n := by omega
    have hn : n < 65536 := by omega
    simp [hsmall, hmiddle, hbyte, hback, hn]
  · obtain ⟨high, low, hbytes⟩ := List.length_eq_two.1 (length_bytesOfNat 2 (n - 269))
    have hword : natOfBytes [high, low] = n - 269 := by
      rw [← hbytes, natOfBytes_bytesOfNat, Nat.mod_eq_of_lt (by omega)]
    have hback : n - 269 + 269 = n := by omega
    simp [hsmall, hmiddle, hbytes, hword, hback]

theorem readNumber_nibble (hn : n < 65536) (rest : List UInt8) :
    readNumber (CoapOption.nibble n) (CoapOption.extension n ++ rest) = .ok (n, rest) := by
  rw [readNumber_encode (hn.le.trans (by decide)), if_pos hn]

theorem readOption_eq_ok (h : readOption previous first data = .ok (option, rest)) :
    first :: data = option.encode previous ++ rest ∧ previous ≤ option.number ∧
      option.value.length < 65536 := by
  obtain ⟨⟨delta, afterDelta⟩, hdelta, h⟩ := bind_eq_ok_iff.1 h
  obtain ⟨⟨length, afterLength⟩, hlength, h⟩ := bind_eq_ok_iff.1 h
  dsimp only at h
  split at h
  · exact (throw_bind_ne_ok h).elim
  · split at h
    · exact (throw_bind_ne_ok h).elim
    · rename_i hnumber hvalue
      cases h
      obtain ⟨hdata, hdeltaNibble, -⟩ := readNumber_eq_ok hdelta
      obtain ⟨hafter, hlengthNibble, hshort⟩ := readNumber_eq_ok hlength
      have htoNat : (UInt16.ofNat (previous.toNat + delta)).toNat = previous.toNat + delta :=
        UInt16.toNat_ofNat_of_lt' (by simpa using hnumber)
      have hlen : (afterLength.take length).length = length := by
        rw [List.length_take] at hvalue ⊢
        omega
      have hfirst : UInt8.ofNat (16 * (first.toNat / 16) + first.toNat % 16) = first := by
        rw [Nat.div_add_mod, UInt8.ofNat_toNat]
      refine ⟨?_, ?_, hlen.trans_lt hshort⟩
      · simp only [CoapOption.encode, htoNat, hlen, Nat.add_sub_cancel_left, hdeltaNibble,
          hlengthNibble, hfirst, hdata, hafter]
        simp
      · rw [UInt16.le_iff_toNat_le, htoNat]
        omega

/-- The encoding of an option starts with no payload marker. It is read as far as the length of the
value can be read. -/
theorem readOption_encode (hle : previous ≤ option.number)
    (hvalue : option.value.length ≤ maxNumber) (rest : List UInt8) :
    ∃ first tail, option.encode previous = first :: tail ∧ first ≠ payloadMarker ∧
      readOption previous first (tail ++ rest) =
        if option.value.length < 65536 then .ok (option, rest) else .error .largeOptionField := by
  obtain ⟨delta, hdelta⟩ : ∃ delta, option.number.toNat - previous.toNat = delta := ⟨_, rfl⟩
  have hnumber := option.number.toNat_lt
  have hsum : previous.toNat + delta = option.number.toNat := by
    rw [UInt16.le_iff_toNat_le] at hle
    omega
  have hhigh := nibble_le delta
  have hlow := nibble_le option.value.length
  have hfirst : (UInt8.ofNat (16 * CoapOption.nibble delta +
      CoapOption.nibble option.value.length)).toNat =
      16 * CoapOption.nibble delta + CoapOption.nibble option.value.length :=
    UInt8.toNat_ofNat_of_lt' (by rw [UInt8.size]; omega)
  refine ⟨_, _, rfl, fun hmarker => ?_, ?_⟩
  · rw [hdelta] at hmarker
    have hbyte := hfirst.symm.trans (congrArg UInt8.toNat hmarker)
    rw [show payloadMarker.toNat = 255 from rfl] at hbyte
    omega
  · rw [readOption, hdelta, hfirst, Nat.mul_add_div (by decide), Nat.div_eq_of_lt (by omega),
      Nat.add_zero, Nat.mul_add_mod, Nat.mod_eq_of_lt (by omega), List.append_assoc,
      List.append_assoc, readNumber_nibble (by omega)]
    change (readNumber _ _ >>= _) = _
    rw [readNumber_encode hvalue]
    split
    · refine bind_eq_ok_iff.2 ⟨_, rfl, ?_⟩
      dsimp only
      rw [hsum, if_neg (by omega), List.take_left, if_neg (by omega), List.drop_left,
        UInt16.ofNat_toNat]
      rfl
    · rfl

/-- Options that start behind `previous` and stand in the order of their numbers. -/
def Ascending (previous : UInt16) (options : List CoapOption) : Prop :=
  (previous :: options.map (·.number)).Pairwise (· ≤ ·)

theorem ascending_zero :
    Ascending 0 options ↔ options.Pairwise fun a b => a.number ≤ b.number := by
  rw [Ascending, List.pairwise_cons, List.pairwise_map, and_iff_right]
  exact fun _ _ => UInt16.zero_le

theorem readOptions_eq_ok {read : List CoapOption}
    (h : readOptions read previous data = .ok (options, payload)) :
    ∃ more, options = read.reverse ++ more ∧
      data = encodeOptions previous more ++ encodePayload payload ∧ Ascending previous more ∧
      ∀ option ∈ more, option.value.length < 65536 := by
  fun_induction readOptions read previous data with
  | case1 read previous =>
    cases h
    exact ⟨[], by simp, rfl, by simp [Ascending], by simp⟩
  | case2 read previous data hempty => cases h
  | case3 read previous data hempty =>
    cases h
    refine ⟨[], by simp, ?_, by simp [Ascending], by simp⟩
    simp [encodePayload, hempty]
  | case4 read previous first data hmarker fault hfault => cases h
  | case5 read previous first data hmarker option rest hoption ih =>
    obtain ⟨more, hoptions, hrest, hasc, hshort⟩ := ih h
    obtain ⟨hbytes, hle, hvalue⟩ := readOption_eq_ok hoption
    refine ⟨option :: more, by simp [hoptions], ?_, ?_, List.forall_mem_cons.2 ⟨hvalue, hshort⟩⟩
    · rw [hbytes, hrest, encodeOptions_cons, List.append_assoc]
    · refine List.pairwise_cons.2 ⟨?_, hasc⟩
      intro number hnumber
      rcases List.mem_cons.1 hnumber with rfl | hnumber
      · exact hle
      · exact UInt16.le_trans hle ((List.pairwise_cons.1 hasc).1 number hnumber)

theorem readOptions_cons (read : List CoapOption) (hmarker : first ≠ payloadMarker) :
    readOptions read previous (first :: data) =
      readOption previous first data >>= fun p => readOptions (p.1 :: read) p.1.number p.2 := by
  rw [readOptions, if_neg hmarker]
  split
  · rename_i hfault
    rw [hfault]
    rfl
  · rename_i hoption
    rw [hoption]
    rfl

theorem readOptions_encodeOptions (hoptions : Ascending previous options)
    (hvalues : ∀ option ∈ options, option.value.length ≤ maxNumber) (read : List CoapOption)
    (payload : List UInt8) :
    readOptions read previous (encodeOptions previous options ++ encodePayload payload) =
      if ∀ option ∈ options, option.value.length < 65536 then .ok (read.reverse ++ options, payload)
      else .error .largeOptionField := by
  induction options generalizing read previous with
  | nil =>
    rw [encodeOptions_nil, List.nil_append, List.append_nil, encodePayload,
      if_pos (List.forall_mem_nil _)]
    split
    · rename_i hempty
      rw [readOptions, List.isEmpty_iff.1 hempty]
    · rename_i hempty
      rw [readOptions, if_pos rfl, if_neg hempty]
  | cons option options ih =>
    obtain ⟨hle, hrest⟩ := List.pairwise_cons.1 hoptions
    obtain ⟨hvalue, hvalues⟩ := List.forall_mem_cons.1 hvalues
    obtain ⟨first, tail, hencode, hmarker, hread⟩ := readOption_encode
      (hle option.number List.mem_cons_self) hvalue
      (encodeOptions option.number options ++ encodePayload payload)
    rw [encodeOptions_cons, hencode, List.append_assoc, List.cons_append,
      readOptions_cons read hmarker, hread]
    by_cases hshort : option.value.length < 65536
    · rw [if_pos hshort]
      refine (ih hrest hvalues _).trans ?_
      simp [hshort]
    · rw [if_neg hshort, if_neg fun hall => hshort (hall option List.mem_cons_self)]
      rfl

/-- A message that has an encoding of its own. Types are below 4 in every message. -/
structure WellFormed (message : CoapMessage) : Prop where
  version : message.version = 1
  token : message.token.length ≤ maxTokenLength
  sorted : message.options.Pairwise fun a b => a.number ≤ b.number
  values : ∀ option ∈ message.options, option.value.length ≤ 65535

theorem parse_eq_ok (h : parse data = .ok message) :
    message.WellFormed ∧ message.toBytes = data := by
  unfold parse at h
  split at h
  · rename_i first code high low rest
    dsimp only at h
    split at h
    · exact (throw_bind_ne_ok h).elim
    split at h
    · exact (throw_bind_ne_ok h).elim
    split at h
    · exact (throw_bind_ne_ok h).elim
    rename_i hversion hlong htoken
    obtain ⟨⟨options, payload⟩, hoptions, h⟩ := bind_eq_ok_iff.1 h
    cases h
    obtain ⟨more, rfl, hrest, hasc, hshort⟩ := readOptions_eq_ok hoptions
    have hlen : (rest.take (first.toNat % 16)).length = first.toNat % 16 := by
      rw [List.length_take] at htoken ⊢
      omega
    have hfirst :
        UInt8.ofNat (64 * 1 + 16 * (first.toNat / 16 % 4) + first.toNat % 16) = first := by
      rw [← UInt8.toNat_inj, UInt8.toNat_ofNat']
      have := first.toNat_lt
      omega
    have hid : (UInt16.ofNat (natOfBytes [high, low])).toNat = natOfBytes [high, low] :=
      UInt16.toNat_ofNat_of_lt' (by simpa using natOfBytes_lt [high, low])
    refine ⟨⟨rfl, by rw [hlen]; omega, ascending_zero.1 hasc,
      fun option hoption => Nat.le_of_lt_succ (hshort option hoption)⟩, ?_⟩
    simp only [toBytes, fixedHeader, hlen, hid, bytesOfNat_two, List.append_assoc, ← hrest,
      List.take_append_drop]
    exact congrArg (· :: code :: high :: low :: rest) hfirst
  · exact (throw_ne_ok h).elim

theorem parse_toBytes (hversion : message.version = 1)
    (htoken : message.token.length ≤ maxTokenLength)
    (hsorted : message.options.Pairwise fun a b => a.number ≤ b.number)
    (hvalues : ∀ option ∈ message.options, option.value.length ≤ maxNumber) :
    parse message.toBytes =
      if ∀ option ∈ message.options, option.value.length < 65536 then .ok message
      else .error .largeOptionField := by
  obtain ⟨version, type, code, messageId, token, options, payload⟩ := message
  dsimp only at hversion htoken hsorted hvalues
  subst hversion
  rw [maxTokenLength] at htoken
  have htype := type.isLt
  obtain ⟨first, hfirst⟩ : ∃ first, 64 * 1 + 16 * type.val + token.length = first := ⟨_, rfl⟩
  have hbyte : (UInt8.ofNat first).toNat = first :=
    UInt8.toNat_ofNat_of_lt' (by rw [UInt8.size]; omega)
  obtain ⟨high, low, hbytes⟩ := List.length_eq_two.1 (length_bytesOfNat 2 messageId.toNat)
  have hid : natOfBytes [high, low] = messageId.toNat := by
    rw [← hbytes, natOfBytes_bytesOfNat, Nat.mod_eq_of_lt (by simpa using messageId.toNat_lt)]
  have hdata : toBytes ⟨1, type, code, messageId, token, options, payload⟩ =
      UInt8.ofNat first :: code :: high :: low ::
        (token ++ (encodeOptions 0 options ++ encodePayload payload)) := by
    simp [toBytes, fixedHeader, hbytes, ← hfirst]
  have hversion : first / 64 = 1 := by omega
  have hlength : first % 16 = token.length := by omega
  have htype : Fin.ofNat 4 (first / 16) = type := by
    apply Fin.ext
    rw [Fin.val_ofNat]
    omega
  rw [hdata, parse]
  dsimp only
  rw [hbyte, hversion, hlength, hid, htype, List.take_left, List.drop_left, if_neg (by simp),
    if_neg (by rw [maxTokenLength]; omega), if_neg (by omega)]
  change (readOptions _ _ _ >>= _) = _
  rw [readOptions_encodeOptions (ascending_zero.2 hsorted) hvalues]
  split
  · simp [pure, Except.pure, bind, Except.bind]
  · rfl

theorem WellFormed.parse_toBytes (h : message.WellFormed) :
    parse message.toBytes = .ok message := by
  rw [CoapMessage.parse_toBytes h.version h.token h.sorted
    fun option hoption => (h.values option hoption).trans (by decide)]
  exact if_pos fun option hoption => Nat.lt_succ_of_le (h.values option hoption)

theorem parse_eq_ok_iff :
    parse data = .ok message ↔ message.WellFormed ∧ message.toBytes = data := by
  refine ⟨parse_eq_ok, ?_⟩
  rintro ⟨hwell, rfl⟩
  exact hwell.parse_toBytes

theorem ofBytes?_eq_ok_iff :
    ofBytes? data = .ok message ↔ message.WellFormed ∧ message.toBytes = data :=
  mapError_eq_ok_iff.trans parse_eq_ok_iff

/-- Reading is the inverse of encoding: it gives the well-formed message whose encoding it is given,
of which there is only one, and it fails on all bytes that are no such encoding. -/
theorem reading_inverts_encoding (data : List UInt8) (message : CoapMessage) :
    (ofBytes? data = .ok message ↔ message.WellFormed ∧ message.toBytes = data) ∧
      Set.InjOn toBytes {message | message.WellFormed} ∧
      ((∃ error, ofBytes? data = .error error) ↔
        ¬ ∃ message : CoapMessage, message.WellFormed ∧ message.toBytes = data) := by
  refine ⟨ofBytes?_eq_ok_iff, ?_, ?_⟩
  · intro a ha b hb hbytes
    exact Except.ok.inj (ha.parse_toBytes.symm.trans (hbytes ▸ hb.parse_toBytes))
  · cases hread : ofBytes? data with
    | error error =>
      simp only [Except.error.injEq, exists_eq', true_iff, not_exists]
      intro message hmessage
      rw [ofBytes?_eq_ok_iff.2 hmessage] at hread
      cases hread
    | ok message => simpa using ⟨message, ofBytes?_eq_ok_iff.1 hread⟩

end CoapMessage

end HeaderCompression
