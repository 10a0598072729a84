import HeaderCompression.Proofs.Header.Coap

namespace HeaderCompression

variable {option : CoapOption} {options : List CoapOption} {message : CoapMessage}
  {column : Column} {columns : List Column} {header : List UInt8}

namespace CoapMessage

theorem insertOption_perm (option : CoapOption) (options : List CoapOption) :
    (insertOption option options).Perm (option :: options) := by
  have hmiddle : (insertOption option options).Perm
      (option :: (options.takeWhile (·.number ≤ option.number) ++
        options.dropWhile (·.number ≤ option.number))) := List.perm_middle
  rwa [List.takeWhile_append_dropWhile] at hmiddle

theorem insertOption_sorted (option : CoapOption)
    (h : options.Pairwise fun a b => a.number ≤ b.number) :
    (insertOption option options).Pairwise fun a b => a.number ≤ b.number := by
  induction options with
  | nil => exact List.pairwise_singleton ..
  | cons other options ih =>
    obtain ⟨hother, hoptions⟩ := List.pairwise_cons.1 h
    by_cases hle : other.number ≤ option.number
    · have hstep : insertOption option (other :: options) =
          other :: insertOption option options := by simp [insertOption, hle]
      rw [hstep, List.pairwise_cons]
      refine ⟨fun later hlater => ?_, ih hoptions⟩
      rcases List.mem_cons.1 ((insertOption_perm option options).mem_iff.1 hlater) with rfl | hlater
      · exact hle
      · exact hother later hlater
    · have hstep : insertOption option (other :: options) = option :: other :: options := by
        simp [insertOption, hle]
      have hless : option.number ≤ other.number := UInt16.le_of_lt (UInt16.not_le.1 hle)
      rw [hstep, List.pairwise_cons]
      refine ⟨fun later hlater => ?_, h⟩
      rcases List.mem_cons.1 hlater with rfl | hlater
      · exact hless
      · exact UInt16.le_trans hless (hother later hlater)

theorem length_extension_le (n : Nat) : (CoapOption.extension n).length ≤ 2 := by
  rw [CoapOption.extension]
  split
  · simp
  · split <;> simp

theorem length_encode (previous : UInt16) (option : CoapOption) :
    (option.encode previous).length = option.encodedLength previous := by
  simp only [CoapOption.encode, CoapOption.encodedLength, List.length_cons, List.length_append]
  omega

theorem encodedLength_le (previous : UInt16) (option : CoapOption) :
    option.encodedLength previous ≤ option.value.length + 5 := by
  have hdelta := length_extension_le (option.number.toNat - previous.toNat)
  have hlength := length_extension_le option.value.length
  rw [CoapOption.encodedLength]
  omega

theorem length_encodeOptions (previous : UInt16) (options : List CoapOption) :
    (encodeOptions previous options).length = optionsLength previous options := by
  induction options generalizing previous with
  | nil => rfl
  | cons option options ih =>
    rw [encodeOptions_cons, List.length_append, length_encode, ih, optionsLength]

theorem length_toBytes (message : CoapMessage) :
    message.toBytes.length = message.headerLength + message.payload.length := by
  rw [toBytes_eq, headerBytes, headerLength]
  simp only [List.length_append, length_encodeOptions, fixedHeader, List.length_cons,
    length_bytesOfNat]
  split <;> simp

theorem Ascending.of_cons {previous : UInt16} (h : Ascending previous (option :: options)) :
    previous.toNat ≤ option.number.toNat ∧ Ascending option.number options := by
  obtain ⟨hprevious, hoptions⟩ := List.pairwise_cons.1 h
  exact ⟨UInt16.le_iff_toNat_le.1 (hprevious option.number List.mem_cons_self), hoptions⟩

def optionsRoom (options : List CoapOption) : Nat :=
  (options.map fun option => option.value.length + 5).sum

theorem optionsLength_le (previous : UInt16) (options : List CoapOption) :
    optionsLength previous options ≤ optionsRoom options := by
  induction options generalizing previous with
  | nil => exact Nat.le_refl _
  | cons option options ih =>
    have hfirst := encodedLength_le previous option
    have hrest := ih option.number
    rw [optionsLength, optionsRoom, List.map_cons, List.sum_cons]
    exact Nat.add_le_add hfirst hrest

end CoapMessage

/-- What a column adds to the encoding of a message, at most: the value of an option and the bytes
in front of it. -/
def Column.room (column : Column) : Nat :=
  match column.field with
  | .coapOption _ => column.value.length + 5
  | _ => 0

namespace CoapHeader

/-- A draft that can be encoded, with options that take so many bytes at most. -/
structure Draft.Within (draft : Draft) (room : Nat) : Prop where
  token : draft.message.token.length ≤ CoapMessage.maxTokenLength
  sorted : draft.message.options.Pairwise fun a b => a.number ≤ b.number
  room : CoapMessage.optionsRoom draft.message.options ≤ room
  payload : draft.message.payload = []

variable {draft draft' : Draft} {room : Nat}

theorem Draft.within_blank : Draft.blank.Within 0 :=
  ⟨Nat.zero_le _, .nil, Nat.le_refl _, rfl⟩

theorem Draft.Within.mono {more : Nat} (h : draft.Within room) : draft.Within (room + more) :=
  ⟨h.token, h.sorted, h.room.trans (Nat.le_add_right ..), h.payload⟩

theorem Draft.Within.add (h : draft.Within room) (hadd : draft.add column = .ok draft') :
    draft'.Within (room + column.room) := by
  obtain ⟨htoken, hsorted, hroom, hpayload⟩ := h
  unfold Draft.add at hadd
  cases hfield : column.field <;> rw [hfield] at hadd <;> dsimp only at hadd
  case coapToken =>
    obtain ⟨message, hmessage, hadd⟩ := bind_eq_ok_iff.1 hadd
    cases hadd
    rw [CoapMessage.withToken] at hmessage
    split at hmessage
    · rename_i hshort
      cases hmessage
      exact ⟨hshort, hsorted, hroom.trans (Nat.le_add_right ..), hpayload⟩
    · cases hmessage
  case coapOption name =>
    cases hadd
    have hperm := CoapMessage.insertOption_perm ⟨name.number, column.value⟩ draft.message.options
    refine ⟨htoken, CoapMessage.insertOption_sorted _ hsorted, ?_, hpayload⟩
    have hsum := (hperm.map fun option => option.value.length + 5).sum_nat
    rw [Column.room, hfield]
    dsimp only [CoapMessage.addOption]
    rw [CoapMessage.optionsRoom, hsum, List.map_cons, List.sum_cons, Nat.add_comm]
    exact Nat.add_le_add_right hroom _
  all_goals cases hadd
  all_goals exact ⟨htoken, hsorted, hroom.trans (Nat.le_add_right ..), hpayload⟩

theorem Draft.Within.foldlM (h : draft.Within room)
    (hfold : columns.foldlM Draft.add draft = .ok draft') :
    draft'.Within (room + (columns.map Column.room).sum) := by
  induction columns generalizing draft room with
  | nil =>
    cases hfold
    exact h.mono
  | cons column columns ih =>
    rw [List.foldlM_cons] at hfold
    obtain ⟨next, hnext, hfold⟩ := bind_eq_ok_iff.1 hfold
    rw [List.map_cons, List.sum_cons, ← Nat.add_assoc]
    exact ih (h.add hnext) hfold

theorem Draft.Within.headerLength_le (h : draft.Within room) :
    draft.message.headerLength ≤ 12 + room := by
  have htoken := h.token
  have hoptions := (CoapMessage.optionsLength_le 0 draft.message.options).trans h.room
  rw [CoapMessage.maxTokenLength] at htoken
  rw [CoapMessage.headerLength, h.payload, List.isEmpty_nil, if_pos rfl]
  omega

theorem length_of_ofColumns (h : ofColumns columns = .ok header) :
    header.length ≤ 13 + (columns.map Column.room).sum := by
  obtain ⟨draft, hdraft, h⟩ := bind_eq_ok_iff.1 h
  have hwithin := Draft.within_blank.foldlM hdraft
  have hlength := hwithin.headerLength_le
  rw [Nat.zero_add] at hlength
  cases hannounced : draft.tokenLength? with
  | none =>
    rw [hannounced] at h
    cases h
  | some announced =>
    rw [hannounced] at h
    dsimp only at h
    split at h
    · exact (throw_bind_ne_ok h).elim
    · cases h
      rw [List.length_append, CoapMessage.length_toBytes, hwithin.payload, List.length_nil]
      split
      · rw [List.length_singleton]
        omega
      · rw [List.length_nil]
        omega

/-- Only a token that is too long, or a column of another layer, cannot be added. -/
theorem Draft.eq_of_add_eq_error {error : Error} (h : draft.add column = .error error)
    (hlayer : column.field.layer = .application) :
    CoapMessage.maxTokenLength < column.value.length ∧
      error = .packet (.coap (.longToken column.value.length)) := by
  unfold Draft.add at h
  cases hfield : column.field <;> rw [hfield] at h hlayer <;> dsimp only at h
  case coapToken =>
    rw [CoapMessage.withToken] at h
    split at h
    · cases h
    · rename_i hlong
      cases h
      exact ⟨Nat.lt_of_not_le hlong, rfl⟩
  all_goals cases h
  all_goals cases hlayer

theorem Draft.eq_of_foldlM_eq_error {error : Error}
    (h : columns.foldlM Draft.add draft = .error error)
    (hlayer : ∀ column ∈ columns, column.field.layer = .application) :
    ∃ length, CoapMessage.maxTokenLength < length ∧
      error = .packet (.coap (.longToken length)) := by
  induction columns generalizing draft with
  | nil => cases h
  | cons column columns ih =>
    obtain ⟨hcolumn, hcolumns⟩ := List.forall_mem_cons.1 hlayer
    rw [List.foldlM_cons] at h
    cases hadd : draft.add column with
    | ok next =>
      rw [hadd] at h
      exact ih h hcolumns
    | error fault =>
      rw [hadd] at h
      cases h
      exact ⟨_, Draft.eq_of_add_eq_error hadd hcolumn⟩

end CoapHeader

end HeaderCompression
