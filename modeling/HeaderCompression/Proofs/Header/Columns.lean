import HeaderCompression.Endpoint
import HeaderCompression.Proofs.Coap.Parse

namespace HeaderCompression

variable {layer : Layer} {direction : Direction} {data : List UInt8}
  {columns pre post : List Column} {column : Column} {length : Nat} {field : HeaderField}
  {message : CoapMessage}

/-- The value stands at the right end of the bytes of its width, which is a 16-bit number. -/
structure Column.Fits (column : Column) : Prop where
  value : FitsWidth column.bits column.value
  narrow : column.bits < 65536

/-- A column as wide as its field, with its value at the right end of the bytes of its width. -/
structure Column.Proper (column : Column) : Prop where
  width : ∀ bits ∈ column.field.width?, column.bits = bits
  value : FitsWidth column.bits column.value

theorem Column.exists_valueBits (h : FitsWidth column.bits column.value) :
    column.valueBits.length = column.bits ∧ alignRight column.valueBits = column.value := by
  obtain ⟨low, hlow, hvalue⟩ := h.exists_low
  have hdrop : 8 * column.value.length - column.bits = padding low.length := by
    rw [h.add_padding, hlow, Nat.add_sub_cancel]
  rw [valueBits, hdrop, hvalue, drop_padding_alignRight]
  exact ⟨hlow, rfl⟩

/-- Every token stands behind a column of its length. -/
def TokenAnnounced (columns : List Column) : Prop :=
  ∀ pre column post, columns = pre ++ column :: post → column.field = .coapToken →
    ∃ announced, Column.find? pre .coapTokenLength = some announced ∧
      announced.toNat = column.value.length

theorem tokenAnnounced_of_no_token (h : ∀ column ∈ columns, column.field ≠ .coapToken) :
    TokenAnnounced columns := by
  intro pre column post hcolumns hfield
  exact (h column (by simp [hcolumns]) hfield).elim

theorem Column.fits_ofNat {bits n : Nat} (hn : n < 2 ^ bits) (hbits : bits < 65536) :
    (Column.ofNat field bits n).Fits := by
  refine ⟨⟨by simp [Column.ofNat], ?_⟩, hbits⟩
  rw [Column.ofNat, natOfBytes_bytesOfNat]
  exact Nat.lt_of_le_of_lt (Nat.mod_le ..) hn

theorem Column.fits_ofBytes {value : List UInt8} (h : value.length ≤ maxBytes) :
    (Column.ofBytes field value).Fits := by
  rw [maxBytes] at h
  have hbits : 8 * value.length % 65536 = 8 * value.length := Nat.mod_eq_of_lt (by omega)
  refine ⟨?_, Nat.mod_lt _ (by omega)⟩
  rw [Column.ofBytes, hbits]
  exact fitsWidth_of_bytes value

theorem Layout.fits_cut {slot : Slot} {header : List Bool}
    (h : slot.position + slot.width ≤ header.length) (hwidth : slot.width < 65536) :
    (cut header slot).Fits := by
  have hlen : ((header.drop slot.position).take slot.width).length = slot.width := by
    simp
    omega
  refine ⟨?_, hwidth⟩
  have := fitsWidth_alignRight ((header.drop slot.position).take slot.width)
  rwa [hlen] at this

namespace Layout

def Within (layout : List Slot) (bits : Nat) : Prop :=
  ∀ slot ∈ layout, slot.position + slot.width ≤ bits ∧ slot.width < 65536

theorem ipv6_within (direction : Direction) : Within (ipv6 direction) 320 := by
  rw [Within]
  cases direction <;> decide

theorem udp_within (direction : Direction) : Within (udp direction) 64 := by
  rw [Within]
  cases direction <;> decide

theorem ipv6_fieldOrder (direction : Direction) :
    Layer.network.fieldOrder? = some ((ipv6 direction).map (·.field)) := by
  cases direction <;> rfl

theorem udp_fieldOrder (direction : Direction) :
    Layer.transport.fieldOrder? = some ((udp direction).map (·.field)) := by
  cases direction <;> rfl

theorem map_field_columns (layout : List Slot) (header : List UInt8) :
    (Layout.columns layout header).map (·.field) = layout.map (·.field) := by
  rw [Layout.columns, List.map_map]
  rfl

theorem Within.fits {layout : List Slot} {header : List UInt8}
    (h : Within layout (8 * header.length)) :
    ∀ column ∈ Layout.columns layout header, column.Fits := by
  intro column hcolumn
  obtain ⟨slot, hslot, rfl⟩ := List.mem_map.1 hcolumn
  obtain ⟨hinside, hwidth⟩ := h slot hslot
  exact fits_cut (by simpa using hinside) hwidth

end Layout

theorem Ipv6Header.columns_eq_ok (h : Ipv6Header.columns direction data = .ok columns) :
    ipv6HeaderLength ≤ data.length ∧
      columns = Layout.columns (Layout.ipv6 direction) (data.take ipv6HeaderLength) := by
  rw [Ipv6Header.columns] at h
  split at h
  · exact (throw_bind_ne_ok h).elim
  dsimp only at h
  split at h
  · exact (throw_bind_ne_ok h).elim
  split at h
  · exact (throw_bind_ne_ok h).elim
  cases h
  exact ⟨by omega, rfl⟩

theorem UdpHeader.columns_eq_ok (h : UdpHeader.columns direction data = .ok columns) :
    udpHeaderLength ≤ data.length ∧
      columns = Layout.columns (Layout.udp direction) (data.take udpHeaderLength) := by
  rw [UdpHeader.columns] at h
  split at h
  · exact (throw_bind_ne_ok h).elim
  cases h
  exact ⟨by omega, rfl⟩

theorem CoapHeader.optionColumn_eq_ok {option : CoapOption}
    (h : CoapHeader.optionColumn option = .ok column) :
    ∃ name : NamedOption, name.number = option.number ∧
      option.value.length ≤ Column.maxBytes ∧
        column = .ofBytes (.coapOption name) option.value := by
  rw [CoapHeader.optionColumn] at h
  split at h
  · cases h
  · rename_i name hname
    split at h
    · cases h
    · cases h
      exact ⟨name, NamedOption.number_of_ofNumber? hname, by omega, rfl⟩

theorem CoapHeader.columns_eq_ok (h : CoapHeader.columns data = .ok (columns, length)) :
    ∃ message options, CoapMessage.parse data = .ok message ∧
      length = data.length - message.payload.length ∧
      List.Forall₂ (fun option column => CoapHeader.optionColumn option = .ok column)
        message.options options ∧
      columns =
        fixedColumns message ++ tokenColumns message ++ options ++ markerColumns message := by
  obtain ⟨message, hmessage, h⟩ := bind_eq_ok_iff.1 h
  obtain ⟨columns', hcolumns, h⟩ := bind_eq_ok_iff.1 h
  obtain ⟨options, hoptions, hcolumns⟩ := bind_eq_ok_iff.1 hcolumns
  cases h
  cases hcolumns
  exact ⟨message, options, mapError_eq_ok_iff.1 hmessage, rfl, mapM_eq_ok_iff.1 hoptions, rfl⟩

namespace CoapHeader

theorem fits_fixedColumns (h : message.token.length ≤ CoapMessage.maxTokenLength) :
    ∀ column ∈ fixedColumns message, column.Fits := by
  have hversion := message.version.isLt
  have htype := message.type.isLt
  have hcode := message.code.toNat_lt
  have hid := message.messageId.toNat_lt
  rw [CoapMessage.maxTokenLength] at h
  simp only [fixedColumns, List.forall_mem_cons, List.not_mem_nil, false_implies, implies_true,
    and_true]
  exact ⟨Column.fits_ofNat (by omega) (by omega), Column.fits_ofNat (by omega) (by omega),
    Column.fits_ofNat (by omega) (by omega), Column.fits_ofNat (by omega) (by omega),
    Column.fits_ofNat (by omega) (by omega)⟩

theorem fits_columns (h : CoapHeader.columns data = .ok (columns, length)) :
    ∀ column ∈ columns, column.Fits := by
  obtain ⟨message, options, hparse, -, hoptions, rfl⟩ := columns_eq_ok h
  have htoken := (CoapMessage.parse_eq_ok hparse).1.token
  simp only [List.forall_mem_append]
  refine ⟨⟨⟨fits_fixedColumns htoken, ?token⟩, ?options⟩, ?marker⟩
  case token =>
    rw [tokenColumns]
    split
    · simp
    · rw [CoapMessage.maxTokenLength] at htoken
      simpa using Column.fits_ofBytes (by unfold Column.maxBytes; omega)
  case options =>
    intro column hcolumn
    obtain ⟨option, -, hoption⟩ := exists_of_forall₂ hoptions hcolumn
    obtain ⟨name, -, hlen, rfl⟩ := optionColumn_eq_ok hoption
    exact Column.fits_ofBytes hlen
  case marker =>
    rw [markerColumns]
    split
    · simp
    · simpa using Column.fits_ofBytes (by decide)

theorem tokenAnnounced_columns (h : CoapHeader.columns data = .ok (columns, length)) :
    TokenAnnounced columns := by
  obtain ⟨message, options, hparse, -, hoptions, rfl⟩ := columns_eq_ok h
  have htoken := (CoapMessage.parse_eq_ok hparse).1.token
  have hannounced : (Column.ofNat .coapTokenLength 4 message.token.length).toNat =
      message.token.length := by
    rw [CoapMessage.maxTokenLength] at htoken
    simp [Column.ofNat, Column.toNat, bytesFor]
    omega
  have hfixed : ∀ column ∈ fixedColumns message, column.field ≠ .coapToken := by
    simp [fixedColumns, Column.ofNat]
  have htail : ∀ column ∈ tokenColumns message ++ (options ++ markerColumns message),
      column.field = .coapToken → column.value = message.token := by
    intro column hcolumn hfield
    rcases by simpa only [List.mem_append] using hcolumn with hcolumn | hcolumn | hcolumn
    · rw [tokenColumns] at hcolumn
      split at hcolumn <;> simp_all [Column.ofBytes]
    · obtain ⟨option, -, hoption⟩ := exists_of_forall₂ hoptions hcolumn
      obtain ⟨name, -, -, rfl⟩ := optionColumn_eq_ok hoption
      simp [Column.ofBytes] at hfield
    · rw [markerColumns] at hcolumn
      split at hcolumn <;> simp_all [Column.ofBytes]
  intro pre column post hsplit hfield
  simp only [List.append_assoc] at hsplit
  -- The fixed columns stand in front, and the column of the token length is one of them.
  obtain ⟨between, hpre, htoken⟩ : ∃ between, pre = fixedColumns message ++ between ∧
      column ∈ tokenColumns message ++ (options ++ markerColumns message) := by
    rcases List.append_eq_append_iff.1 hsplit with ⟨between, hpre, hrest⟩ | ⟨between, hpre, hrest⟩
    · exact ⟨between, hpre, by simp [hrest]⟩
    · cases between with
      | nil =>
        rw [List.nil_append] at hrest
        exact ⟨[], by simpa using hpre.symm, hrest ▸ List.mem_cons_self⟩
      | cons first between =>
        cases hrest
        exact (hfixed column (by simp [hpre]) hfield).elim
  refine ⟨_, ?_, hannounced.trans (congrArg List.length (htail column htoken hfield)).symm⟩
  rw [hpre]
  rfl

end CoapHeader

/-- The slots of a layer's header; CoAP has none, as its fields have no fixed places. -/
def Layer.slots (layer : Layer) (direction : Direction) : List Slot :=
  match layer with
  | .network => Layout.ipv6 direction
  | .transport => Layout.udp direction
  | .application => []

theorem Layer.columns_eq_layout (hlayer : layer ≠ .application)
    (h : layer.columns direction data = .ok (columns, length)) :
    ∃ count ≤ data.length, Layout.Within (layer.slots direction) (8 * count) ∧
      columns = Layout.columns (layer.slots direction) (data.take count) := by
  cases layer with
  | network =>
    obtain ⟨columns', hcolumns, h⟩ := bind_eq_ok_iff.1 h
    cases h
    obtain ⟨hlen, rfl⟩ := Ipv6Header.columns_eq_ok hcolumns
    exact ⟨_, hlen, Layout.ipv6_within direction, rfl⟩
  | transport =>
    obtain ⟨columns', hcolumns, h⟩ := bind_eq_ok_iff.1 h
    cases h
    obtain ⟨hlen, rfl⟩ := UdpHeader.columns_eq_ok hcolumns
    exact ⟨_, hlen, Layout.udp_within direction, rfl⟩
  | application => exact (hlayer rfl).elim

theorem Layer.fits_columns (h : layer.columns direction data = .ok (columns, length)) :
    ∀ column ∈ columns, column.Fits := by
  by_cases hlayer : layer = .application
  · subst hlayer
    exact CoapHeader.fits_columns h
  · obtain ⟨count, hlen, hwithin, rfl⟩ := columns_eq_layout hlayer h
    rw [← List.length_take_of_le hlen] at hwithin
    exact hwithin.fits

theorem Layer.fieldOrder_slots (hlayer : layer ≠ .application) (direction : Direction) :
    layer.fieldOrder? = some ((layer.slots direction).map (·.field)) := by
  cases layer with
  | network => exact Layout.ipv6_fieldOrder direction
  | transport => exact Layout.udp_fieldOrder direction
  | application => exact (hlayer rfl).elim

theorem Layer.fieldOrder_columns (hlayer : layer ≠ .application)
    (h : layer.columns direction data = .ok (columns, length)) :
    layer.fieldOrder? = some (columns.map (·.field)) := by
  obtain ⟨count, -, -, rfl⟩ := columns_eq_layout hlayer h
  rw [Layout.map_field_columns, fieldOrder_slots hlayer direction]

theorem Layer.of_mem_fieldOrder {fields : List HeaderField} (h : layer.fieldOrder? = some fields) :
    ∀ field ∈ fields, field.layer = layer ∧ field.width?.isSome := by
  cases layer <;> cases h <;> decide

theorem Layer.of_mem_columns (hlayer : layer ≠ .application)
    (h : layer.columns direction data = .ok (columns, length)) (hcolumn : column ∈ columns) :
    column.field.layer = layer ∧ column.field.width?.isSome :=
  of_mem_fieldOrder (fieldOrder_columns hlayer h) _ (List.mem_map_of_mem hcolumn)

theorem Layer.field_columns (h : layer.columns direction data = .ok (columns, length)) :
    ∀ column ∈ columns, column.field.layer = layer := by
  by_cases hlayer : layer = .application
  · subst hlayer
    obtain ⟨message, options, -, -, hoptions, rfl⟩ := CoapHeader.columns_eq_ok h
    simp only [List.forall_mem_append]
    refine ⟨⟨⟨?fixed, ?token⟩, ?options⟩, ?marker⟩
    case fixed => simp [CoapHeader.fixedColumns, Column.ofNat, HeaderField.layer]
    case token =>
      rw [CoapHeader.tokenColumns]
      split <;> simp [Column.ofBytes, HeaderField.layer]
    case options =>
      intro column hcolumn
      obtain ⟨option, -, hoption⟩ := exists_of_forall₂ hoptions hcolumn
      obtain ⟨name, -, -, rfl⟩ := CoapHeader.optionColumn_eq_ok hoption
      rfl
    case marker =>
      rw [CoapHeader.markerColumns]
      split <;> simp [Column.ofBytes, HeaderField.layer]
  · exact fun column hcolumn => (of_mem_columns hlayer h hcolumn).1

theorem Layer.tokenAnnounced_columns (h : layer.columns direction data = .ok (columns, length)) :
    TokenAnnounced columns := by
  by_cases hlayer : layer = .application
  · subst hlayer
    exact CoapHeader.tokenAnnounced_columns h
  · apply tokenAnnounced_of_no_token
    intro column hcolumn hfield
    have hown := layer.field_columns h column hcolumn
    rw [hfield] at hown
    exact hlayer hown.symm

end HeaderCompression
