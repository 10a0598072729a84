import HeaderCompression.Proofs.Bits.Pointwise
import HeaderCompression.Proofs.Header.Described
import HeaderCompression.Rule.Acceptance

namespace HeaderCompression

variable {layer : Layer} {direction : Direction} {data header value : List UInt8}
  {columns : List Column} {column : Column} {layout : List Slot} {slot : Slot} {f : RuleField}
  {length width bits count i : Nat}

theorem FitsWidth.bitAt_eq_false (h : FitsWidth width value) (hi : i < 8 * value.length - width) :
    Bits.bitAt value i = false := by
  obtain ⟨low, rfl, rfl⟩ := h.exists_low
  rw [h.add_padding, Nat.add_sub_cancel] at hi
  rw [← Bits.getD_bitsOfBytes, bitsOfBytes_alignRight, List.getD_append _ _ _ _ (by simpa using hi),
    List.getD_replicate _ hi]

namespace Column

/-- The width of what a column holds: that of its field, or of all its bytes if the field has none.
-/
def trueWidth (column : Column) : Nat :=
  column.field.width?.getD (8 * column.value.length)

/-- The column is as wide as what it holds, which is a 16-bit number. Its value has as few bytes as
hold this width, and the bits in front of it are zero. -/
structure WellFormed (column : Column) : Prop where
  width : column.bits = column.trueWidth
  narrow : column.bits < 65536
  bytes : column.value.length = bytesFor column.bits
  unused : ∀ i < 8 * column.value.length - column.bits, Bits.bitAt column.value i = false

theorem Fits.wellFormed (h : column.Fits) (hwidth : column.bits = column.trueWidth) :
    column.WellFormed :=
  ⟨hwidth, h.narrow, h.value.1, fun _ hi => h.value.bitAt_eq_false hi⟩

theorem WellFormed.matchesLength_iff (h : column.WellFormed) (hlength : f.length = .fixed bits) :
    f.matchesLength column ↔ column.trueWidth = bits := by
  rw [RuleField.matchesLength, hlength, beq_iff_eq, h.width]

end Column

/-- The number in the slot of a header, behind which other bytes may stand. -/
def Slot.number (slot : Slot) (header : List UInt8) : Nat :=
  natOfBytes header / 2 ^ (8 * header.length - slot.position - slot.width) % 2 ^ slot.width

theorem Slot.natOfBits_eq_number (h : slot.position + slot.width ≤ 8 * header.length) :
    natOfBits (((bitsOfBytes header).drop slot.position).take slot.width) = slot.number header := by
  obtain ⟨back, hback⟩ := Nat.exists_eq_add_of_le h
  have hbehind : 8 * header.length - slot.position - slot.width = back := by omega
  have hfrom : 8 * header.length - slot.position = slot.width + back := by omega
  rw [natOfBits_take, natOfBits_drop, List.length_drop, length_bitsOfBytes, ← natOfBytes_eq,
    Slot.number, hbehind, hfrom, pow_add, Nat.mod_mul_left_div_self]

namespace Layout

theorem cut_eq_ofNat (h : slot.position + slot.width ≤ 8 * header.length) :
    cut (bitsOfBytes header) slot = .ofNat slot.field slot.width (slot.number header) := by
  have hlen : (((bitsOfBytes header).drop slot.position).take slot.width).length = slot.width := by
    simp
    omega
  have hvalue := bytesOfNat_natOfBits (((bitsOfBytes header).drop slot.position).take slot.width)
  rw [hlen, Slot.natOfBits_eq_number h] at hvalue
  rw [cut, Column.ofNat, hvalue]

theorem cut_take (h : slot.position + slot.width ≤ 8 * count) :
    cut (bitsOfBytes (data.take count)) slot = cut (bitsOfBytes data) slot := by
  rw [cut, cut, bitsOfBytes_take, List.drop_take, List.take_take, Nat.min_eq_left (by omega)]

theorem columns_take (h : Within layout (8 * count)) (hlen : count ≤ data.length) :
    Layout.columns layout (data.take count) =
      layout.map fun slot => .ofNat slot.field slot.width (slot.number data) := by
  rw [Layout.columns]
  refine List.map_congr_left fun slot hslot => ?_
  have hinside := (h slot hslot).1
  rw [cut_take hinside, cut_eq_ofNat (by omega)]

end Layout

theorem Layer.columns_eq_map (hlayer : layer ≠ .application)
    (h : layer.columns direction data = .ok (columns, length)) :
    columns = (layer.slots direction).map fun slot =>
      .ofNat slot.field slot.width (slot.number data) := by
  obtain ⟨count, hlen, hwithin, rfl⟩ := columns_eq_layout hlayer h
  exact Layout.columns_take hwithin hlen

namespace CoapHeader

variable {parts : Parts} {message : CoapMessage}

theorem Parts.Ordered.mem_of_width?_eq_none (h : parts.Ordered) (hcolumn : column ∈ parts.columns)
    (hwidth : column.field.width? = none) : column ∈ parts.token?.toList ++ parts.options := by
  have hsome : ∀ field ∈ [HeaderField.coapVersion, .coapType, .coapTokenLength, .coapCode,
      .coapMessageId], field.width? ≠ none := by decide
  have hfixed : column ∉ parts.fixed := by
    intro hmem
    have hfield := List.mem_map_of_mem (f := Column.field) hmem
    rw [h.fixed] at hfield
    exact hsome _ hfield hwidth
  have hmarker : column ∉ parts.marker?.toList := by
    intro hmem
    rw [h.marker column (Option.mem_toList.1 hmem)] at hwidth
    cases hwidth
  simpa [Parts.columns, hfixed, hmarker] using hcolumn

theorem Parts.Canonical.bits_eq_trueWidth (h : parts.Canonical) :
    ∀ column ∈ parts.columns, column.bits = column.trueWidth := by
  intro column hcolumn
  rw [Column.trueWidth]
  cases hwidth : column.field.width? with
  | none => exact h.wholeBytes column (h.mem_of_width?_eq_none hcolumn hwidth)
  | some width => exact (h.proper column hcolumn).width width hwidth

theorem exists_token_options (h : CoapHeader.columns data = .ok (columns, length)) :
    ∃ message, CoapMessage.parse data = .ok message ∧ tokenOf columns = message.token ∧
      columns.filterMap optionOf? = message.options := by
  obtain ⟨parts, hparts, rfl, -, hparse, -⟩ := exists_parts h
  exact ⟨_, hparse, hparts.tokenOf_columns, hparts.filterMap_columns⟩

theorem of_optionOf?_eq_some {option : CoapOption} (h : optionOf? column = some option) :
    column.value = option.value ∧ column.trueWidth = 8 * option.value.length := by
  obtain ⟨name, hname, rfl⟩ := Option.map_eq_some_iff.1 h
  have hwidth : column.field.width? = none := by
    revert hname
    cases column.field <;> simp [HeaderField.option?, HeaderField.width?]
  rw [Column.trueWidth, hwidth]
  exact ⟨rfl, rfl⟩

/-- A header is taken apart exactly if its options have names, and widths that are 16-bit numbers.
-/
theorem exists_columns_iff :
    (∃ columns length, CoapHeader.columns data = .ok (columns, length)) ↔
      ∃ message, CoapMessage.parse data = .ok message ∧ ∀ option ∈ message.options,
        (∃ name : NamedOption, name.number = option.number) ∧ 8 * option.value.length < 65536 := by
  constructor
  · rintro ⟨columns, length, h⟩
    obtain ⟨message, options, hparse, -, hoptions, -⟩ := columns_eq_ok h
    refine ⟨message, hparse, fun option hoption => ?_⟩
    obtain ⟨column, -, hcolumn⟩ := exists_of_forall₂ hoptions.flip hoption
    obtain ⟨name, hname, hlen, -⟩ := optionColumn_eq_ok hcolumn
    rw [Column.maxBytes] at hlen
    exact ⟨⟨name, hname⟩, by omega⟩
  · rintro ⟨message, hparse, hoptions⟩
    have heach : ∀ option ∈ message.options, ∃ column, optionColumn option = .ok column := by
      intro option hoption
      obtain ⟨⟨name, hname⟩, hlen⟩ := hoptions option hoption
      have hshort : ¬ option.value.length > Column.maxBytes := by
        rw [Column.maxBytes]
        omega
      rw [optionColumn, ← hname, NamedOption.ofNumber?_number]
      exact ⟨_, if_neg hshort⟩
    obtain ⟨columns, hcolumns⟩ := exists_mapM_eq_ok heach
    exact ⟨_, _, bind_eq_ok_iff.2 ⟨message, mapError_eq_ok_iff.2 hparse,
      bind_eq_ok_iff.2 ⟨_, bind_eq_ok_iff.2 ⟨columns, hcolumns, rfl⟩, rfl⟩⟩⟩

end CoapHeader

theorem Layer.bits_eq_trueWidth (h : layer.columns direction data = .ok (columns, length)) :
    ∀ column ∈ columns, column.bits = column.trueWidth := by
  by_cases hlayer : layer = .application
  · subst hlayer
    obtain ⟨parts, hparts, rfl, -⟩ := CoapHeader.exists_parts h
    exact hparts.bits_eq_trueWidth
  · intro column hcolumn
    obtain ⟨width, hwidth⟩ := Option.isSome_iff_exists.1 (of_mem_columns hlayer h hcolumn).2
    rw [columns_eq_map hlayer h] at hcolumn
    obtain ⟨slot, -, rfl⟩ := List.mem_map.1 hcolumn
    have hslot : slot.field.width? = some width := hwidth
    simp only [Column.trueWidth, Column.ofNat, Slot.width, hslot, Option.getD_some]

/-- The columns of a header are well-formed, so a field of a fixed length accepts the length of a
column exactly if what the column holds has this width. The columns of IPv6 and UDP are for the
fields of the layer in their order and hold the numbers in the slots of the header; those of CoAP
hold the token and the options of the message with all their bytes. A message with an option that is
too long for a 16-bit width has no columns. -/
theorem Layer.columns_wellFormed (layer : Layer) (direction : Direction) (data : List UInt8) :
    (∀ columns length, layer.columns direction data = .ok (columns, length) →
      (∀ column ∈ columns, column.WellFormed ∧ ∀ (f : RuleField) (bits : Nat),
        f.length = .fixed bits → (f.matchesLength column ↔ column.trueWidth = bits)) ∧
      (layer ≠ .application → layer.fieldOrder? = some (columns.map (·.field)) ∧
        columns = (layer.slots direction).map fun slot =>
          .ofNat slot.field slot.width (slot.number data)) ∧
      (layer = .application → ∃ message, CoapMessage.parse data = .ok message ∧
        CoapHeader.tokenOf columns = message.token ∧
          columns.filterMap CoapHeader.optionOf? = message.options)) ∧
    (layer = .application →
      ((∃ columns length, layer.columns direction data = .ok (columns, length)) ↔
        ∃ message, CoapMessage.parse data = .ok message ∧ ∀ option ∈ message.options,
          (∃ name : NamedOption, name.number = option.number) ∧
            8 * option.value.length < 65536)) := by
  refine ⟨fun columns length h => ⟨fun column hcolumn => ?columns, fun hlayer => ?fixed,
    fun hlayer => ?message⟩, fun hlayer => ?guard⟩
  case columns =>
    have hwell := (fits_columns h column hcolumn).wellFormed (bits_eq_trueWidth h column hcolumn)
    exact ⟨hwell, fun f bits hlength => hwell.matchesLength_iff hlength⟩
  case fixed => exact ⟨fieldOrder_columns hlayer h, columns_eq_map hlayer h⟩
  case message =>
    subst hlayer
    exact CoapHeader.exists_token_options h
  case guard =>
    subst hlayer
    exact CoapHeader.exists_columns_iff

/-- The longest option that has a width has it in full; one byte more, and there are no columns. -/
theorem Layer.columns_wellFormed_longest :
    let message (path : List UInt8) : CoapMessage :=
      { CoapMessage.blank with options := [⟨11, path⟩] }
    let f : RuleField :=
      ⟨.coapOption .uriPath, .fixed 65528, none, .ignore, .none, .valueSent⟩
    let path : List UInt8 := List.replicate 8191 0x61
    (∃ columns length,
      Layer.application.columns .up (message path).toBytes = .ok (columns, length) ∧
        ∃ column ∈ columns, column.value = path ∧ column.WellFormed ∧ column.bits = 65528 ∧
          f.matchesLength column) ∧
      ¬ ∃ columns length,
        Layer.application.columns .up (message (0x61 :: path)).toBytes = .ok (columns, length) := by
  intro message f path
  have hlen : path.length = 8191 := List.length_replicate
  have hparse {path : List UInt8} (h : path.length ≤ 65535) :
      CoapMessage.parse (message path).toBytes = .ok (message path) :=
    CoapMessage.WellFormed.parse_toBytes
      ⟨rfl, Nat.zero_le _, List.pairwise_singleton .., by simpa [message] using h⟩
  clear_value path
  constructor
  · obtain ⟨hcolumns, hguard⟩ := columns_wellFormed .application .up (message path).toBytes
    obtain ⟨columns, length, hrun⟩ := (hguard rfl).2 ⟨_, hparse (by omega), by
      simp only [message, List.forall_mem_singleton]
      exact ⟨⟨.uriPath, rfl⟩, by omega⟩⟩
    obtain ⟨hwell, -, hmessage⟩ := hcolumns columns length hrun
    obtain ⟨_, hread, -, hoptions⟩ := hmessage rfl
    obtain rfl := Except.ok.inj ((hparse (by omega)).symm.trans hread)
    have hoption : ⟨11, path⟩ ∈ columns.filterMap CoapHeader.optionOf? :=
      hoptions ▸ List.mem_singleton_self _
    obtain ⟨column, hcolumn, hof⟩ := List.mem_filterMap.1 hoption
    obtain ⟨hvalue, hwidth⟩ := CoapHeader.of_optionOf?_eq_some hof
    obtain ⟨hcolumnWell, hmatches⟩ := hwell column hcolumn
    rw [hlen] at hwidth
    exact ⟨columns, length, hrun, column, hcolumn, hvalue, hcolumnWell,
      hcolumnWell.width.trans hwidth, (hmatches f 65528 rfl).2 hwidth⟩
  · intro hrun
    have hlong : (0x61 :: path).length = 8192 := congrArg Nat.succ hlen
    obtain ⟨-, hguard⟩ := columns_wellFormed .application .up (message (0x61 :: path)).toBytes
    obtain ⟨_, hread, hoptions⟩ := (hguard rfl).1 hrun
    obtain rfl := Except.ok.inj ((hparse (by omega)).symm.trans hread)
    have hnarrow : 8 * (0x61 :: path).length < 65536 :=
      (hoptions _ (List.mem_singleton_self _)).2
    omega

end HeaderCompression
