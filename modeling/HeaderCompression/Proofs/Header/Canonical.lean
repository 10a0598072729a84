import HeaderCompression.Proofs.Header.Coap
import HeaderCompression.Proofs.Header.Layout

namespace HeaderCompression

variable {direction : Direction} {data header payload : List UInt8} {columns : List Column}
  {column : Column} {bits length : Nat} {slot : Slot}

/-- Proper columns for all fields of a layer of fixed layout, in their order. -/
structure Layer.Canonical (layer : Layer) (columns : List Column) : Prop where
  order : layer.fieldOrder? = some (columns.map (·.field))
  proper : ∀ column ∈ columns, column.Proper

structure Ipv6Header.Canonical (columns : List Column) : Prop
    extends Layer.Canonical .network columns where
  version : ∀ column ∈ columns, column.field = .ipv6Version → column.toNat = 6
  nextHeader : ∀ column ∈ columns, column.field = .ipv6NextHeader → column.toNat = udpProtocol

namespace Layout

theorem proper_columns {layout : List Slot} (h : Within layout (8 * header.length)) :
    ∀ column ∈ Layout.columns layout header, column.Proper := by
  intro column hcolumn
  have hfits := h.fits column hcolumn
  obtain ⟨slot, -, rfl⟩ := List.mem_map.1 hcolumn
  refine ⟨fun bits hbits => ?_, hfits.value⟩
  rw [cut]
  have hwidth : slot.field.width? = some bits := hbits
  rw [Slot.width, hwidth, Option.getD_some]

theorem toNat_cut (bits : List Bool) (slot : Slot) (hwidth : slot.width ≤ 64) :
    (cut bits slot).toNat = natOfBits ((bits.drop slot.position).take slot.width) := by
  rw [Column.toNat_eq, cut, natOfBytes_alignRight]
  simp [cut, bytesFor]
  omega

theorem toNat_version (hlen : 0 < header.length) :
    (cut (bitsOfBytes header) ⟨0, .ipv6Version⟩).toNat = (header.getD 0 0).toNat / 16 := by
  obtain ⟨byte, rest, rfl⟩ := List.exists_cons_of_length_pos hlen
  have hbyte := byte.toNat_lt
  have hwidth : Slot.width ⟨0, .ipv6Version⟩ = 4 := rfl
  rw [toNat_cut _ _ (by decide), hwidth, List.drop_zero, bitsOfBytes_cons, bitsOfNat_add 4 4,
    List.append_assoc, List.take_left' (by simp), natOfBits_bitsOfNat, List.getD_cons_zero]
  omega

theorem toNat_nextHeader (hlen : 6 < header.length) :
    (cut (bitsOfBytes header) ⟨48, .ipv6NextHeader⟩).toNat = (header.getD 6 0).toNat := by
  have hwidth : Slot.width ⟨48, .ipv6NextHeader⟩ = 8 := rfl
  have hdrop : (bitsOfBytes header).drop 48 = bitsOfBytes (header.drop 6) :=
    (bitsOfBytes_drop header 6).symm
  rw [toNat_cut _ _ (by decide), hwidth, hdrop, List.drop_eq_getElem_cons hlen, bitsOfBytes_cons,
    List.take_left' (by simp), natOfBits_bitsOfNat, List.getD_eq_getElem _ _ hlen]
  exact Nat.mod_eq_of_lt (UInt8.toNat_lt _)

end Layout

theorem Layer.Canonical.exists_header {layer : Layer} {layout : List Slot}
    (h : layer.Canonical columns) (horder : layer.fieldOrder? = some (layout.map (·.field)))
    (htiles : Layout.Tiles layout (8 * length)) (hapart : layout.Pairwise Slot.Apart)
    (hwidth : ∀ slot ∈ layout, slot.field.width?.isSome) :
    ∃ header, header.length = length ∧ Layout.header layout length columns = .ok header ∧
      Layout.columns layout header = columns :=
  Layout.exists_header htiles hapart (Option.some.inj (h.order.symm.trans horder)) h.proper hwidth

namespace Ipv6Header

theorem exists_header (h : Layer.Canonical .network columns) (direction : Direction) :
    ∃ header, header.length = ipv6HeaderLength ∧ ofColumns direction columns = .ok header ∧
      Layout.columns (Layout.ipv6 direction) header = columns := by
  rw [Layout.ofColumns_ipv6]
  exact h.exists_header (Layout.ipv6_fieldOrder direction) (Layout.ipv6_tiles direction)
    (Layout.ipv6_apart direction) (by cases direction <;> decide)

theorem columns_eq_ok_iff_layout (hlen : header.length = ipv6HeaderLength) :
    Ipv6Header.columns direction header = .ok columns ↔
      (header.getD 0 0).toNat / 16 = 6 ∧ (header.getD 6 0).toNat = udpProtocol ∧
        Layout.columns (Layout.ipv6 direction) header = columns := by
  have hlong : ¬ header.length < ipv6HeaderLength := by omega
  have hwhole : header.take ipv6HeaderLength = header := List.take_of_length_le hlen.le
  rw [Ipv6Header.columns]
  rw [if_neg hlong, hwhole]
  dsimp only
  constructor
  · intro h
    split at h
    · exact (throw_bind_ne_ok h).elim
    rename_i hversion
    split at h
    · exact (throw_bind_ne_ok h).elim
    rename_i hnext
    cases h
    exact ⟨not_not.1 hversion, not_not.1 hnext, rfl⟩
  · rintro ⟨hversion, hnext, rfl⟩
    rw [if_neg (not_not.2 hversion), if_neg (not_not.2 hnext)]
    rfl

theorem slot_version : ∀ slot ∈ Layout.ipv6 direction, slot.field = .ipv6Version →
    slot = ⟨0, .ipv6Version⟩ := by
  cases direction <;> decide

theorem slot_nextHeader : ∀ slot ∈ Layout.ipv6 direction, slot.field = .ipv6NextHeader →
    slot = ⟨48, .ipv6NextHeader⟩ := by
  cases direction <;> decide

/-- The headers that are taken apart are those that are built from canonical columns. -/
theorem columns_eq_ok_iff (hlen : header.length = ipv6HeaderLength) :
    Ipv6Header.columns direction header = .ok columns ↔
      Canonical columns ∧ ofColumns direction columns = .ok header := by
  rw [columns_eq_ok_iff_layout hlen]
  have htiles : Layout.Tiles (Layout.ipv6 direction) (8 * header.length) :=
    hlen ▸ Layout.ipv6_tiles direction
  rw [ipv6HeaderLength] at hlen
  constructor
  · rintro ⟨hversion, hnext, rfl⟩
    refine ⟨{ order := ?order, proper := Layout.proper_columns htiles.within,
              version := ?version, nextHeader := ?nextHeader },
      (Layout.ofColumns_ipv6 ..).trans (Layout.header_columns htiles hlen)⟩
    case order => rw [Layout.map_field_columns, Layout.ipv6_fieldOrder]
    case version =>
      intro column hcolumn hfield
      obtain ⟨slot, hslot, rfl⟩ := List.mem_map.1 hcolumn
      rw [slot_version slot hslot hfield, Layout.toNat_version (by omega), hversion]
    case nextHeader =>
      intro column hcolumn hfield
      obtain ⟨slot, hslot, rfl⟩ := List.mem_map.1 hcolumn
      rw [slot_nextHeader slot hslot hfield, Layout.toNat_nextHeader (by omega), hnext]
  · rintro ⟨hcanonical, hbuild⟩
    obtain ⟨built, -, hbuilt, hcolumns⟩ := exists_header hcanonical.toCanonical direction
    obtain rfl : built = header := Except.ok.inj (hbuilt.symm.trans hbuild)
    have hversion : Layout.cut (bitsOfBytes built) ⟨0, .ipv6Version⟩ ∈ columns := by
      rw [← hcolumns]
      exact List.mem_map_of_mem (by cases direction <;> decide)
    have hnext : Layout.cut (bitsOfBytes built) ⟨48, .ipv6NextHeader⟩ ∈ columns := by
      rw [← hcolumns]
      exact List.mem_map_of_mem (by cases direction <;> decide)
    refine ⟨?_, ?_, hcolumns⟩
    · rw [← Layout.toNat_version (by omega)]
      exact hcanonical.version _ hversion rfl
    · rw [← Layout.toNat_nextHeader (by omega)]
      exact hcanonical.nextHeader _ hnext rfl

end Ipv6Header

namespace UdpHeader

theorem exists_header (h : Layer.Canonical .transport columns) (direction : Direction) :
    ∃ header, header.length = udpHeaderLength ∧ ofColumns direction columns = .ok header ∧
      Layout.columns (Layout.udp direction) header = columns := by
  rw [Layout.ofColumns_udp]
  exact h.exists_header (Layout.udp_fieldOrder direction) (Layout.udp_tiles direction)
    (Layout.udp_apart direction) (by cases direction <;> decide)

theorem columns_eq (direction : Direction) (hlen : header.length = udpHeaderLength) :
    UdpHeader.columns direction header = .ok (Layout.columns (Layout.udp direction) header) := by
  have hlong : ¬ header.length < udpHeaderLength := by omega
  have hwhole : header.take udpHeaderLength = header := List.take_of_length_le hlen.le
  rw [UdpHeader.columns]
  rw [if_neg hlong, hwhole]
  rfl

theorem columns_eq_ok_iff (hlen : header.length = udpHeaderLength) :
    UdpHeader.columns direction header = .ok columns ↔
      Layer.Canonical .transport columns ∧ ofColumns direction columns = .ok header := by
  rw [columns_eq direction hlen, Except.ok.injEq]
  have htiles : Layout.Tiles (Layout.udp direction) (8 * header.length) :=
    hlen ▸ Layout.udp_tiles direction
  constructor
  · rintro rfl
    refine ⟨⟨?_, Layout.proper_columns htiles.within⟩,
      (Layout.ofColumns_udp ..).trans (Layout.header_columns htiles hlen)⟩
    rw [Layout.map_field_columns, Layout.udp_fieldOrder]
  · rintro ⟨hcanonical, hbuild⟩
    obtain ⟨built, -, hbuilt, hcolumns⟩ := exists_header hcanonical direction
    obtain rfl : built = header := Except.ok.inj (hbuilt.symm.trans hbuild)
    exact hcolumns

end UdpHeader

namespace CoapHeader

variable {parts : Parts}

theorem forall₂_optionColumn {options : List Column}
    (h : ∀ column ∈ options, (∃ name, column.field = .coapOption name) ∧
      column.bits = 8 * column.value.length ∧ column.value.length ≤ Column.maxBytes) :
    List.Forall₂ (fun option column => optionColumn option = .ok column)
      (options.filterMap optionOf?) options := by
  induction options with
  | nil => exact .nil
  | cons column options ih =>
    obtain ⟨⟨⟨name, hname⟩, hbits, hshort⟩, hrest⟩ := List.forall_mem_cons.1 h
    rw [List.filterMap_cons_some (optionOf?_eq_some hname)]
    refine .cons ?_ (ih hrest)
    rw [optionColumn, NamedOption.ofNumber?_number]
    dsimp only
    rw [if_neg (Nat.not_lt.2 hshort), Column.ofBytes_value hname hbits hshort]

namespace Parts.Canonical

variable (h : parts.Canonical)

include h in
theorem token?_eq :
    (if parts.token.isEmpty then none else some (.ofBytes .coapToken parts.token)) =
      parts.token? := by
  have hshort := h.token_short
  unfold Parts.token at hshort ⊢
  cases htoken : parts.token? with
  | none => rfl
  | some column =>
    have hbits := h.wholeBytes column (by simp [htoken])
    have hnonempty : column.value.isEmpty = false :=
      List.isEmpty_eq_false_iff.2 (h.token_nonempty column htoken)
    rw [htoken, CoapMessage.maxTokenLength, Option.map_some, Option.getD_some] at hshort
    have hcolumn := Column.ofBytes_value (h.token column htoken) hbits
      (by rw [Column.maxBytes]; omega)
    rw [Option.map_some, Option.getD_some, hnonempty, hcolumn]
    rfl

include h in
theorem marker?_eq :
    (if parts.marker?.isNone then none
      else some (.ofBytes .coapPayloadMarker [CoapMessage.payloadMarker])) = parts.marker? := by
  cases hmarker : parts.marker? with
  | none => rfl
  | some column =>
    have hbits := (h.proper column (by simp [columns, hmarker])).width 8
      (by rw [h.marker column hmarker]; rfl)
    have hvalue := h.marker_eq column hmarker
    have hcolumn := Column.ofBytes_value (h.marker column hmarker) (by rw [hbits, hvalue]; rfl)
      (by rw [hvalue]; decide)
    rw [hvalue] at hcolumn
    rw [hcolumn]
    rfl

include h in
theorem ofMessage_message (hpayload : payload.isEmpty = parts.marker?.isNone) :
    Parts.ofMessage (parts.message payload) parts.options = parts := by
  obtain ⟨hversion, htype, hlength, hcode, hid⟩ := h.fields
  have hproper : ∀ column ∈ parts.fixed, column.Proper := fun column hcolumn =>
    h.proper column (by simp [columns, hcolumn])
  simp only [fixed, List.forall_mem_cons] at hproper
  obtain ⟨hversion', htype', hlength', hcode', hid', -⟩ := hproper
  obtain ⟨hversionEq, hversionLt⟩ := hversion'.ofNat_toNat hversion rfl (by decide)
  obtain ⟨htypeEq, htypeLt⟩ := htype'.ofNat_toNat htype rfl (by decide)
  obtain ⟨hlengthEq, -⟩ := hlength'.ofNat_toNat hlength rfl (by decide)
  obtain ⟨hcodeEq, hcodeLt⟩ := hcode'.ofNat_toNat hcode rfl (by decide)
  obtain ⟨hidEq, hidLt⟩ := hid'.ofNat_toNat hid rfl (by decide)
  have hversionVal : (Fin.ofNat 4 parts.version.toNat).val = parts.version.toNat :=
    Nat.mod_eq_of_lt hversionLt
  have htypeVal : (Fin.ofNat 4 parts.type.toNat).val = parts.type.toNat :=
    Nat.mod_eq_of_lt htypeLt
  have hcodeVal : (UInt8.ofNat parts.code.toNat).toNat = parts.code.toNat :=
    UInt8.toNat_ofNat_of_lt' hcodeLt
  have hidVal : (UInt16.ofNat parts.messageId.toNat).toNat = parts.messageId.toNat :=
    UInt16.toNat_ofNat_of_lt' hidLt
  have hlengthVal : (parts.message payload).token.length = parts.tokenLength.toNat :=
    h.tokenLength_eq.symm
  apply Parts.ext
  case version => exact (congrArg (Column.ofNat .coapVersion 2) hversionVal).trans hversionEq
  case type => exact (congrArg (Column.ofNat .coapType 2) htypeVal).trans htypeEq
  case tokenLength => exact (congrArg (Column.ofNat .coapTokenLength 4) hlengthVal).trans hlengthEq
  case code => exact (congrArg (Column.ofNat .coapCode 8) hcodeVal).trans hcodeEq
  case messageId => exact (congrArg (Column.ofNat .coapMessageId 16) hidVal).trans hidEq
  case token? => exact h.token?_eq
  case options => rfl
  case marker? =>
    have hmarker := h.marker?_eq
    rwa [← hpayload] at hmarker

include h in
theorem wellFormed (payload : List UInt8) : (parts.message payload).WellFormed where
  version := by
    change Fin.ofNat 4 parts.version.toNat = 1
    rw [h.version_eq]
    rfl
  token := h.token_short
  sorted := h.sorted payload
  values := by
    intro option hoption
    obtain ⟨column, hcolumn, hof⟩ := List.mem_filterMap.1 hoption
    obtain ⟨name, hname⟩ := h.option_field column hcolumn
    have hshort := h.options_short column hcolumn
    rw [optionOf?_eq_some hname] at hof
    cases hof
    rw [Column.maxBytes] at hshort
    dsimp only
    omega

include h in
theorem messageColumns_message (hpayload : payload.isEmpty = parts.marker?.isNone) :
    messageColumns (parts.message payload) = .ok parts.columns := by
  have hoptions : List.Forall₂ (fun option column => optionColumn option = .ok column)
      (parts.message payload).options parts.options :=
    forall₂_optionColumn fun column hcolumn => ⟨h.option_field column hcolumn,
      h.wholeBytes column (List.mem_append_right _ hcolumn), h.options_short column hcolumn⟩
  refine bind_eq_ok_iff.2 ⟨_, mapM_eq_ok_iff.2 hoptions, ?_⟩
  rw [← Parts.columns_ofMessage, h.ofMessage_message hpayload]
  rfl

include h in
theorem exists_header : ∃ header, ofColumns parts.columns = .ok header := by
  obtain ⟨payload, hpayload⟩ : ∃ payload : List UInt8, payload.isEmpty = parts.marker?.isNone := by
    cases parts.marker? with
    | none => exact ⟨[], rfl⟩
    | some column => exact ⟨[0], rfl⟩
  exact ⟨_, (Parts.ofColumns_eq_ok_iff h.toOrdered hpayload).2
    ⟨h.token_short, h.tokenLength_eq, rfl⟩⟩

end Parts.Canonical

/-- The data that are taken apart are the headers that are built from canonical columns, with a
payload behind them exactly if there is a column for its marker. -/
theorem columns_eq_ok_iff :
    CoapHeader.columns data = .ok (columns, length) ↔
      ∃ (parts : Parts) (payload header : List UInt8), parts.Canonical ∧ parts.columns = columns ∧
        payload.isEmpty = parts.marker?.isNone ∧ ofColumns columns = .ok header ∧
          data = header ++ payload ∧ length = header.length := by
  constructor
  · intro h
    obtain ⟨parts, hparts, rfl, hpayload, -, -, hle⟩ := exists_parts h
    exact ⟨parts, data.drop length, data.take length, hparts, rfl, hpayload, ofColumns_columns h,
      (List.take_append_drop ..).symm, (List.length_take_of_le hle).symm⟩
  · rintro ⟨parts, payload, header, hparts, rfl, hpayload, hbuild, rfl, rfl⟩
    obtain ⟨-, -, rfl⟩ := (Parts.ofColumns_eq_ok_iff hparts.toOrdered hpayload).1 hbuild
    have hread := CoapMessage.ofBytes?_eq_ok_iff.2 ⟨hparts.wellFormed payload, rfl⟩
    rw [CoapMessage.toBytes_eq] at hread
    refine bind_eq_ok_iff.2 ⟨_, hread, bind_eq_ok_iff.2 ⟨_,
      hparts.messageColumns_message hpayload, ?_⟩⟩
    simp [Parts.message, pure, Except.pure]

end CoapHeader

/-- Headers are built from what they are taken apart into, and canonical columns are what their
headers are taken apart into, for packets that go up or down. -/
theorem headers_invert_columns (direction : Direction) :
    (∀ header columns, header.length = ipv6HeaderLength →
      Ipv6Header.columns direction header = .ok columns →
        Ipv6Header.ofColumns direction columns = .ok header) ∧
    (∀ header, header.length = udpHeaderLength → ∃ columns,
      UdpHeader.columns direction header = .ok columns ∧
        UdpHeader.ofColumns direction columns = .ok header) ∧
    (∀ data columns length, CoapHeader.columns data = .ok (columns, length) →
      CoapHeader.ofColumns columns = .ok (data.take length) ∧
        ∃ message, CoapMessage.ofBytes? data = .ok message ∧
          message.payload = data.drop length) ∧
    (∀ columns, Ipv6Header.Canonical columns → ∃ header, header.length = ipv6HeaderLength ∧
      Ipv6Header.ofColumns direction columns = .ok header ∧
        Ipv6Header.columns direction header = .ok columns) ∧
    (∀ columns, Layer.Canonical .transport columns → ∃ header, header.length = udpHeaderLength ∧
      UdpHeader.ofColumns direction columns = .ok header ∧
        UdpHeader.columns direction header = .ok columns) ∧
    ∀ parts : CoapHeader.Parts, parts.Canonical → ∃ header,
      CoapHeader.ofColumns parts.columns = .ok header ∧
        ∀ payload, payload.isEmpty = parts.marker?.isNone →
          CoapHeader.columns (header ++ payload) = .ok (parts.columns, header.length) := by
  refine ⟨?ipv6, ?udp, ?coap, ?ipv6Columns, ?udpColumns, ?coapColumns⟩
  case ipv6 =>
    intro header columns hlen hcolumns
    exact ((Ipv6Header.columns_eq_ok_iff hlen).1 hcolumns).2
  case udp =>
    intro header hlen
    have hcolumns := UdpHeader.columns_eq direction hlen
    exact ⟨_, hcolumns, ((UdpHeader.columns_eq_ok_iff hlen).1 hcolumns).2⟩
  case coap =>
    intro data columns length hcolumns
    obtain ⟨message, hmessage, -, hpayload⟩ := CoapHeader.exists_message hcolumns
    exact ⟨CoapHeader.ofColumns_columns hcolumns, message, hmessage, hpayload⟩
  case ipv6Columns =>
    intro columns hcanonical
    obtain ⟨header, hlen, hbuilt, -⟩ :=
      Ipv6Header.exists_header hcanonical.toCanonical direction
    exact ⟨header, hlen, hbuilt, (Ipv6Header.columns_eq_ok_iff hlen).2 ⟨hcanonical, hbuilt⟩⟩
  case udpColumns =>
    intro columns hcanonical
    obtain ⟨header, hlen, hbuilt, -⟩ := UdpHeader.exists_header hcanonical direction
    exact ⟨header, hlen, hbuilt, (UdpHeader.columns_eq_ok_iff hlen).2 ⟨hcanonical, hbuilt⟩⟩
  case coapColumns =>
    intro parts hparts
    obtain ⟨header, hbuilt⟩ := hparts.exists_header
    refine ⟨header, hbuilt, fun payload hpayload => ?_⟩
    exact CoapHeader.columns_eq_ok_iff.2
      ⟨parts, payload, header, hparts, rfl, hpayload, hbuilt, rfl, rfl⟩

/-- Two options of one number, and a payload. -/
example : CoapHeader.columns [0x41, 1, 0, 1, 0xAA, 0xB1, 0x61, 1, 0x62, 0xFF, 9] =
    .ok ([⟨.coapVersion, 2, [1]⟩, ⟨.coapType, 2, [0]⟩, ⟨.coapTokenLength, 4, [1]⟩,
      ⟨.coapCode, 8, [1]⟩, ⟨.coapMessageId, 16, [0, 1]⟩, ⟨.coapToken, 8, [0xAA]⟩,
      ⟨.coapOption .uriPath, 8, [0x61]⟩, ⟨.coapOption .uriPath, 8, [0x62]⟩,
      ⟨.coapPayloadMarker, 8, [0xFF]⟩], 10) := by
  decide +kernel

end HeaderCompression
