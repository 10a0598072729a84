import HeaderCompression.Proofs.Header.Canonical

namespace HeaderCompression.CoapHeader

variable {parts : Parts} {data payload header : List UInt8} {columns received : List Column}
  {column : Column} {names : List NamedOption} {length : Nat} {a b : CoapMessage}

def numberOf (columns : List Column) (field : HeaderField) : Nat :=
  ((Column.find? columns field).map (·.toNat)).getD 0

def tokenOf (columns : List Column) : List UInt8 :=
  ((Column.find? columns .coapToken).map (·.value)).getD []

def described (columns : List Column) (payload : List UInt8) : CoapMessage where
  version := Fin.ofNat 4 (numberOf columns .coapVersion)
  type := Fin.ofNat 4 (numberOf columns .coapType)
  code := UInt8.ofNat (numberOf columns .coapCode)
  messageId := UInt16.ofNat (numberOf columns .coapMessageId)
  token := tokenOf columns
  options := columns.filterMap optionOf?
  payload

namespace Parts.Ordered

variable (h : parts.Ordered)

include h in
theorem numberOf_columns : numberOf parts.columns .coapVersion = parts.version.toNat ∧
    numberOf parts.columns .coapType = parts.type.toNat ∧
    numberOf parts.columns .coapTokenLength = parts.tokenLength.toNat ∧
    numberOf parts.columns .coapCode = parts.code.toNat ∧
    numberOf parts.columns .coapMessageId = parts.messageId.toNat := by
  obtain ⟨hversion, htype, hlength, hcode, hid⟩ := h.fields
  simp [numberOf, Column.find?, Parts.columns, Parts.fixed, hversion, htype, hlength, hcode, hid]

include h in
theorem tokenOf_columns : tokenOf parts.columns = parts.token := by
  obtain ⟨hversion, htype, hlength, hcode, hid⟩ := h.fields
  -- The fixed columns are for other fields, and so are the options and the marker.
  have hskip : Column.find? parts.columns .coapToken =
      Column.find? (parts.token?.toList ++ parts.options ++ parts.marker?.toList) .coapToken := by
    simp [Column.find?, Parts.columns, Parts.fixed, hversion, htype, hlength, hcode, hid]
  rw [tokenOf, hskip, Parts.token]
  cases htoken : parts.token? with
  | some column => simp [Column.find?, h.token column htoken]
  | none =>
    have hoptions : ∀ column ∈ parts.options, column.field ≠ .coapToken := by
      intro column hcolumn hfield
      obtain ⟨name, hname⟩ := h.option_field column hcolumn
      cases hname.symm.trans hfield
    have hmarker : ∀ column ∈ parts.marker?, column.field ≠ .coapToken := by
      intro column hcolumn hfield
      cases (h.marker column hcolumn).symm.trans hfield
    have hnone : Column.find? (none.toList ++ parts.options ++ parts.marker?.toList) .coapToken =
        none := by
      rw [Column.find?, List.find?_eq_none]
      simp only [Option.toList_none, List.nil_append, List.mem_append, Option.mem_toList,
        beq_iff_eq]
      rintro column (hcolumn | hcolumn)
      · exact hoptions column hcolumn
      · exact hmarker column hcolumn
    rw [hnone]

include h in
theorem filterMap_columns : parts.columns.filterMap optionOf? =
    parts.options.filterMap optionOf? := by
  obtain ⟨hversion, htype, hlength, hcode, hid⟩ := h.fields
  have htoken : parts.token?.toList.filterMap optionOf? = [] := by
    rw [List.filterMap_eq_nil_iff]
    intro column hcolumn
    rw [optionOf?, h.token column (Option.mem_toList.1 hcolumn)]
    rfl
  have hmarker : parts.marker?.toList.filterMap optionOf? = [] := by
    rw [List.filterMap_eq_nil_iff]
    intro column hcolumn
    rw [optionOf?, h.marker column (Option.mem_toList.1 hcolumn)]
    rfl
  have hfixed : parts.fixed.filterMap optionOf? = [] := by
    simp [Parts.fixed, optionOf?, hversion, htype, hlength, hcode, hid, HeaderField.option?]
  simp only [Parts.columns, List.filterMap_append, hfixed, htoken, hmarker, List.nil_append,
    List.append_nil]

include h in
theorem described_columns (payload : List UInt8) :
    described parts.columns payload = parts.message payload := by
  obtain ⟨hversion, htype, -, hcode, hid⟩ := h.numberOf_columns
  rw [described, hversion, htype, hcode, hid, h.tokenOf_columns, h.filterMap_columns, Parts.message]

end Parts.Ordered

theorem exists_toList {column? : Option Column}
    (h : columns.map (·.field) = column?.toList.map (·.field)) :
    ∃ other? : Option Column, other?.toList = columns ∧ other?.isNone = column?.isNone ∧
      ∀ other ∈ other?, ∃ column ∈ column?, other.field = column.field := by
  cases column? with
  | none =>
    obtain rfl : columns = [] := by simpa using h
    exact ⟨none, rfl, rfl, by simp⟩
  | some column =>
    obtain ⟨other, rfl, hfield⟩ : ∃ other, columns = [other] ∧ other.field = column.field := by
      simpa using h
    exact ⟨some other, rfl, rfl, by simpa using hfield⟩

theorem Parts.Ordered.exists_parts (h : parts.Ordered)
    (hfields : received.map (·.field) = parts.columns.map (·.field)) :
    ∃ other : Parts, other.columns = received ∧ other.Ordered ∧
      other.marker?.isNone = parts.marker?.isNone := by
  -- The list of fields is split where the parts are, and the columns are split along with it.
  simp only [Parts.columns, List.map_append, h.fixed, List.map_eq_append_iff] at hfields
  obtain ⟨_, marker, rfl, ⟨_, options, rfl, ⟨fixed, token, rfl, hfixed, htoken⟩, hoptions⟩,
    hmarker⟩ := hfields
  obtain ⟨version, type, tokenLength, code, messageId, rfl⟩ :
      ∃ version type tokenLength code messageId,
        fixed = [version, type, tokenLength, code, messageId] := by
    have hshape := hfixed
    simp only [List.map_eq_cons_iff, List.map_eq_nil_iff] at hshape
    obtain ⟨version, _, rfl, -, type, _, rfl, -, tokenLength, _, rfl, -, code, _, rfl, -,
      messageId, _, rfl, -, rfl⟩ := hshape
    exact ⟨version, type, tokenLength, code, messageId, rfl⟩
  obtain ⟨token?, rfl, -, htoken⟩ := exists_toList htoken
  obtain ⟨marker?, rfl, hnone, hmarker⟩ := exists_toList hmarker
  refine ⟨⟨version, type, tokenLength, code, messageId, token?, options, marker?⟩, rfl,
    { fixed := hfixed, token := ?_, options := ?_, marker := ?_ }, hnone⟩
  · intro column hcolumn
    obtain ⟨other, hother, hfield⟩ := htoken column hcolumn
    rw [hfield, h.token other hother]
  · obtain ⟨names, hnames, hsorted⟩ := h.options
    exact ⟨names, hoptions.trans hnames, hsorted⟩
  · intro column hcolumn
    obtain ⟨other, hother, hfield⟩ := hmarker column hcolumn
    rw [hfield, h.marker other hother]

section Received

variable (hcolumns : CoapHeader.columns data = .ok (columns, length))
  (hfields : received.map (·.field) = columns.map (·.field))

include hcolumns hfields in
/-- Columns for the fields of some header make a header as long as the token that they hold is the
one that they announce: the header of the message that they describe. -/
theorem ofColumns_received : ofColumns received = .ok header ↔
    (tokenOf received).length ≤ CoapMessage.maxTokenLength ∧
      numberOf received .coapTokenLength = (tokenOf received).length ∧
      header = (described received (data.drop length)).headerBytes := by
  obtain ⟨parts, hparts, rfl, hpayload, -⟩ := exists_parts hcolumns
  obtain ⟨other, rfl, hother, hmarker⟩ := hparts.toOrdered.exists_parts hfields
  obtain ⟨-, -, hlength, -⟩ := hother.numberOf_columns
  rw [Parts.ofColumns_eq_ok_iff hother (hpayload.trans hmarker.symm), hother.tokenOf_columns,
    hlength, hother.described_columns]

include hcolumns hfields in
theorem sorted_received (payload : List UInt8) :
    (described received payload).options.Pairwise fun a b => a.number ≤ b.number := by
  obtain ⟨parts, hparts, rfl, -⟩ := exists_parts hcolumns
  obtain ⟨other, rfl, hother, -⟩ := hparts.toOrdered.exists_parts hfields
  rw [hother.described_columns]
  exact hother.sorted payload

theorem version_eq_of_toBytes_eq (ha : a.token.length ≤ CoapMessage.maxTokenLength)
    (hb : b.token.length ≤ CoapMessage.maxTokenLength) (h : a.toBytes = b.toBytes) :
    a.version = b.version := by
  have hversion := a.version.isLt
  have hversion' := b.version.isLt
  have htype := a.type.isLt
  have htype' := b.type.isLt
  rw [CoapMessage.maxTokenLength] at ha hb
  have hfirst := congrArg (·.head?.map UInt8.toNat) h
  simp only [CoapMessage.toBytes, CoapMessage.fixedHeader, List.cons_append, List.head?_cons,
    Option.map_some, Option.some.injEq, UInt8.toNat_ofNat'] at hfirst
  omega

include hcolumns hfields in
theorem reads_described_iff (payload : List UInt8)
    (htoken : (tokenOf received).length ≤ CoapMessage.maxTokenLength)
    (hshort : ∀ column ∈ received, column.value.length ≤ 65535) :
    (∃ message, CoapMessage.ofBytes? (described received payload).toBytes = .ok message ∧
      message.payload = payload) ↔ (described received payload).version = 1 := by
  constructor
  · rintro ⟨message, hread, -⟩
    obtain ⟨hwell, hbytes⟩ := CoapMessage.ofBytes?_eq_ok_iff.1 hread
    rw [← version_eq_of_toBytes_eq hwell.token htoken hbytes, hwell.version]
  · intro hversion
    have hsorted := sorted_received hcolumns hfields payload
    refine ⟨_, CoapMessage.ofBytes?_eq_ok_iff.2 ⟨⟨hversion, htoken, hsorted,
      fun option hoption => ?_⟩, rfl⟩, rfl⟩
    obtain ⟨column, hcolumn, hof⟩ := List.mem_filterMap.1 hoption
    obtain ⟨name, -, rfl⟩ := Option.map_eq_some_iff.1 hof
    exact hshort column hcolumn

end Received

end HeaderCompression.CoapHeader
