import HeaderCompression.Proofs.Header.Columns
import Mathlib.Data.List.TakeWhile

namespace HeaderCompression

variable {payload header : List UInt8} {column : Column} {field : HeaderField} {name : NamedOption}
  {names : List NamedOption} {option : CoapOption} {done : List CoapOption}

theorem Column.toNat_ofNat {bits n : Nat} (hbits : bytesFor bits ≤ 8)
    (hn : n < 256 ^ bytesFor bits) : (Column.ofNat field bits n).toNat = n := by
  have hdrop : bytesFor bits - 8 = 0 := by omega
  simp [Column.ofNat, Column.toNat, hdrop, Nat.mod_eq_of_lt hn]

theorem Column.toNat_eq (h : column.value.length ≤ 8) : column.toNat = natOfBytes column.value := by
  rw [toNat, Nat.sub_eq_zero_of_le h, List.drop_zero]

theorem Column.Proper.ofNat_toNat (h : column.Proper) (hfield : column.field = field) {bits : Nat}
    (hwidth : field.width? = some bits) (hsmall : bits ≤ 64) :
    .ofNat field bits column.toNat = column ∧ column.toNat < 2 ^ bits := by
  have hbits : column.bits = bits := h.width bits (by rw [hfield, hwidth]; rfl)
  have hvalue := h.value
  obtain ⟨field', bits', value⟩ := column
  dsimp only at hfield hbits hvalue
  subst hfield hbits
  obtain ⟨hlen, hlt⟩ := hvalue
  have hnat : Column.toNat ⟨field', bits', value⟩ = natOfBytes value :=
    Column.toNat_eq (by dsimp only; simp only [bytesFor] at hlen; omega)
  rw [hnat, Column.ofNat, ← hlen, bytesOfNat_natOfBytes]
  exact ⟨rfl, hlt⟩

theorem Column.ofBytes_value (hfield : column.field = field)
    (hbits : column.bits = 8 * column.value.length) (hlen : column.value.length ≤ maxBytes) :
    .ofBytes field column.value = column := by
  rw [maxBytes] at hlen
  rw [ofBytes, Nat.mod_eq_of_lt (by omega), ← hbits, ← hfield]

theorem CoapMessage.insertOption_eq_append (h : ∀ other ∈ done, other.number ≤ option.number) :
    insertOption option done = done ++ [option] := by
  have hall : ∀ other ∈ done, decide (other.number ≤ option.number) = true := by simpa using h
  rw [insertOption]
  rw [List.takeWhile_eq_self_iff.2 hall, List.dropWhile_eq_nil_iff.2 hall]

def CoapMessage.headerBytes (message : CoapMessage) : List UInt8 :=
  message.fixedHeader ++ message.token ++ encodeOptions 0 message.options ++
    (if message.payload.isEmpty then [] else [payloadMarker])

theorem CoapMessage.toBytes_eq (message : CoapMessage) :
    message.toBytes = message.headerBytes ++ message.payload := by
  rw [toBytes, headerBytes, encodePayload]
  split
  · rename_i hempty
    simp [List.isEmpty_iff.1 hempty]
  · simp

namespace CoapHeader

def optionOf? (column : Column) : Option CoapOption :=
  column.field.option?.map fun name => ⟨name.number, column.value⟩

theorem optionOf?_eq_some (h : column.field = .coapOption name) :
    optionOf? column = some ⟨name.number, column.value⟩ := by
  rw [optionOf?, h]
  rfl

theorem exists_name {options : List Column} (h : options.map (·.field) = names.map .coapOption)
    (hcolumn : column ∈ options) : ∃ name, column.field = .coapOption name := by
  have hfield := List.mem_map_of_mem (f := Column.field) hcolumn
  rw [h] at hfield
  obtain ⟨name, -, hname⟩ := List.mem_map.1 hfield
  exact ⟨name, hname.symm⟩

/-- The columns of a header, by what they are for. -/
@[ext] structure Parts where
  version : Column
  type : Column
  tokenLength : Column
  code : Column
  messageId : Column
  token? : Option Column
  options : List Column
  marker? : Option Column

namespace Parts

variable {parts : Parts} {start result : Draft}

def fixed (parts : Parts) : List Column :=
  [parts.version, parts.type, parts.tokenLength, parts.code, parts.messageId]

def columns (parts : Parts) : List Column :=
  parts.fixed ++ parts.token?.toList ++ parts.options ++ parts.marker?.toList

def token (parts : Parts) : List UInt8 :=
  (parts.token?.map (·.value)).getD []

def message (parts : Parts) (payload : List UInt8) : CoapMessage where
  version := Fin.ofNat 4 parts.version.toNat
  type := Fin.ofNat 4 parts.type.toNat
  code := UInt8.ofNat parts.code.toNat
  messageId := UInt16.ofNat parts.messageId.toNat
  token := parts.token
  options := parts.options.filterMap optionOf?
  payload

/-- Each part is for the fields that it is named after, and the options stand in the order of their
numbers. -/
structure Ordered (parts : Parts) : Prop where
  fixed : parts.fixed.map (·.field) =
    [.coapVersion, .coapType, .coapTokenLength, .coapCode, .coapMessageId]
  token : ∀ column ∈ parts.token?, column.field = .coapToken
  options : ∃ names : List NamedOption, parts.options.map (·.field) = names.map .coapOption ∧
    names.Pairwise fun a b => a.number ≤ b.number
  marker : ∀ column ∈ parts.marker?, column.field = .coapPayloadMarker

def draft (parts : Parts) : Draft :=
  ⟨{ parts.message [] with token := [], options := [] }, some parts.tokenLength.toNat, false⟩

theorem map_number_options {options : List Column}
    (h : options.map (·.field) = names.map .coapOption) :
    (options.filterMap optionOf?).map (·.number) = names.map (·.number) := by
  induction options generalizing names with
  | nil =>
    cases names with
    | nil => rfl
    | cons name names => cases h
  | cons column options ih =>
    cases names with
    | nil => cases h
    | cons name names =>
      obtain ⟨hfield, hrest⟩ := List.cons_eq_cons.1 h
      rw [List.filterMap_cons_some (optionOf?_eq_some hfield), List.map_cons, List.map_cons,
        ih hrest]

theorem Ordered.fields (h : parts.Ordered) :
    parts.version.field = .coapVersion ∧ parts.type.field = .coapType ∧
      parts.tokenLength.field = .coapTokenLength ∧ parts.code.field = .coapCode ∧
      parts.messageId.field = .coapMessageId := by
  simpa [Parts.fixed] using h.fixed

theorem Ordered.option_field (h : parts.Ordered) :
    ∀ column ∈ parts.options, ∃ name, column.field = .coapOption name := by
  obtain ⟨names, hnames, -⟩ := h.options
  exact fun column hcolumn => exists_name hnames hcolumn

theorem Ordered.sorted (h : parts.Ordered) (payload : List UInt8) :
    (parts.message payload).options.Pairwise fun a b => a.number ≤ b.number := by
  obtain ⟨names, hnames, hsorted⟩ := h.options
  rw [← List.pairwise_map (f := CoapOption.number) (R := (· ≤ ·)), message,
    map_number_options hnames, List.pairwise_map]
  exact hsorted

theorem foldlM_fixed (h : parts.Ordered) :
    parts.fixed.foldlM Draft.add Draft.blank = .ok parts.draft := by
  obtain ⟨hversion, htype, hlength, hcode, hid⟩ := h.fields
  simp only [fixed, List.foldlM_cons, List.foldlM_nil, Draft.add, hversion, htype, hlength, hcode,
    hid]
  rfl

theorem foldlM_token (h : parts.Ordered) (hstart : start.message.token = []) :
    parts.token?.toList.foldlM Draft.add start = .ok result ↔
      parts.token.length ≤ CoapMessage.maxTokenLength ∧
        result = { start with message := { start.message with token := parts.token } } := by
  cases htoken : parts.token? with
  | none =>
    have hsame : { start.message with token := [] } = start.message := by rw [← hstart]
    simp only [htoken, token, Option.toList_none, List.foldlM_nil, Option.map_none,
      Option.getD_none, List.length_nil, Nat.zero_le, true_and, hsame, pure_eq_ok_iff]
    exact eq_comm
  | some column =>
    have hadd : Draft.add start column = (do
        return { start with message := ← start.message.withToken column.value }) := by
      rw [Draft.add, h.token column htoken]
    simp only [Option.toList_some, List.foldlM_cons, List.foldlM_nil, bind_pure, hadd, token,
      htoken, Option.map_some, Option.getD_some, CoapMessage.withToken]
    split
    · rename_i hshort
      simp [hshort, eq_comm]
    · rename_i hlong
      simp [hlong, bind, Except.bind]

theorem foldlM_options (start : Draft) {options : List Column}
    (hnames : options.map (·.field) = names.map .coapOption)
    (hsorted : (start.message.options ++ options.filterMap optionOf?).Pairwise
      fun a b => a.number ≤ b.number) :
    options.foldlM Draft.add start = .ok { start with message :=
      { start.message with options := start.message.options ++ options.filterMap optionOf? } } := by
  induction options generalizing start names with
  | nil => simp [pure, Except.pure]
  | cons column options ih =>
    cases names with
    | nil => cases hnames
    | cons name names =>
      obtain ⟨hfield, hrest⟩ := List.cons_eq_cons.1 hnames
      have hfield : column.field = .coapOption name := hfield
      rw [List.filterMap_cons_some (optionOf?_eq_some hfield)] at hsorted ⊢
      have hle : ∀ other ∈ start.message.options, other.number ≤ name.number :=
        fun other hother => (List.pairwise_append.1 hsorted).2.2 other hother _ List.mem_cons_self
      have hadd : Draft.add start column = .ok { start with message := { start.message with
          options := start.message.options ++ [⟨name.number, column.value⟩] } } := by
        rw [← CoapMessage.insertOption_eq_append hle, Draft.add, hfield]
        rfl
      rw [List.foldlM_cons]
      refine bind_eq_ok_iff.2 ⟨_, hadd, (ih _ hrest (by simpa using hsorted)).trans ?_⟩
      simp

theorem foldlM_marker (h : parts.Ordered) (hstart : start.hasMarker = false) :
    parts.marker?.toList.foldlM Draft.add start =
      .ok { start with hasMarker := parts.marker?.isSome } := by
  cases hmarker : parts.marker? with
  | none =>
    rw [Option.isSome_none, ← hstart]
    rfl
  | some column =>
    have hadd : Draft.add start column = .ok { start with hasMarker := true } := by
      rw [Draft.add, h.marker column hmarker]
    simp only [Option.toList_some, List.foldlM_cons, List.foldlM_nil, bind_pure, hadd,
      Option.isSome_some]

/-- The columns can be added up unless the token is too long, and give the message that they
describe. -/
theorem foldlM_columns (h : parts.Ordered) :
    parts.columns.foldlM Draft.add Draft.blank = .ok result ↔
      parts.token.length ≤ CoapMessage.maxTokenLength ∧
        result = ⟨parts.message [], some parts.tokenLength.toNat, parts.marker?.isSome⟩ := by
  obtain ⟨names, hnames, -⟩ := h.options
  obtain ⟨withToken, hwith⟩ : ∃ withToken : Draft, withToken =
      { parts.draft with message := { parts.draft.message with token := parts.token } } := ⟨_, rfl⟩
  have htoken : parts.draft.message.token = [] := rfl
  have hoptions := foldlM_options withToken hnames (by
    rw [hwith]
    exact h.sorted [])
  simp only [columns, List.foldlM_append, foldlM_fixed h, bind_eq_ok_iff, Except.ok.injEq,
    exists_eq_left', foldlM_token h htoken, and_assoc, ← hwith, exists_and_left, exists_eq_left,
    hoptions]
  refine and_congr_right fun _ => ?_
  rw [foldlM_marker h (by rw [hwith]; rfl), Except.ok.injEq, eq_comm, hwith]
  rfl

/-- A header is built exactly if the token is as long as it is announced; it is the header of the
message that the columns describe, with a payload if there is a marker. -/
theorem ofColumns_eq_ok_iff (h : parts.Ordered)
    (hpayload : payload.isEmpty = parts.marker?.isNone) :
    ofColumns parts.columns = .ok header ↔
      parts.token.length ≤ CoapMessage.maxTokenLength ∧
        parts.tokenLength.toNat = parts.token.length ∧
          header = (parts.message payload).headerBytes := by
  have hheader : (parts.message []).toBytes ++
      (if parts.marker?.isSome then [CoapMessage.payloadMarker] else []) =
        (parts.message payload).headerBytes := by
    simp only [CoapMessage.toBytes, CoapMessage.headerBytes, CoapMessage.encodePayload, message,
      List.isEmpty_nil, if_true, List.append_nil, hpayload]
    cases parts.marker? <;> rfl
  rw [ofColumns, bind_eq_ok_iff]
  simp only [foldlM_columns h]
  constructor
  · rintro ⟨_, ⟨hshort, rfl⟩, hbuild⟩
    dsimp only at hbuild
    split at hbuild
    · exact (throw_bind_ne_ok hbuild).elim
    · rename_i hannounced
      cases hbuild
      exact ⟨hshort, not_not.1 hannounced, hheader⟩
  · rintro ⟨hshort, hannounced, rfl⟩
    have hfound : ¬ parts.tokenLength.toNat ≠ (parts.message []).token.length :=
      not_not.2 hannounced
    refine ⟨_, ⟨hshort, rfl⟩, ?_⟩
    dsimp only
    rw [if_neg hfound, ← hheader]
    rfl

/-- The columns that a header can have. A token is only there if it is not empty. -/
structure Canonical (parts : Parts) : Prop extends parts.Ordered where
  proper : ∀ column ∈ parts.columns, column.Proper
  version_eq : parts.version.toNat = 1
  tokenLength_eq : parts.tokenLength.toNat = parts.token.length
  token_short : parts.token.length ≤ CoapMessage.maxTokenLength
  token_nonempty : ∀ column ∈ parts.token?, column.value ≠ []
  wholeBytes : ∀ column ∈ parts.token?.toList ++ parts.options,
    column.bits = 8 * column.value.length
  options_short : ∀ column ∈ parts.options, column.value.length ≤ Column.maxBytes
  marker_eq : ∀ column ∈ parts.marker?, column.value = [CoapMessage.payloadMarker]

end Parts

section Columns

variable {data : List UInt8} {columns : List Column} {length : Nat} {message : CoapMessage}

theorem bits_ofBytes {value : List UInt8} (h : value.length ≤ Column.maxBytes) :
    (Column.ofBytes field value).bits = 8 * value.length := by
  rw [Column.maxBytes] at h
  rw [Column.ofBytes]
  exact Nat.mod_eq_of_lt (by omega)

theorem optionColumns {options : List CoapOption}
    (h : List.Forall₂ (fun option column => optionColumn option = .ok column) options columns) :
    (∃ names : List NamedOption, columns.map (·.field) = names.map .coapOption ∧
        names.map (·.number) = options.map (·.number)) ∧
      columns.filterMap optionOf? = options ∧
      ∀ column ∈ columns, column.bits = 8 * column.value.length ∧
        column.value.length ≤ Column.maxBytes := by
  induction h with
  | nil => exact ⟨⟨[], rfl, rfl⟩, rfl, List.forall_mem_nil _⟩
  | @cons option column options columns hcolumn _ ih =>
    obtain ⟨name, hnumber, hlen, rfl⟩ := optionColumn_eq_ok hcolumn
    obtain ⟨⟨names, hnames, hnumbers⟩, hoptions, hcolumns⟩ := ih
    refine ⟨⟨name :: names, ?_, ?_⟩, ?_, List.forall_mem_cons.2 ⟨⟨bits_ofBytes hlen, hlen⟩,
      hcolumns⟩⟩
    · rw [List.map_cons, List.map_cons, hnames]
      rfl
    · rw [List.map_cons, List.map_cons, hnumbers, hnumber]
    · rw [List.filterMap_cons_some (optionOf?_eq_some rfl), hoptions, hnumber]
      rfl

def Parts.ofMessage (message : CoapMessage) (options : List Column) : Parts where
  version := .ofNat .coapVersion 2 message.version.val
  type := .ofNat .coapType 2 message.type.val
  tokenLength := .ofNat .coapTokenLength 4 message.token.length
  code := .ofNat .coapCode 8 message.code.toNat
  messageId := .ofNat .coapMessageId 16 message.messageId.toNat
  token? := if message.token.isEmpty then none else some (.ofBytes .coapToken message.token)
  options
  marker? := if message.payload.isEmpty then none
    else some (.ofBytes .coapPayloadMarker [CoapMessage.payloadMarker])

namespace Parts

theorem columns_ofMessage (message : CoapMessage) (options : List Column) :
    (ofMessage message options).columns =
      fixedColumns message ++ tokenColumns message ++ options ++ markerColumns message := by
  simp only [columns, ofMessage, tokenColumns, markerColumns]
  cases message.token.isEmpty <;> cases message.payload.isEmpty <;> rfl

theorem token_ofMessage (message : CoapMessage) (options : List Column) :
    (ofMessage message options).token = message.token := by
  simp only [token, ofMessage]
  split
  · rename_i hempty
    exact (List.isEmpty_iff.1 hempty).symm
  · rfl

theorem message_ofMessage {options : List Column}
    (hoptions : options.filterMap optionOf? = message.options) :
    (ofMessage message options).message message.payload = message := by
  have hversion := message.version.isLt
  have htype := message.type.isLt
  have hcode := message.code.toNat_lt
  have hid := message.messageId.toNat_lt
  rw [Parts.message, token_ofMessage]
  simp only [ofMessage, hoptions]
  rw [Column.toNat_ofNat (by decide) (by norm_num [bytesFor]; omega),
    Column.toNat_ofNat (by decide) (by norm_num [bytesFor]; omega),
    Column.toNat_ofNat (by decide) (by norm_num [bytesFor]; omega),
    Column.toNat_ofNat (by decide) (by norm_num [bytesFor]; omega)]
  simp

theorem width_ofMessage {options : List Column}
    (hnames : options.map (·.field) = names.map .coapOption) :
    ∀ column ∈ (ofMessage message options).columns, ∀ bits ∈ column.field.width?,
      column.bits = bits := by
  rw [columns_ofMessage]
  simp only [List.forall_mem_append]
  refine ⟨⟨⟨?fixed, ?token⟩, ?named⟩, ?marker⟩
  case fixed => simp [fixedColumns, Column.ofNat, HeaderField.width?]
  case token =>
    rw [tokenColumns]
    split <;> simp [Column.ofBytes, HeaderField.width?]
  case named =>
    intro column hcolumn bits hbits
    obtain ⟨name, hname⟩ := exists_name hnames hcolumn
    rw [hname] at hbits
    cases hbits
  case marker =>
    rw [markerColumns]
    split <;> simp [Column.ofBytes, HeaderField.width?]

theorem ordered_ofMessage {options : List Column}
    (hnames : options.map (·.field) = names.map .coapOption)
    (hnumbers : names.map (·.number) = message.options.map (·.number))
    (hsorted : message.options.Pairwise fun a b => a.number ≤ b.number) :
    (ofMessage message options).Ordered where
  fixed := rfl
  token := by
    simp only [ofMessage]
    split <;> simp [Column.ofBytes]
  options := by
    refine ⟨names, hnames, ?_⟩
    rw [← List.pairwise_map (f := NamedOption.number) (R := (· ≤ ·)), hnumbers, List.pairwise_map]
    exact hsorted
  marker := by
    simp only [ofMessage]
    split <;> simp [Column.ofBytes]

end Parts

/-- The columns of a header are canonical and describe the message that it is from; the payload of
the message is what stands behind the header. -/
theorem exists_parts (h : CoapHeader.columns data = .ok (columns, length)) :
    ∃ parts : Parts, parts.Canonical ∧ parts.columns = columns ∧
      (data.drop length).isEmpty = parts.marker?.isNone ∧
      CoapMessage.parse data = .ok (parts.message (data.drop length)) ∧
      (parts.message (data.drop length)).headerBytes = data.take length ∧ length ≤ data.length := by
  have hfits := fits_columns h
  obtain ⟨message, options, hparse, hlength, hoptions, hcolumns⟩ := columns_eq_ok h
  obtain ⟨⟨hversion, htoken, hsorted, -⟩, hdata⟩ := CoapMessage.parse_eq_ok hparse
  obtain ⟨⟨names, hnames, hnumbers⟩, hmessage, hshort⟩ := optionColumns hoptions
  rw [CoapMessage.toBytes_eq] at hdata
  have hheader : length = message.headerBytes.length := by
    rw [hlength, ← hdata, List.length_append, Nat.add_sub_cancel]
  have htake : message.headerBytes = data.take length := by
    rw [← hdata, List.take_left' hheader.symm]
  have hpayload : data.drop length = message.payload := by
    rw [← hdata, List.drop_left' hheader.symm]
  rw [← Parts.columns_ofMessage] at hcolumns
  rw [CoapMessage.maxTokenLength] at htoken
  rw [hpayload]
  refine ⟨.ofMessage message options,
    { Parts.ordered_ofMessage hnames hnumbers hsorted with
      proper := fun column hcolumn => ⟨Parts.width_ofMessage hnames column hcolumn,
        (hfits column (hcolumns ▸ hcolumn)).value⟩
      version_eq := ?version
      tokenLength_eq := ?tokenLength
      token_short := by rwa [Parts.token_ofMessage]
      token_nonempty := ?nonempty
      wholeBytes := ?wholeBytes
      options_short := fun column hcolumn => (hshort column hcolumn).2
      marker_eq := ?marker }, hcolumns.symm, ?payload,
    by rw [Parts.message_ofMessage hmessage, hparse],
    by rw [Parts.message_ofMessage hmessage, htake], hlength ▸ Nat.sub_le ..⟩
  case version =>
    simp only [Parts.ofMessage, hversion]
    exact Column.toNat_ofNat (by decide) (by decide)
  case tokenLength =>
    rw [Parts.token_ofMessage]
    exact Column.toNat_ofNat (by decide) (by norm_num [bytesFor]; omega)
  case nonempty =>
    simp only [Parts.ofMessage]
    split
    · simp
    · rename_i hnonempty
      intro column hcolumn hvalue
      obtain rfl := Option.mem_some_iff.1 hcolumn
      exact hnonempty (List.isEmpty_iff.2 hvalue)
  case wholeBytes =>
    rw [List.forall_mem_append]
    refine ⟨?_, fun column hcolumn => (hshort column hcolumn).1⟩
    simp only [Parts.ofMessage]
    split
    · simp
    · intro column hcolumn
      obtain rfl := Option.mem_some_iff.1 (Option.mem_toList.1 hcolumn)
      exact bits_ofBytes (by rw [Column.maxBytes]; omega)
  case marker =>
    simp only [Parts.ofMessage]
    split <;> simp [Column.ofBytes]
  case payload =>
    simp only [Parts.ofMessage]
    cases message.payload.isEmpty <;> rfl

theorem exists_message (h : CoapHeader.columns data = .ok (columns, length)) :
    ∃ message, CoapMessage.ofBytes? data = .ok message ∧ messageColumns message = .ok columns ∧
      message.payload = data.drop length := by
  obtain ⟨parts, -, -, -, hparse, -⟩ := exists_parts h
  obtain ⟨message, hmessage, h⟩ := bind_eq_ok_iff.1 h
  obtain ⟨columns', hcolumns, h⟩ := bind_eq_ok_iff.1 h
  cases h
  have hsame := (mapError_eq_ok_iff.1 hmessage).symm.trans hparse
  exact ⟨message, hmessage, hcolumns, congrArg CoapMessage.payload (Except.ok.inj hsame)⟩

theorem ofColumns_columns (h : CoapHeader.columns data = .ok (columns, length)) :
    ofColumns columns = .ok (data.take length) := by
  obtain ⟨parts, hparts, rfl, hpayload, -, htake, -⟩ := exists_parts h
  rw [Parts.ofColumns_eq_ok_iff hparts.toOrdered hpayload]
  exact ⟨hparts.token_short, hparts.tokenLength_eq, htake.symm⟩

end Columns

end CoapHeader

end HeaderCompression
