import HeaderCompression.Proofs.Checked.Header

namespace HeaderCompression.CoapMessage

variable {data : List UInt8} {number : UInt16} {option : CoapOption}
  {options others source : List CoapOption} {message start : CoapMessage}

/-- Options in the order of their numbers; those of the same number stay in the order that they
have. -/
def sortOptions (options : List CoapOption) : List CoapOption :=
  options.mergeSort fun a b => decide (a.number ≤ b.number)

theorem number_le_trans (a b c : CoapOption) (hab : decide (a.number ≤ b.number) = true)
    (hbc : decide (b.number ≤ c.number) = true) : decide (a.number ≤ c.number) = true :=
  decide_eq_true (UInt16.le_trans (of_decide_eq_true hab) (of_decide_eq_true hbc))

theorem number_le_total (a b : CoapOption) :
    (decide (a.number ≤ b.number) || decide (b.number ≤ a.number)) = true := by
  rw [Bool.or_eq_true, decide_eq_true_iff, decide_eq_true_iff]
  exact UInt16.le_total _ _

theorem sortOptions_sorted (options : List CoapOption) :
    (sortOptions options).Pairwise fun a b => a.number ≤ b.number :=
  (List.pairwise_mergeSort number_le_trans number_le_total options).imp of_decide_eq_true

theorem sortOptions_of_sorted (h : options.Pairwise fun a b => a.number ≤ b.number) :
    sortOptions options = options :=
  List.mergeSort_of_pairwise (h.imp decide_eq_true)

theorem filter_sortOptions (number : UInt16) (options : List CoapOption) :
    (sortOptions options).filter (·.number == number) =
      options.filter (·.number == number) := by
  have hsame : (options.filter (·.number == number)).Pairwise fun a b =>
      decide (a.number ≤ b.number) = true := by
    refine List.pairwise_of_forall_mem_list fun a ha b hb => decide_eq_true ?_
    rw [eq_of_beq (List.mem_filter.1 ha).2, eq_of_beq (List.mem_filter.1 hb).2]
    exact UInt16.le_refl number
  have hsub : (options.filter (·.number == number)).Sublist (sortOptions options) :=
    List.sublist_mergeSort number_le_trans number_le_total hsame List.filter_sublist
  have hfilter := hsub.filter (·.number == number)
  rw [List.filter_filter] at hfilter
  simp only [Bool.and_self] at hfilter
  refine (hfilter.eq_of_length ?_).symm
  exact ((List.mergeSort_perm options _).filter _).length_eq.symm

theorem mem_of_filter_eq (h : ∀ number : UInt16, options.filter (·.number == number) =
    others.filter (·.number == number)) (hmem : option ∈ options) : option ∈ others := by
  have hfilter : option ∈ options.filter (·.number == option.number) :=
    List.mem_filter.2 ⟨hmem, beq_self_eq_true option.number⟩
  rw [h] at hfilter
  exact (List.mem_filter.1 hfilter).1

theorem head_number_le (h : (option :: options).Pairwise fun a b => a.number ≤ b.number)
    {other : CoapOption} (hmem : other ∈ option :: options) : option.number ≤ other.number := by
  rcases List.mem_cons.1 hmem with rfl | hmem
  · exact UInt16.le_refl _
  · exact (List.pairwise_cons.1 h).1 other hmem

/-- Sorted options are determined by the options of each number. -/
theorem eq_of_sorted (hoptions : options.Pairwise fun a b => a.number ≤ b.number)
    (hothers : others.Pairwise fun a b => a.number ≤ b.number)
    (h : ∀ number : UInt16, options.filter (·.number == number) =
      others.filter (·.number == number)) : options = others := by
  induction options generalizing others with
  | nil =>
    cases others with
    | nil => rfl
    | cons other others => cases mem_of_filter_eq (fun number => (h number).symm) List.mem_cons_self
  | cons option options ih =>
    cases others with
    | nil => cases mem_of_filter_eq h List.mem_cons_self
    | cons other others =>
      -- Each of the two heads is found in the other list, so neither number is below the other.
      have hle := head_number_le hothers (mem_of_filter_eq h List.mem_cons_self)
      have hge := head_number_le hoptions
        (mem_of_filter_eq (fun number => (h number).symm) List.mem_cons_self)
      have hnumber : other.number = option.number := UInt16.le_antisymm hle hge
      have hhead := h option.number
      simp only [List.filter_cons, hnumber, beq_self_eq_true, if_true, List.cons.injEq] at hhead
      obtain ⟨rfl, -⟩ := hhead
      refine congrArg (option :: ·) (ih hoptions.of_cons hothers.of_cons fun number => ?_)
      have hnext := h number
      rw [List.filter_cons, List.filter_cons] at hnext
      split at hnext
      · exact List.tail_eq_of_cons_eq hnext
      · exact hnext

theorem number_lt_of_mem_dropWhile (h : options.Pairwise fun a b => a.number ≤ b.number)
    (hmem : option ∈ options.dropWhile (·.number ≤ number)) : number < option.number := by
  induction options with
  | nil => cases hmem
  | cons other options ih =>
    obtain ⟨hother, hoptions⟩ := List.pairwise_cons.1 h
    by_cases hle : other.number ≤ number
    · simp only [List.dropWhile_cons, decide_eq_true hle, if_true] at hmem
      exact ih hoptions hmem
    · simp only [List.dropWhile_cons, decide_eq_false hle, Bool.false_eq_true, if_false] at hmem
      have hlt : number < other.number := UInt16.not_le.1 hle
      rcases List.mem_cons.1 hmem with rfl | hmem
      · exact hlt
      · exact UInt16.lt_of_lt_of_le hlt (hother option hmem)

theorem insertOption_split (option : CoapOption)
    (h : options.Pairwise fun a b => a.number ≤ b.number) :
    ∃ front back, options = front ++ back ∧ insertOption option options = front ++ option :: back ∧
      (∀ other ∈ front, other.number ≤ option.number) ∧
      ∀ other ∈ back, option.number < other.number :=
  ⟨_, _, List.takeWhile_append_dropWhile.symm, rfl,
    fun other hother => by simpa using List.mem_takeWhile_imp hother,
    fun other hother => number_lt_of_mem_dropWhile h hother⟩

/-- An option becomes the last one of its number; the others keep their places among those of
theirs. -/
theorem filter_insertOption (h : options.Pairwise fun a b => a.number ≤ b.number)
    (number : UInt16) :
    (insertOption option options).filter (·.number == number) =
      (options ++ [option]).filter (·.number == number) := by
  obtain ⟨front, back, rfl, hinsert, -, hback⟩ := insertOption_split option h
  rw [hinsert, List.append_assoc, List.filter_append, List.filter_append (p := _) front]
  by_cases hnumber : option.number = number
  · have hnone : back.filter (·.number == number) = [] := by
      refine List.filter_eq_nil_iff.2 fun other hother => ?_
      have hlt := hback other hother
      rw [hnumber] at hlt
      simpa using (UInt16.ne_of_lt hlt).symm
    simp [hnumber, hnone]
  · simp [hnumber]

theorem insertOption_sortOptions (option : CoapOption) (options : List CoapOption) :
    insertOption option (sortOptions options) = sortOptions (options ++ [option]) := by
  have hsorted := sortOptions_sorted options
  refine eq_of_sorted (insertOption_sorted option hsorted) (sortOptions_sorted _) fun number => ?_
  rw [filter_insertOption hsorted, List.filter_append, filter_sortOptions, filter_sortOptions,
    List.filter_append]

/-- The place between `low` and `high` where a test begins to fail, found by halving. -/
def bisect (test : Nat → Bool) (low high : Nat) : Nat :=
  if _h : low < high then
    let middle := (low + high) / 2
    if test middle then bisect test (middle + 1) high else bisect test low middle
  else low
termination_by high - low

theorem bisect_eq {test : Nat → Bool} {low high place : Nat}
    (hbefore : ∀ i < place, test i = true) (hbehind : ∀ i, place ≤ i → test i = false)
    (hlow : low ≤ place) (hhigh : place ≤ high) : bisect test low high = place := by
  fun_induction bisect test low high with
  | case1 low high hlt middle htest ih =>
    refine ih (Nat.lt_of_not_le fun hle => ?_) hhigh
    rw [hbehind middle hle] at htest
    cases htest
  | case2 low high hlt middle htest ih =>
    exact ih hlow (Nat.le_of_not_lt fun hle => htest (hbefore middle hle))
  | case3 low high hlt => omega

def insertionPlace (number : UInt16) (options : List CoapOption) : Nat :=
  bisect (fun i => options[i]?.any (·.number ≤ number)) 0 options.length

theorem insertIdx_append (front back : List CoapOption) (option : CoapOption) :
    (front ++ back).insertIdx front.length option = front ++ option :: back := by
  induction front with
  | nil => rfl
  | cons first front ih =>
    rw [List.cons_append, List.length_cons, List.insertIdx_succ_cons, ih, List.cons_append]

theorem insertOption_eq_insertIdx (option : CoapOption)
    (h : options.Pairwise fun a b => a.number ≤ b.number) :
    insertOption option options =
      options.insertIdx (insertionPlace option.number options) option := by
  obtain ⟨front, back, rfl, hinsert, hfront, hback⟩ := insertOption_split option h
  have hplace : insertionPlace option.number (front ++ back) = front.length := by
    refine bisect_eq (fun i hi => ?_) (fun i hi => ?_) (Nat.zero_le _) (by simp)
    · rw [List.getElem?_append_left hi, List.getElem?_eq_getElem hi, Option.any_some]
      exact decide_eq_true (hfront _ (List.getElem_mem hi))
    · rw [List.getElem?_append_right hi]
      cases hother : back[i - front.length]? with
      | none => rfl
      | some other =>
        rw [Option.any_some]
        exact decide_eq_false (UInt16.not_le.2 (hback other (List.mem_of_getElem? hother)))
  rw [hinsert, hplace, insertIdx_append]

inductive Edit where
  | version (version : UInt8)
  | type (type : UInt8)
  | code (code : UInt8)
  | messageId (messageId : UInt16)
  | token (token : List UInt8)
  | option (option : CoapOption)
  | payload (payload : List UInt8)

/-- The message after an edit. A token that is refused leaves it as it was. -/
def edit (message : CoapMessage) : Edit → CoapMessage
  | .version version => message.withVersion version.toNat
  | .type type => message.withType type.toNat
  | .code code => message.withCode code
  | .messageId messageId => message.withMessageId messageId
  | .token token =>
    match message.withToken token with
    | .ok message => message
    | .error _ => message
  | .option ⟨number, value⟩ => message.addOption number value
  | .payload payload => message.withPayload payload

def Edit.option? : Edit → Option CoapOption
  | .option option => some option
  | _ => none

/-- A message with a token that fits and with the options of `source`, sorted. -/
structure Sorts (message : CoapMessage) (source : List CoapOption) : Prop where
  options : message.options = sortOptions source
  token : message.token.length ≤ maxTokenLength

theorem sorts_blank : blank.Sorts [] :=
  ⟨(sortOptions_of_sorted .nil).symm, Nat.zero_le _⟩

theorem WellFormed.sorts (h : message.WellFormed) : message.Sorts message.options :=
  ⟨(sortOptions_of_sorted h.sorted).symm, h.token⟩

namespace Sorts

theorem sorted (h : message.Sorts source) :
    message.options.Pairwise fun a b => a.number ≤ b.number :=
  h.options ▸ sortOptions_sorted source

theorem edit (h : message.Sorts source) (edit : Edit) :
    (message.edit edit).Sorts (source ++ edit.option?.toList) := by
  cases edit with
  | option option =>
    refine ⟨?_, h.token⟩
    exact (congrArg (insertOption option) h.options).trans (insertOption_sortOptions option source)
  | token token =>
    -- The only edit that can be refused.
    have hsource : source ++ (Edit.token token).option?.toList = source := List.append_nil source
    rw [hsource, CoapMessage.edit, withToken]
    by_cases hshort : token.length ≤ maxTokenLength
    · rw [if_pos hshort]
      exact ⟨h.options, hshort⟩
    · rw [if_neg hshort]
      exact h
  | _ => exact ⟨h.options.trans (congrArg sortOptions (List.append_nil source).symm), h.token⟩

theorem foldl (h : message.Sorts source) (edits : List Edit) :
    (edits.foldl CoapMessage.edit message).Sorts (source ++ edits.filterMap Edit.option?) := by
  induction edits generalizing message source with
  | nil => simpa using h
  | cons edit edits ih =>
    have hrest := ih (h.edit edit)
    rw [List.append_assoc] at hrest
    cases hoption : edit.option? with
    | none => simpa [hoption] using hrest
    | some option => simpa [hoption] using hrest

end Sorts

theorem sorts_of_start (hstart : start = blank ∨ ∃ data, ofBytes? data = .ok start) :
    start.Sorts start.options := by
  rcases hstart with rfl | ⟨data, hread⟩
  · exact sorts_blank
  · exact (ofBytes?_eq_ok_iff.1 hread).1.sorts

/-- However a message is edited, its options are the stable sort of those it started with and those
that were added, the next one goes to the place that the search finds, its token fits, and its
length is the one that is counted, without a difference below zero. -/
theorem edited_options_sorted (hstart : start = blank ∨ ∃ data, ofBytes? data = .ok start)
    (edits : List Edit) :
    let message := edits.foldl edit start
    let added := edits.filterMap Edit.option?
    message.options = sortOptions (start.options ++ added) ∧
      (∀ number, message.valuesOf number =
        start.valuesOf number ++ (added.filter (·.number == number)).map (·.value)) ∧
      (∀ number value, (message.addOption number value).options =
        message.options.insertIdx (insertionPlace number message.options) ⟨number, value⟩) ∧
      message.token.length ≤ maxTokenLength ∧
      message.headerLength + message.payload.length = message.toBytes.length ∧
      ∀ limit, message.toBytes.length ≤ limit →
        Checked.headerLength limit message = .ok message.headerLength ∧
          Checked.encode limit message = .ok message.toBytes := by
  intro message added
  have hsorts : message.Sorts (start.options ++ added) := (sorts_of_start hstart).foldl edits
  have hlength := length_toBytes message
  have hascending := ascending_zero.2 hsorts.sorted
  refine ⟨hsorts.options, fun number => ?_, fun number value => ?_, hsorts.token, hlength.symm,
    fun limit hlimit => ⟨?_, ?_⟩⟩
  · rw [valuesOf, hsorts.options, filter_sortOptions, List.filter_append, List.map_append, valuesOf]
  · exact insertOption_eq_insertIdx ⟨number, value⟩ hsorts.sorted
  · exact Checked.headerLength_eq_ok hascending (by omega)
  · exact Checked.encode_eq_ok hascending (by omega)

/-- A request with the path "usage" gets two options more, of which one goes between those that are
there, and a token of nine bytes, which is refused. -/
theorem edited_options_usage :
    let usage : List UInt8 := [0x44, 0x01, 0x12, 0x34, 0x21, 0xFA, 0x01, 0xFB, 0xB5, 0x75, 0x73,
      0x61, 0x67, 0x65, 0xFF, 0x68, 0x69]
    let start : CoapMessage := ⟨1, 0, 0x01, 0x1234, [0x21, 0xFA, 0x01, 0xFB],
      [⟨11, [0x75, 0x73, 0x61, 0x67, 0x65]⟩], [0x68, 0x69]⟩
    let edits : List Edit := [.option ⟨258, [0x1A]⟩, .token (List.replicate 9 0),
      .option ⟨11, [0x62]⟩, .payload [], .version 6]
    let message := edits.foldl edit start
    ofBytes? usage = .ok start ∧
      message.options = [⟨11, [0x75, 0x73, 0x61, 0x67, 0x65]⟩, ⟨11, [0x62]⟩, ⟨258, [0x1A]⟩] ∧
      message.options = sortOptions (start.options ++ [⟨258, [0x1A]⟩, ⟨11, [0x62]⟩]) ∧
      message.token = [0x21, 0xFA, 0x01, 0xFB] ∧
      Checked.encode 64 message = .ok message.toBytes := by
  intro usage start edits message
  have hread : ofBytes? usage = .ok start :=
    ofBytes?_eq_ok_iff.2 ⟨⟨rfl, by decide, by decide, by decide⟩, by decide⟩
  obtain ⟨hoptions, -, -, -, -, hencode⟩ := edited_options_sorted (.inr ⟨usage, hread⟩) edits
  exact ⟨hread, by decide, hoptions, by decide, (hencode 64 (by decide)).2⟩

/-- An edited message of version 1 is found again in its encoding exactly if each of its values has
a length of 16 bits. The two bytes for a length can hold some more, up to 65804, and the encoder
writes these too, but the reader refuses them. -/
theorem edited_read_back (edits : List Edit) {message : CoapMessage}
    (hmessage : message = edits.foldl edit blank) (hversion : message.version = 1)
    (hvalues : ∀ option ∈ message.options, option.value.length ≤ maxNumber) :
    ofBytes? message.toBytes =
      if ∀ option ∈ message.options, option.value.length ≤ 65535 then .ok message
      else .error (.packet (.coap .largeOptionField)) := by
  have hsorts : message.Sorts ([] ++ edits.filterMap Edit.option?) :=
    hmessage ▸ sorts_blank.foldl edits
  rw [ofBytes?, parse_toBytes hversion hsorts.token hsorts.sorted hvalues]
  simp only [Nat.lt_succ_iff]
  split <;> rfl

/-- Two values of which one has the greatest length that is read. -/
theorem longest_value_read_back :
    let edits : List Edit := [.option ⟨11, List.replicate 65535 0x61⟩, .code 2,
      .option ⟨1, List.replicate 300 0x62⟩]
    let message := edits.foldl edit blank
    message.version = 1 ∧ (∀ option ∈ message.options, option.value.length ≤ maxNumber) ∧
      ofBytes? message.toBytes = .ok message := by
  intro edits message
  have hoptions : message.options =
      [⟨1, List.replicate 300 0x62⟩, ⟨11, List.replicate 65535 0x61⟩] := rfl
  have hlengths : ∀ option ∈ message.options, option.value.length ≤ 65535 := by
    simp only [hoptions, List.forall_mem_cons, List.length_replicate]
    decide
  have hvalues : ∀ option ∈ message.options, option.value.length ≤ maxNumber :=
    fun option hoption => (hlengths option hoption).trans (by decide)
  exact ⟨rfl, hvalues, (edited_read_back edits rfl rfl hvalues).trans (if_pos hlengths)⟩

/-- A value that is one byte longer is encoded, but not read. -/
theorem longer_value_not_read_back :
    let message := [Edit.option ⟨1, List.replicate 65536 0x61⟩].foldl edit blank
    message.version = 1 ∧ (∀ option ∈ message.options, option.value.length ≤ 269 + 65535) ∧
      ofBytes? message.toBytes = .error (.packet (.coap .largeOptionField)) ∧
      ofBytes? message.toBytes ≠ .ok message := by
  intro message
  have hlength : (List.replicate 65536 (0x61 : UInt8)).length = 65536 := List.length_replicate
  have hvalues : ∀ option ∈ message.options, option.value.length ≤ maxNumber :=
    List.forall_mem_singleton.2 (hlength.trans_le (by decide))
  have hlong : ¬ ∀ option ∈ message.options, option.value.length < 65536 := fun hall =>
    absurd hlength (hall _ List.mem_cons_self).ne
  have hread : ofBytes? message.toBytes = .error (.packet (.coap .largeOptionField)) := by
    rw [ofBytes?, parse_toBytes rfl (Nat.zero_le _) (List.pairwise_singleton ..) hvalues,
      if_neg hlong]
    rfl
  refine ⟨rfl, hvalues, hread, fun hok => ?_⟩
  rw [hread] at hok
  cases hok

end HeaderCompression.CoapMessage
