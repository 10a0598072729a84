import HeaderCompression.Proofs.Bits.Packing
import HeaderCompression.Proofs.Rule.Accepted
import Mathlib.Data.List.Find
import Mathlib.Data.List.TakeDrop

namespace HeaderCompression

variable {device other : Device} {code a b : RuleCode} {bits : List Bool} {data : List UInt8}

namespace RuleCode

@[simp] theorem length_bits (code : RuleCode) : code.bits.length = code.length := by
  simp [bits]

theorem natOfBits_bits (code : RuleCode) : natOfBits code.bits = code.value := by
  simp [bits, value, Nat.one_shiftLeft]

theorem bits_prefix_iff (h : code.length ≤ bits.length) :
    code.bits <+: bits ↔ natOfBits (bits.take code.length) = code.value := by
  rw [List.prefix_iff_eq_take, length_bits, ← natOfBits_bits]
  constructor
  · intro hbits
    rw [← hbits]
  · intro hnat
    exact (natOfBits_injective (by simp [h]) hnat).symm

theorem overlaps_iff : a.overlaps b ↔ a.bits <+: b.bits ∨ b.bits <+: a.bits := by
  have hone {short long : RuleCode} (h : short.length ≤ long.length) :
      long.value / 2 ^ (long.length - short.length) = short.value ↔
        short.bits <+: long.bits ∨ long.bits <+: short.bits := by
    rw [← natOfBits_bits long, ← length_bits long, ← natOfBits_take,
      ← bits_prefix_iff (by simpa using h)]
    refine ⟨.inl, fun hor => hor.elim (fun hlead => hlead) fun hlead => ?_⟩
    -- A code that is a prefix of a shorter one is equal to it.
    exact hlead.eq_of_length_le (by simpa using h) ▸ List.prefix_rfl
  rw [overlaps]
  simp only [Nat.shiftRight_eq_div_pow]
  by_cases h : a.length ≤ b.length
  · simpa [h] using hone h
  · rw [or_comm]
    simpa [h] using hone (Nat.le_of_not_le h)

theorem leads_iff : code.leads bits ↔ code.length ≤ 64 ∧ code.bits <+: bits := by
  simp only [leads, Bool.and_eq_true, decide_eq_true_eq, beq_iff_eq, and_assoc]
  refine and_congr_right fun _ => ⟨fun ⟨hlen, hvalue⟩ => (bits_prefix_iff hlen).2 hvalue, ?_⟩
  intro hlead
  have hlen : code.length ≤ bits.length := by simpa using hlead.length_le
  exact ⟨hlen, (bits_prefix_iff hlen).1 hlead⟩

theorem bits_prefix_bytes_append (code : RuleCode) (rest : List UInt8) :
    code.bits <+: bitsOfBytes (code.bytes ++ rest) := by
  rw [bitsOfBytes_append, bytes, bitsOfBytes_bytesOfBits, List.append_assoc]
  exact List.prefix_append ..

end RuleCode

namespace Device

def entries (device : Device) : List (RuleCode × CodeMatch) :=
  device.composites.map (fun rule => (rule.code, .composite rule)) ++
    [(device.uncompressed, .uncompressed)]

/-- No code is a prefix of another one, or equal to it. -/
def PrefixFree (device : Device) : Prop :=
  ∀ i j : Fin device.entries.length, i ≠ j → ¬ device.entries[i].1.bits <+: device.entries[j].1.bits

theorem codes_eq (device : Device) : device.codes = device.entries.map (·.1) := by
  simp [codes, entries]

theorem overlapFindings_eq_nil_iff (codes : List RuleCode) :
    device.overlapFindings codes = [] ↔ codes.Pairwise fun a b => ¬ a.overlaps b := by
  induction codes with
  | nil => simp [overlapFindings]
  | cons code codes ih => simp [overlapFindings, ih]

theorem prefixFree_iff : device.PrefixFree ↔ device.overlapFindings device.codes = [] := by
  rw [overlapFindings_eq_nil_iff, codes_eq, List.pairwise_map, List.pairwise_iff_getElem]
  simp only [RuleCode.overlaps_iff, not_or]
  constructor
  · intro h i j hi hj hlt
    exact ⟨h ⟨i, hi⟩ ⟨j, hj⟩ (by simp; omega), h ⟨j, hj⟩ ⟨i, hi⟩ (by simp; omega)⟩
  · intro h i j hij
    rcases Nat.lt_or_gt_of_ne (Fin.val_ne_of_ne hij) with hlt | hlt
    · exact (h i j i.2 j.2 hlt).1
    · exact (h j i j.2 i.2 hlt).2

theorem sharedPrefix_not_mem_layerFindings {id : Nat} (layer : Layer) :
    .fault (.device (.sharedPrefix id a b)) ∉ device.layerFindings layer := by
  have hrule (rule : Rule) : .fault (.device (.sharedPrefix id a b)) ∉ rule.findings layer := by
    rw [Rule.findings]
    split <;> simp
  rw [layerFindings]
  split <;> simp [hrule]

theorem sharedPrefix_not_mem_compositeFindings {id : Nat} (composite : CompositeRule) :
    .fault (.device (.sharedPrefix id a b)) ∉ device.compositeFindings composite := by
  rw [compositeFindings, warningIfTruncated]
  simp only [List.mem_append, Finding.mem_faultIf, List.mem_filterMap, not_or]
  refine ⟨⟨by simp, by split <;> simp⟩, ?_⟩
  rintro ⟨layer, -, hsome⟩
  split at hsome
  · cases hsome
  · split at hsome
    · cases hsome
    · rename_i error herror
      cases eq_of_rule_eq_error herror
      cases hsome

/-- The only findings on shared prefixes are those of the check of all pairs of codes. -/
theorem sharedPrefix_mem_findings (hmode : device.mode = .composite) :
    .fault (.device (.sharedPrefix device.id a b)) ∈ device.findings ↔
      .fault (.device (.sharedPrefix device.id a b)) ∈ device.overlapFindings device.codes := by
  simp [findings, hmode, sharedPrefix_not_mem_layerFindings, sharedPrefix_not_mem_compositeFindings,
    warningIfTruncated]

theorem exists_of_mem_overlapFindings {codes : List RuleCode} {finding : Finding}
    (h : finding ∈ device.overlapFindings codes) :
    ∃ a b, finding = .fault (.device (.sharedPrefix device.id a b)) := by
  induction codes with
  | nil => simp [overlapFindings] at h
  | cons code codes ih =>
    rw [overlapFindings, List.mem_append, List.mem_map] at h
    rcases h with ⟨other, -, rfl⟩ | h
    · exact ⟨code, other, rfl⟩
    · exact ih h

theorem exists_sharedPrefix_iff (hmode : device.mode = .composite) :
    (∃ a b, .fault (.device (.sharedPrefix device.id a b)) ∈ device.findings) ↔
      ¬ device.PrefixFree := by
  simp only [sharedPrefix_mem_findings hmode, prefixFree_iff]
  rw [List.eq_nil_iff_forall_not_mem, not_forall_not]
  constructor
  · rintro ⟨a, b, h⟩
    exact ⟨_, h⟩
  · rintro ⟨finding, h⟩
    obtain ⟨a, b, rfl⟩ := exists_of_mem_overlapFindings h
    exact ⟨a, b, h⟩

theorem Accepted.prefixFree (h : device.Accepted) (hmode : device.mode = .composite) :
    device.PrefixFree := by
  by_contra hnot
  obtain ⟨a, b, hmem⟩ := (exists_sharedPrefix_iff hmode).2 hnot
  exact h.fault_not_mem _ hmem

theorem codeMatches_perm (device : Device) : device.codeMatches.Perm device.entries := by
  rw [codeMatches, entries]
  simp only [List.span_eq_takeWhile_dropWhile]
  refine List.perm_middle.trans (.trans ?_ (List.perm_append_singleton ..).symm)
  rw [← List.map_append, List.takeWhile_append_dropWhile]
  exact .cons _ ((List.mergeSort_perm ..).map _)

theorem PrefixFree.index_eq (h : device.PrefixFree) {i j : Fin device.entries.length}
    (hi : device.entries[i].1.bits <+: bits) (hj : device.entries[j].1.bits <+: bits) :
    i = j := by
  by_contra hij
  rcases List.prefix_or_prefix_of_prefix hi hj with hlead | hlead
  · exact h i j hij hlead
  · exact h j i (Ne.symm hij) hlead

theorem PrefixFree.entry_eq (h : device.PrefixFree) {entry found : RuleCode × CodeMatch}
    (hentry : entry ∈ device.entries) (hfound : found ∈ device.entries)
    (hp : entry.1.bits <+: bits) (hq : found.1.bits <+: bits) : entry = found := by
  obtain ⟨i, hi, rfl⟩ := List.getElem_of_mem hentry
  obtain ⟨j, hj, rfl⟩ := List.getElem_of_mem hfound
  obtain rfl : i = j := congrArg Fin.val (h.index_eq (i := ⟨i, hi⟩) (j := ⟨j, hj⟩) hp hq)
  rfl

/-- Codes of at most 32 bits are found within the first eight bytes. -/
theorem leads_take_iff (hlen : code.length ≤ 32) :
    code.leads (bitsOfBytes (data.take 8)) ↔ code.bits <+: bitsOfBytes data := by
  rw [RuleCode.leads_iff, bitsOfBytes_take, List.prefix_take_iff, RuleCode.length_bits]
  exact ⟨fun h => h.2.1, fun h => ⟨by omega, h, by omega⟩⟩

theorem Accepted.leads_iff (h : device.Accepted) (hmode : device.mode = .composite)
    {entry : RuleCode × CodeMatch} (hentry : entry ∈ device.entries) :
    entry.1.leads (bitsOfBytes (data.take 8)) ↔ entry.1.bits <+: bitsOfBytes data := by
  have hcode : entry.1 ∈ device.codes := codes_eq device ▸ List.mem_map_of_mem hentry
  have hlength := h.isCodeLength hmode hcode
  simp only [Device.isCodeLength, Bool.and_eq_true, decide_eq_true_eq] at hlength
  exact leads_take_iff hlength.2

theorem Accepted.matchCode_eq_ok (h : device.Accepted) (hmode : device.mode = .composite)
    {entry : RuleCode × CodeMatch} (hentry : entry ∈ device.entries) (hdata : data ≠ [])
    (hlead : entry.1.bits <+: bitsOfBytes data) : device.matchCode data = .ok entry.2 := by
  have hperm := device.codeMatches_perm
  have hleads := (h.leads_iff hmode hentry).2 hlead
  have hsome : (device.codeMatches.find? fun entry =>
      entry.1.leads (bitsOfBytes (data.take 8))).isSome :=
    List.find?_isSome.2 ⟨entry, hperm.mem_iff.2 hentry, hleads⟩
  obtain ⟨found, hfound⟩ := Option.isSome_iff_exists.1 hsome
  have hmem := hperm.mem_iff.1 (List.mem_of_find?_eq_some hfound)
  have hfits : found.1.leads (bitsOfBytes (data.take 8)) := by
    simpa using List.find?_some hfound
  have hsame := (h.prefixFree hmode).entry_eq hentry hmem hlead ((h.leads_iff hmode hmem).1 hfits)
  rw [matchCode]
  rw [if_neg (by simpa using hdata)]
  dsimp only
  rw [hfound, hsame]

theorem Accepted.matchCode_bytes_append (h : device.Accepted) (hmode : device.mode = .composite)
    {entry : RuleCode × CodeMatch} (hentry : entry ∈ device.entries) (rest : List UInt8) :
    device.matchCode (entry.1.bytes ++ rest) = .ok entry.2 := by
  refine h.matchCode_eq_ok hmode hentry ?_ (entry.1.bits_prefix_bytes_append rest)
  have hlength := h.isCodeLength hmode (codes_eq device ▸ List.mem_map_of_mem hentry)
  intro hnil
  have hbytes := congrArg List.length (List.append_eq_nil_iff.1 hnil).1
  simp only [RuleCode.bytes, length_bytesOfBits, RuleCode.length_bits, bytesFor,
    List.length_nil] at hbytes
  simp only [Device.isCodeLength, Bool.and_eq_true, decide_eq_true_eq] at hlength
  omega

theorem Accepted.matchCode_eq_unknownCode (h : device.Accepted) (hmode : device.mode = .composite)
    (hdata : data ≠ []) (hnone : ∀ entry ∈ device.entries, ¬ entry.1.bits <+: bitsOfBytes data) :
    device.matchCode data = .error .unknownCode := by
  have hfind : device.codeMatches.find? (fun entry => entry.1.leads (bitsOfBytes (data.take 8))) =
      none := by
    rw [List.find?_eq_none]
    intro entry hentry hleads
    have hmem := device.codeMatches_perm.mem_iff.1 hentry
    exact hnone entry hmem ((h.leads_iff hmode hmem).1 hleads)
  rw [matchCode]
  rw [if_neg (by simpa using hdata)]
  dsimp only
  rw [hfind]

theorem Accepted.matchCode_perm (h : device.Accepted) (hmode : device.mode = .composite)
    {composites : List CompositeRule} (hperm : composites.Perm device.composites)
    (data : List UInt8) : { device with composites }.matchCode data = device.matchCode data := by
  have hentries : { device with composites }.codeMatches.Perm device.codeMatches :=
    (codeMatches_perm _).trans
      (.trans ((hperm.map _).append_right _) (codeMatches_perm device).symm)
  have hfind := List.find?_eq_find?_of_perm (p := fun entry : RuleCode × CodeMatch =>
    entry.1.leads (bitsOfBytes (data.take 8))) hentries.symm ?_
  · unfold matchCode
    split
    · rfl
    · dsimp only
      rw [hfind]
  · rintro entry ⟨hentry, hp⟩ found ⟨hfound, hq⟩
    have hentry' := device.codeMatches_perm.mem_iff.1 hentry
    have hfound' := device.codeMatches_perm.mem_iff.1 hfound
    exact (h.prefixFree hmode).entry_eq hentry' hfound' ((h.leads_iff hmode hentry').1 hp)
      ((h.leads_iff hmode hfound').1 hq)

/-- The rule ids of a composite device are uniquely decodable. A device whose codes are prefixes of
each other is refused for it; in an accepted device, the code at the front of some data is the only
one there, whatever the order of the rules and whatever follows the code. -/
theorem ruleIds_uniquely_decodable (device : Device) (hmode : device.mode = .composite) :
    ((∀ code ∈ device.codes, Device.isCodeLength code.length) →
      ((∃ a b, .fault (.device (.sharedPrefix device.id a b)) ∈ device.findings) ↔
        ∃ i j : Fin device.entries.length, i ≠ j ∧
          device.entries[i].1.bits <+: device.entries[j].1.bits)) ∧
    (device.Accepted →
      (∀ data, data ≠ [] →
        (∀ i j : Fin device.entries.length, device.entries[i].1.bits <+: bitsOfBytes data →
          device.entries[j].1.bits <+: bitsOfBytes data → i = j) ∧
        (∀ entry ∈ device.entries, entry.1.bits <+: bitsOfBytes data →
          device.matchCode data = .ok entry.2) ∧
        (device.matchCode data = .error .unknownCode ↔
          ∀ entry ∈ device.entries, ¬ entry.1.bits <+: bitsOfBytes data) ∧
        (∀ composites : List CompositeRule, composites.Perm device.composites →
          { device with composites }.matchCode data = device.matchCode data)) ∧
      ∀ entry ∈ device.entries, ∀ rest,
        device.matchCode (entry.1.bytes ++ rest) = .ok entry.2) := by
  refine ⟨fun _ => ?_, fun h => ⟨fun data hdata => ⟨fun i j => ?_, fun entry hentry => ?_, ?_,
    fun composites hperm => h.matchCode_perm hmode hperm data⟩,
    fun _ hentry rest => h.matchCode_bytes_append hmode hentry rest⟩⟩
  · rw [exists_sharedPrefix_iff hmode, PrefixFree]
    push Not
    rfl
  · exact (h.prefixFree hmode).index_eq
  · exact h.matchCode_eq_ok hmode hentry hdata
  · refine ⟨fun herror entry hentry hlead => ?_, h.matchCode_eq_unknownCode hmode hdata⟩
    rw [h.matchCode_eq_ok hmode hentry hdata hlead] at herror
    cases herror

def shortCodesText : String :=
  "[[[1,\"composite\",0,8,null,[],[],[],[[1,2],[13,3],[513,10]]]]]"

/-- A device of the codes 01, 101, 1000000001 and 00000000. -/
def shortCodes : Device :=
  ⟨1, .composite, ⟨0, 8⟩, none, [], [], [], [⟨⟨1, 2⟩, none, ⟨none, none, none⟩⟩,
    ⟨⟨13, 3⟩, none, ⟨none, none, none⟩⟩, ⟨⟨513, 10⟩, none, ⟨none, none, none⟩⟩]⟩

theorem shortCodes_accepted : shortCodes.Accepted := by
  have htext : shortCodesText = String.ofList _ := rfl
  have hcheck : RuleSet.check ⟨[shortCodes]⟩ = .ok () := by decide +kernel
  exact accepted_of_chars htext hcheck (by decide +kernel) List.mem_cons_self

theorem shortCodes_uniquely_decodable :
    shortCodes.mode = .composite ∧ shortCodes.Accepted ∧
      (∀ code ∈ shortCodes.codes, isCodeLength code.length) ∧
      ∀ rest, shortCodes.matchCode (0x80 :: 0x40 :: rest) =
        .ok (.composite ⟨⟨513, 10⟩, none, ⟨none, none, none⟩⟩) := by
  refine ⟨rfl, shortCodes_accepted, by decide, fun rest => ?_⟩
  have h := ruleIds_uniquely_decodable shortCodes rfl
  exact (h.2 shortCodes_accepted).2
    (⟨513, 10⟩, .composite ⟨⟨513, 10⟩, none, ⟨none, none, none⟩⟩) (by decide) rest

end Device

end HeaderCompression
