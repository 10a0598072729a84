import HeaderCompression.Proofs.Bits.Range
import HeaderCompression.Proofs.Header.Columns
import HeaderCompression.Proofs.Packet.Completion
import Mathlib.Data.List.Pairwise

namespace HeaderCompression

def Layout.header (layout : List Slot) (length : Nat) (columns : List Column) :
    Except Error (List UInt8) :=
  layout.foldlM (Layout.place columns) (List.replicate length 0)

variable {layout slots : List Slot} {slot : Slot} {header result : List UInt8}
  {columns : List Column} {column : Column} {bits full : List Bool} {position width length : Nat}

theorem getD_merge (hlen : bits.length = full.length) (h : position + width ≤ full.length)
    (i : Nat) :
    (bits.take position ++
      List.zipWith or ((bits.drop position).take width) ((full.drop position).take width) ++
      bits.drop (position + width)).getD i false =
      (bits.getD i false ||
        (decide (position ≤ i ∧ i < position + width) && full.getD i false)) := by
  obtain ⟨merged, hmerged⟩ : ∃ merged, List.zipWith or ((bits.drop position).take width)
    ((full.drop position).take width) = merged := ⟨_, rfl⟩
  have hwidth : merged.length = width := by simp [← hmerged]; omega
  rw [hmerged, ← hwidth, Bits.getD_splice (by omega), hwidth]
  by_cases hin : position ≤ i ∧ i < position + width
  · obtain ⟨k, rfl⟩ := Nat.exists_eq_add_of_le hin.1
    have hk : k < width := by omega
    have hbit : position + k < bits.length := by omega
    rw [if_pos hin, decide_eq_true hin, Nat.add_sub_cancel_left, ← hmerged]
    simp only [List.getD_eq_getElem?_getD, List.getElem?_zipWith, List.getElem?_take_of_lt hk,
      List.getElem?_drop, List.getElem?_eq_getElem hbit, List.getElem?_eq_getElem (hlen ▸ hbit)]
    rfl
  · rw [if_neg hin, decide_eq_false hin, Bool.false_and, Bool.or_false]

def Slot.covers (slot : Slot) (i : Nat) : Bool :=
  slot.position ≤ i ∧ i < slot.position + slot.width

def Slot.Apart (slot other : Slot) : Prop :=
  slot.position + slot.width ≤ other.position ∨ other.position + other.width ≤ slot.position

namespace Layout

/-- The slots lie inside a header of so many bits, are for different fields, and take every bit. -/
structure Tiles (layout : List Slot) (bits : Nat) : Prop where
  within : Within layout bits
  distinct : (layout.map (·.field)).Nodup
  covers : ∀ i < bits, layout.any (·.covers i)

theorem ipv6_tiles (direction : Direction) : Tiles (ipv6 direction) 320 :=
  ⟨ipv6_within direction, by cases direction <;> decide, by cases direction <;> decide +kernel⟩

theorem udp_tiles (direction : Direction) : Tiles (udp direction) 64 :=
  ⟨udp_within direction, by cases direction <;> decide, by cases direction <;> decide +kernel⟩

theorem writeInto_cut (hheader : (bitsOfBytes header).length = full.length)
    (h : slot.position + slot.width ≤ full.length) :
    ∃ result, (cut full slot).writeInto header slot.position = .ok result ∧
      (bitsOfBytes result).length = full.length ∧
      ∀ i, (bitsOfBytes result).getD i false =
        ((bitsOfBytes header).getD i false || (slot.covers i && full.getD i false)) := by
  have hbits : bitsOfBytes header = (bitsOfBytes header).take slot.position ++
      ((bitsOfBytes header).drop slot.position).take slot.width ++
      (bitsOfBytes header).drop (slot.position + slot.width) := by
    rw [List.append_assoc, ← List.drop_drop, List.take_append_drop, List.take_append_drop]
  have hlow : ((full.drop slot.position).take slot.width).length = slot.width := by
    simp
    omega
  have hsource : bitsOfBytes (cut full slot).value = List.replicate (padding slot.width) false ++
      (full.drop slot.position).take slot.width ++ [] := by
    rw [cut, bitsOfBytes_alignRight, hlow, List.append_nil]
  have hstart : 8 * (cut full slot).value.length - (cut full slot).bits =
      (List.replicate (padding slot.width) false).length := by
    have := add_padding slot.width
    simp only [cut, length_alignRight, hlow, List.length_replicate]
    omega
  have hfront : ((bitsOfBytes header).take slot.position).length = slot.position := by
    rw [List.length_take, hheader]
    omega
  have hmid : (((bitsOfBytes header).drop slot.position).take slot.width).length = slot.width := by
    rw [List.length_take, List.length_drop, hheader]
    omega
  have hmerge := Bits.merge_append hbits hsource hfront.symm hstart hmid.symm (hlow.trans hmid.symm)
  have hlen : ((bitsOfBytes header).take slot.position ++
      List.zipWith or (((bitsOfBytes header).drop slot.position).take slot.width)
        ((full.drop slot.position).take slot.width) ++
      (bitsOfBytes header).drop (slot.position + slot.width)).length = full.length := by
    rw [List.length_append, List.length_append, hfront, List.length_zipWith, hmid, hlow,
      List.length_drop, hheader]
    omega
  have hbytes := bitsOfBytes_bytesOfBits_of_dvd
    (hlen.trans (hheader.symm.trans (length_bitsOfBytes header)) ▸ Nat.dvd_mul_right ..)
  refine ⟨_, hmerge, by rw [hbytes, hlen], fun i => ?_⟩
  rw [hbytes, getD_merge hheader h]
  rfl

theorem find?_columns (hdistinct : (layout.map (·.field)).Nodup) (hslot : slot ∈ layout) :
    Column.find? (layout.map (cut full)) slot.field = some (cut full slot) := by
  have hkeys : ((layout.map (cut full)).map (·.field)).Nodup := by
    rw [List.map_map]
    exact hdistinct
  exact find?_eq_of_nodup hkeys (List.mem_map_of_mem hslot)

theorem foldlM_place (h : Tiles layout full.length) (hslots : ∀ slot ∈ slots, slot ∈ layout)
    (hheader : (bitsOfBytes header).length = full.length) :
    ∃ result, slots.foldlM (place (layout.map (cut full))) header = .ok result ∧
      (bitsOfBytes result).length = full.length ∧
      ∀ i, (bitsOfBytes result).getD i false =
        ((bitsOfBytes header).getD i false || (slots.any (·.covers i) && full.getD i false)) := by
  induction slots generalizing header with
  | nil => exact ⟨header, rfl, hheader, by simp⟩
  | cons slot slots ih =>
    have hslot := hslots slot List.mem_cons_self
    obtain ⟨next, hnext, hlen, hbits⟩ := writeInto_cut hheader (h.within slot hslot).1
    obtain ⟨result, hresult, hlen', hbits'⟩ := ih (fun s hs => hslots s (List.mem_cons_of_mem _ hs))
      hlen
    refine ⟨result, ?_, hlen', fun i => ?_⟩
    · rw [List.foldlM_cons, place, find?_columns h.distinct hslot]
      exact bind_eq_ok_iff.2 ⟨next, hnext, hresult⟩
    · rw [hbits', hbits, List.any_cons, Bool.and_or_distrib_right, Bool.or_assoc]

theorem length_of_header_eq_ok (h : Layout.header layout length columns = .ok result) :
    result.length = length := by
  rw [Layout.header] at h
  generalize hstart : List.replicate length (0 : UInt8) = start at h
  have hlen : start.length = length := by simp [← hstart]
  clear hstart
  induction layout generalizing start with
  | nil =>
    cases h
    exact hlen
  | cons slot layout ih =>
    rw [List.foldlM_cons] at h
    obtain ⟨next, hnext, h⟩ := bind_eq_ok_iff.1 h
    apply ih next h
    rw [place] at hnext
    split at hnext
    · cases hnext
    · exact (Bits.length_of_merge hnext).trans hlen

theorem header_columns (h : Tiles layout (8 * header.length)) (hlength : header.length = length) :
    Layout.header layout length (Layout.columns layout header) = .ok header := by
  subst hlength
  rw [← length_bitsOfBytes] at h
  have hzeros : (bitsOfBytes (List.replicate header.length 0)).length =
      (bitsOfBytes header).length := by simp
  obtain ⟨result, hresult, hlen, hbits⟩ := foldlM_place h (fun _ hs => hs) hzeros
  have hsame : result = header := by
    apply bitsOfBytes_injective
    apply List.ext_getElem hlen
    intro i hi hi'
    have hbit := hbits i
    rw [h.covers i hi', List.getD_eq_getElem _ _ hi, List.getD_eq_getElem _ _ hi'] at hbit
    simpa using hbit
  rw [hsame] at hresult
  exact hresult

/-- Each field is put back where it was taken from. -/
theorem ofColumns_ipv6 (direction : Direction) (columns : List Column) :
    Ipv6Header.ofColumns direction columns =
      Layout.header (ipv6 direction) ipv6HeaderLength columns := by
  cases direction <;>
    simp only [Ipv6Header.ofColumns, Layout.header, ipv6, List.foldlM_cons, List.foldlM_nil,
      bind_pure]

theorem ofColumns_udp (direction : Direction) (columns : List Column) :
    UdpHeader.ofColumns direction columns =
      Layout.header (udp direction) udpHeaderLength columns := by
  cases direction <;>
    simp only [UdpHeader.ofColumns, Layout.header, udp, List.foldlM_cons, List.foldlM_nil,
      bind_pure]

def bitAt (layout : List Slot) (columns : List Column) (i : Nat) : Bool :=
  (layout.zip columns).any fun (slot, column) =>
    slot.covers i && column.valueBits.getD (i - slot.position) false

theorem ipv6_apart (direction : Direction) : (ipv6 direction).Pairwise Slot.Apart := by
  unfold Slot.Apart
  cases direction <;> decide

theorem udp_apart (direction : Direction) : (udp direction).Pairwise Slot.Apart := by
  unfold Slot.Apart
  cases direction <;> decide

/-- Where slots are apart, the bits of a slot are those of its own column. -/
theorem bitAt_eq (hapart : layout.Pairwise Slot.Apart) (hlen : layout.length = columns.length)
    (hpair : (slot, column) ∈ layout.zip columns) {k : Nat} (hk : k < slot.width) :
    bitAt layout columns (slot.position + k) = column.valueBits.getD k false := by
  have hpairs : (layout.zip columns).Pairwise fun p q => p.1.Apart q.1 := by
    rw [← List.pairwise_map (f := Prod.fst), List.map_fst_zip hlen.le]
    exact hapart
  have hcovers : slot.covers (slot.position + k) := by
    simp only [Slot.covers, decide_eq_true_eq]
    omega
  rw [bitAt, Bool.eq_iff_iff, List.any_eq_true]
  constructor
  · rintro ⟨⟨other, column'⟩, hother, hbit⟩
    dsimp only at hbit
    rw [Bool.and_eq_true] at hbit
    have hsame : (other, column') = (slot, column) := by
      by_contra hne
      have : Std.Symm fun p q : Slot × Column => p.1.Apart q.1 := ⟨fun _ _ => Or.symm⟩
      have happart : other.Apart slot := hpairs.forall hother hpair hne
      have hboth := hbit.1
      simp only [Slot.covers, decide_eq_true_eq] at hboth
      unfold Slot.Apart at happart
      omega
    cases hsame
    simpa using hbit.2
  · intro hbit
    refine ⟨(slot, column), hpair, ?_⟩
    dsimp only
    rw [hcovers, Nat.add_sub_cancel_left, hbit]
    rfl

theorem exists_columns_eq (hwithin : Within layout (8 * length))
    (hapart : layout.Pairwise Slot.Apart)
    (hfields : columns.map (·.field) = layout.map (·.field))
    (hproper : ∀ column ∈ columns, column.Proper)
    (hwidth : ∀ slot ∈ layout, slot.field.width?.isSome) :
    ∃ header : List UInt8, header.length = length ∧ Layout.columns layout header = columns := by
  have hlen : layout.length = columns.length := by
    simpa using (congrArg List.length hfields).symm
  obtain ⟨full, hfull⟩ : ∃ full, full = (List.range (8 * length)).map (bitAt layout columns) :=
    ⟨_, rfl⟩
  have hfullLength : full.length = 8 * length := by simp [hfull]
  have hbits : bitsOfBytes (bytesOfBits full) = full :=
    bitsOfBytes_bytesOfBits_of_dvd (hfullLength ▸ Nat.dvd_mul_right ..)
  refine ⟨bytesOfBits full, by rw [length_bytesOfBits, hfullLength, bytesFor]; omega, ?_⟩
  rw [Layout.columns, hbits]
  have hslots : List.Forall₂ (fun slot column => column.field = slot.field) layout columns := by
    rw [← List.forall₂_eq_eq_eq, List.forall₂_map_left_iff, List.forall₂_map_right_iff] at hfields
    exact hfields.flip
  have hcuts : List.Forall₂ (fun slot column => cut full slot = column) layout columns := by
    refine List.forall₂_iff_zip.2 ⟨hlen, fun {slot column} hpair => ?_⟩
    obtain ⟨hslot, hcolumn⟩ := List.of_mem_zip hpair
    have hfield := List.forall₂_zip hslots hpair
    obtain ⟨width, hsome⟩ := Option.isSome_iff_exists.1 (hwidth slot hslot)
    have hslotWidth : slot.width = width := by rw [Slot.width, hsome, Option.getD_some]
    have hbitsWidth : column.bits = width :=
      (hproper column hcolumn).width width (by rw [hfield, hsome]; rfl)
    obtain ⟨hvalueLength, hvalue⟩ := Column.exists_valueBits (hproper column hcolumn).value
    have hinside := (hwithin slot hslot).1
    have hcut : (full.drop slot.position).take slot.width = column.valueBits := by
      apply List.ext_getElem
      · simp
        omega
      · intro k hk hk'
        have hbit := bitAt_eq hapart hlen hpair (show k < slot.width by omega)
        rw [List.getD_eq_getElem _ _ hk'] at hbit
        simpa [hfull] using hbit
    rw [cut, hcut, hvalue, ← hfield, hslotWidth, ← hbitsWidth]
  rwa [← List.forall₂_map_left_iff, List.forall₂_eq_eq_eq] at hcuts

theorem exists_header (htiles : Tiles layout (8 * length)) (hapart : layout.Pairwise Slot.Apart)
    (hfields : columns.map (·.field) = layout.map (·.field))
    (hproper : ∀ column ∈ columns, column.Proper)
    (hwidth : ∀ slot ∈ layout, slot.field.width?.isSome) :
    ∃ header, header.length = length ∧ Layout.header layout length columns = .ok header ∧
      Layout.columns layout header = columns := by
  obtain ⟨header, rfl, hcolumns⟩ :=
    exists_columns_eq htiles.within hapart hfields hproper hwidth
  exact ⟨header, rfl, hcolumns ▸ header_columns htiles rfl, hcolumns⟩

theorem bitsOfBytes_blankIf (position : Nat) (header : List UInt8) :
    bitsOfBytes (Packet.blankIf true position header) =
      (bitsOfBytes header).take (8 * position) ++ List.replicate 16 false ++
        (bitsOfBytes header).drop (8 * position + 16) := by
  have hzero : bitsOfBytes [0, 0] = List.replicate 16 false := rfl
  simp only [Packet.blankIf, if_true, bitsOfBytes_append, bitsOfBytes_take, bitsOfBytes_drop, hzero]
  rfl

theorem cut_blankIf_of_disjoint (left : Bool)
    (h : slot.position + slot.width ≤ 8 * position ∨ 8 * position + 16 ≤ slot.position)
    (hlen : position + 2 ≤ header.length) :
    cut (bitsOfBytes (Packet.blankIf left position header)) slot =
      cut (bitsOfBytes header) slot := by
  cases left with
  | false => rfl
  | true =>
    have hfront : ((bitsOfBytes header).take (8 * position)).length = 8 * position := by
      simp
      omega
    unfold cut
    rw [bitsOfBytes_blankIf]
    rcases h with h | h
    · rw [List.append_assoc, List.drop_append_of_le_length (by omega),
        List.take_append_of_le_length (by rw [List.length_drop]; omega), List.drop_take,
        List.take_take, Nat.min_eq_left (by omega)]
    · obtain ⟨k, hk⟩ := Nat.exists_eq_add_of_le h
      have hword : ((bitsOfBytes header).take (8 * position) ++
          List.replicate 16 false).length = 8 * position + 16 := by
        simp [hfront]
      rw [hk, ← hword, List.drop_length_add_append, List.drop_drop, hword]

theorem cut_blankIf_of_eq (hposition : slot.position = 8 * position)
    (hwidth : slot.width = 16) (hlen : position + 2 ≤ header.length) :
    cut (bitsOfBytes (Packet.blankIf true position header)) slot = ⟨slot.field, 16, [0, 0]⟩ := by
  have hfront : ((bitsOfBytes header).take (8 * position)).length = 8 * position := by
    simp
    omega
  rw [cut]
  rw [bitsOfBytes_blankIf, hposition, hwidth, List.append_assoc, List.drop_left' hfront,
    List.take_left' (by simp)]
  rfl

end Layout

end HeaderCompression
