import HeaderCompression.Proofs.Coap.Draft
import HeaderCompression.Proofs.Rule.Restored
import Mathlib.Algebra.Order.BigOperators.Group.List

namespace HeaderCompression.Checked

variable {device : Device} {layer : Layer} {rule : Rule} {f : RuleField} {endpoint : Endpoint}
  {previous columns : List Column} {column : Column} {unit value : List UInt8}
  {fields : List RuleField} {units : List (List UInt8)} {direction : Direction}

/-- As many bytes as the longest value of a field takes in a message, with the bytes in front of
it. -/
def fieldRoom (f : RuleField) : Nat :=
  8197 + (f.target.values.map List.length).sum

def ruleRoom (rule : Rule) : Nat :=
  (rule.fields.map fieldRoom).sum

def deviceRoom (device : Device) : Nat :=
  ((Layer.all.flatMap device.rules).map ruleRoom).sum

theorem length_le_fieldRoom (h : value ∈ f.target.values) : value.length + 8197 ≤ fieldRoom f := by
  have hle : value.length ≤ (f.target.values.map List.length).sum :=
    List.le_sum_of_mem (List.mem_map_of_mem h)
  rw [fieldRoom]
  omega

theorem fieldRoom_le (h : f ∈ rule.fields) : fieldRoom f ≤ ruleRoom rule :=
  List.le_sum_of_mem (List.mem_map_of_mem h)

theorem ruleRoom_le (h : rule ∈ device.rules layer) : ruleRoom rule ≤ deviceRoom device := by
  have hlayer : layer ∈ Layer.all := by cases layer <;> decide
  exact List.le_sum_of_mem (List.mem_map_of_mem (List.mem_flatMap.2 ⟨layer, hlayer, h⟩))

theorem sum_fieldsFor_le (rule : Rule) (direction : Direction) :
    ((rule.fieldsFor direction).map fieldRoom).sum ≤ ruleRoom rule :=
  (List.filter_sublist.map fieldRoom).sum_le_sum fun _ _ => Nat.zero_le _

theorem value_columnOf (f : RuleField) (value : List UInt8) :
    (f.columnOf value).value = value := by
  rw [RuleField.columnOf]
  cases f.length <;> rfl

theorem length_of_reads (hwf : f.WellFormed) (hreads : f.Reads endpoint previous unit column)
    (htoken : f.field ≠ .coapToken) : column.value.length + 5 ≤ fieldRoom f := by
  have hroom : 8197 ≤ fieldRoom f := Nat.le_add_right ..
  have hwhole {count : Nat} (h : count < 65536) : bytesFor count ≤ 8192 := by
    rw [bytesFor]
    omega
  cases hreads with
  | @target value haction htarget =>
    have hvalue := length_le_fieldRoom (show value ∈ f.target.values by
      simp [htarget, TargetValue.values])
    rw [value_columnOf]
    omega
  | @fixed bits unit haction hlength hunit =>
    have hbytes := hwhole (hwf.narrow bits hlength)
    rw [length_alignRight, length_usedBits hunit]
    omega
  | token haction hlength =>
    rcases hwidth : f.field.width? with _ | width
    · rcases hwf.whole hwidth with ⟨_, -, hfixed⟩ | hvariable | ⟨-, hfield⟩
      · cases hlength.symm.trans hfixed
      · cases hlength.symm.trans hvariable
      · exact (htoken hfield).elim
    · cases hlength.symm.trans (hwf.width width hwidth)
  | @counted byte value haction hlength hunit =>
    have hbyte := byte.toNat_lt
    rw [Column.ofBytes, hunit]
    omega
  | @listed byte value values haction htarget hvalue =>
    have hmem := length_le_fieldRoom (show value ∈ f.target.values by
      rw [htarget]
      exact List.mem_of_getElem? hvalue)
    rw [value_columnOf]
    omega
  | @lowBits count known unit haction hoperator hlength htarget hcount hunit =>
    have hbytes := hwhole (hwf.narrow _ hlength)
    rw [length_alignRight, List.length_append, List.length_take_of_le hcount,
      length_usedBits hunit, Nat.add_sub_cancel' hcount]
    omega
  | @computed bits haction hlength =>
    have hbytes := hwhole (hwf.narrow bits hlength)
    rw [List.length_replicate]
    omega
  | @deviceIid iid haction hiid =>
    obtain ⟨address, -, rfl⟩ := Option.map_eq_some_iff.1 hiid
    rw [Column.ofBytes, address.length_interfaceId]
    omega

theorem room_of_reads (hwf : f.WellFormed) (hreads : f.Reads endpoint previous unit column) :
    column.room ≤ fieldRoom f := by
  rw [Column.room]
  split
  · rename_i name hfield
    apply length_of_reads hwf hreads
    rw [← hreads.field_eq, hfield]
    intro hsame
    cases hsame
  · exact Nat.zero_le _

theorem room_of_readAll (hwf : ∀ f ∈ fields, f.WellFormed)
    (h : ReadAll endpoint previous fields units columns) :
    (columns.map Column.room).sum ≤ (fields.map fieldRoom).sum := by
  induction h with
  | nil => exact Nat.le_refl _
  | cons hfield _ ih =>
    obtain ⟨hf, hfields⟩ := List.forall_mem_cons.1 hwf
    rw [List.map_cons, List.map_cons, List.sum_cons, List.sum_cons]
    exact Nat.add_le_add (room_of_reads hf hfield) (ih hfields)

theorem room_of_restore {data : List UInt8} {pending : Packet.Pending} {decoder : Decoder}
    (haccepted : device.Accepted) (hrule : rule ∈ device.rules layer)
    (h : rule.restore endpoint (.ofBytes data pending) = .ok columns decoder) :
    (columns.map Column.room).sum ≤ deviceRoom device := by
  obtain ⟨units, hread⟩ := haccepted.exists_readAll hrule h
  have hwf := haccepted.wellFormed layer rule hrule
  exact (room_of_readAll (fun f hf => hwf f (List.mem_of_mem_filter hf)) hread).trans
    ((sum_fieldsFor_le rule endpoint.direction).trans (ruleRoom_le hrule))

end HeaderCompression.Checked
