import HeaderCompression.Proofs.Rule.Exact

namespace HeaderCompression

variable {columns restored : List Column} {column : Column} {p : FieldPair}
  {pairs : List FieldPair} {bits : Nat}

theorem Column.blanked_proper (h : ∀ bits ∈ column.field.width?, column.bits = bits) :
    column.blanked.Proper := by
  refine ⟨h, by simp [blanked], ?_⟩
  have hzero : natOfBytes (List.replicate (bytesFor column.bits) 0) = 0 := by
    rw [← List.append_nil (List.replicate ..), natOfBytes_replicate_zero_append]
    rfl
  rw [blanked, hzero]
  exact Nat.two_pow_pos _

namespace FieldPair

def received (p : FieldPair) : Column :=
  match p.1.action with
  | .notSent => (p.1.target.single?.map p.1.columnOf).getD p.2
  | .computeLength | .computeChecksum => p.2.blanked
  | _ => p.2

theorem eq_received (hr : p.1.Restores p.2 column) : column = p.received := by
  rw [RuleField.Restores] at hr
  rw [received]
  cases haction : p.1.action <;> rw [haction] at hr
  case notSent =>
    obtain ⟨value, htarget, rfl⟩ := hr
    rw [TargetValue.single?_eq_some_iff.2 htarget]
    rfl
  case appIid => exact hr.elim
  all_goals exact hr

theorem eq_map_received
    (hr : List.Forall₂ (fun p restored => p.1.Restores p.2 restored) pairs restored) :
    restored = pairs.map received := by
  induction hr with
  | nil => rfl
  | cons hp _ ih => rw [List.map_cons, ← eq_received hp, ← ih]

theorem received_of_isComputed (h : p.1.isComputed) : p.received = p.2.blanked := by
  rw [RuleField.isComputed, Bool.or_eq_true, decide_eq_true_eq, decide_eq_true_eq] at h
  rcases h with haction | haction <;> rw [received, haction]

namespace Sound

variable (h : p.Sound)

include h in
theorem field_received : p.received.field = p.2.field := by
  have hfield := (RuleField.accepts_iff.1 h.accepts).1
  rw [received]
  split
  · cases p.1.target.single? with
    | none => rfl
    | some value => exact (RuleField.field_columnOf ..).trans hfield
  · rfl
  · rfl
  · rfl

include h in
theorem bits_eq (hwidth : p.2.field.width? = some bits) :
    p.1.length = .fixed bits ∧ p.2.bits = bits := by
  have hfield := (RuleField.accepts_iff.1 h.accepts).1
  have hlength := h.wellFormed.width bits (hfield ▸ hwidth)
  exact ⟨hlength, RuleField.bits_eq_of_fixed h.accepts hlength⟩

include h in
theorem proper_received (hwidth : p.2.field.width? = some bits) : p.received.Proper := by
  obtain ⟨hlength, hbits⟩ := h.bits_eq hwidth
  have hown : ∀ width ∈ p.2.field.width?, p.2.bits = width := by
    intro width hw
    rw [hbits, ← Option.mem_some_iff, ← hwidth]
    exact hw
  have hself : p.2.Proper := ⟨hown, h.fits.value⟩
  rw [received]
  split
  · cases htarget : p.1.target.single? with
    | none => exact hself
    | some value =>
      have hfield := (RuleField.accepts_iff.1 h.accepts).1
      have hfits := h.wellFormed.targets bits hlength value
        (by simp [TargetValue.single?_eq_some_iff.1 htarget, TargetValue.values])
      rw [Option.map_some, Option.getD_some, RuleField.columnOf, hlength]
      exact ⟨hfield ▸ hbits ▸ hown, hfits⟩
  · exact Column.blanked_proper hown
  · exact Column.blanked_proper hown
  · exact hself

end Sound

theorem map_field_received (hsound : ∀ p ∈ pairs, p.Sound) (hcolumns : pairs.map (·.2) = columns) :
    (pairs.map received).map (·.field) = columns.map (·.field) := by
  rw [← hcolumns, List.map_map, List.map_map]
  exact List.map_congr_left fun p hp => (hsound p hp).field_received

theorem proper_of_mem_received (hsound : ∀ p ∈ pairs, p.Sound)
    (hcolumn : column ∈ pairs.map received) (hwidth : column.field.width?.isSome) :
    column.Proper := by
  obtain ⟨p, hp, rfl⟩ := List.mem_map.1 hcolumn
  obtain ⟨bits, hbits⟩ := Option.isSome_iff_exists.1 hwidth
  rw [(hsound p hp).field_received] at hbits
  exact (hsound p hp).proper_received hbits

end FieldPair

end HeaderCompression
