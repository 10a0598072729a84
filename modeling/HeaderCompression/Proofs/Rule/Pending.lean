import HeaderCompression.Proofs.Rule.Residue

namespace HeaderCompression

variable {f : RuleField} {rule : Rule} {endpoint : Endpoint} {previous columns : List Column}
  {column : Column} {decoder decoder' : Decoder}

theorem Decoder.pending_onTape {α : Type} {read : EStateM Error BitTape α} {a : α}
    (h : onTape read decoder = .ok a decoder') : decoder'.pending = decoder.pending := by
  rw [onTape] at h
  split at h <;> cases h
  rfl

theorem RuleField.pending_of_restore
    (h : f.restore endpoint previous decoder = .ok column decoder') :
    decoder'.pending = f.leave decoder.pending := by
  rw [restore] at h
  rw [leave]
  cases haction : f.action <;> rw [haction] at h <;> dsimp only at h <;>
    simp only [reduceCtorEq, decide_true, decide_false, Bool.or_true, Bool.or_false]
  case notSent =>
    obtain ⟨-, rfl⟩ := run_ofExcept_eq_ok_iff.1 h
    rfl
  case valueSent | mappingSent | lsb => exact Decoder.pending_onTape h
  case computeLength | computeChecksum =>
    obtain ⟨_, _, hmodify, h⟩ := run_bind_eq_ok_iff.1 h
    cases hmodify
    obtain ⟨-, rfl⟩ := run_ofExcept_eq_ok_iff.1 h
    rfl
  case devIid =>
    cases hiid : endpoint.interfaceId? with
    | none =>
      rw [hiid] at h
      cases h
    | some iid =>
      rw [hiid] at h
      cases h
      rfl
  case appIid => cases h

theorem FieldPair.pending_of_restoreAll {fields : List RuleField}
    (h : restoreAll endpoint fields previous decoder = .ok columns decoder') :
    decoder'.pending = fields.foldl (fun pending f => f.leave pending) decoder.pending := by
  induction fields generalizing previous decoder with
  | nil =>
    cases h
    rfl
  | cons f fields ih =>
    rw [restoreAll, List.foldlM_cons] at h
    obtain ⟨_, _, hstep, h⟩ := run_bind_eq_ok_iff.1 h
    obtain ⟨_, _, hfield, hstep⟩ := run_bind_eq_ok_iff.1 hstep
    cases hstep
    rw [List.foldl_cons, ← RuleField.pending_of_restore hfield]
    exact ih h

theorem Rule.pending_of_restore (h : rule.restore endpoint decoder = .ok columns decoder') :
    decoder'.pending =
      ⟨decoder.pending.length ||
          (rule.fieldsFor endpoint.direction).any (·.action = .computeLength),
        decoder.pending.checksum ||
          (rule.fieldsFor endpoint.direction).any (·.action = .computeChecksum)⟩ := by
  rw [← Rule.foldl_leave]
  exact FieldPair.pending_of_restoreAll h

end HeaderCompression
