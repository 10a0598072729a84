import HeaderCompression.Proofs.Packet.Completion
import HeaderCompression.Proofs.Rule.Residue
import Mathlib.Data.List.Nodup

namespace HeaderCompression

open Packet

variable {packet : List UInt8} {columns restored : List Column}
  {column : Column} {p : FieldPair} {pairs : List FieldPair}

def Column.blanked (column : Column) : Column :=
  { column with value := List.replicate (bytesFor column.bits) 0 }

/-- Whether the field is left to be computed when the packet is whole. -/
def RuleField.isComputed (f : RuleField) : Bool :=
  f.action = .computeLength || f.action = .computeChecksum

namespace FieldPair

/-- The field loses nothing of the packet: a value that is not sent is matched in all its bits, and
a value that is computed is the one that the packet holds. Lengths are only computed where they are
zero, so a length that is computed must not meet another one that is zero. -/
def Exact (packet : List UInt8) (p : FieldPair) : Prop :=
  match p.1.action with
  | .notSent => p.1.operator = .equal ∨ p.1.operator = .msb p.2.bits
  | .computeLength => natOfBytes p.2.value = packet.length - ipv6HeaderLength ∧
      wordAt 4 packet ≠ [0, 0] ∧ wordAt 44 packet ≠ [0, 0]
  | .computeChecksum => ∃ length, payloadLength packet = .ok length ∧
      natOfBytes p.2.value =
        udpChecksum (packet.take ipv6HeaderLength) length (packet.drop ipv6HeaderLength)
  | _ => True

theorem Sound.target_eq (h : p.Sound) (haction : p.1.action = .notSent)
    (hexact : p.Exact packet) : p.1.target = .single p.2.value := by
  have hmatch := (RuleField.accepts_iff.1 h.accepts).2.2
  obtain ⟨value, htarget⟩ := h.wellFormed.notSent haction
  simp only [Exact, haction] at hexact
  rcases hexact with hoperator | hoperator
  · simp only [RuleField.matchesOperator, hoperator, htarget, TargetValue.single?, Option.any_some,
      Column.matchesValue, beq_iff_eq] at hmatch
    rw [htarget, hmatch]
  · simp only [RuleField.matchesOperator, hoperator, htarget, TargetValue.single?, Option.any_some,
      Column.matchesMsb] at hmatch
    split at hmatch
    · cases hmatch
    · simp only [if_true, Column.matchesValue, beq_iff_eq] at hmatch
      rw [htarget, hmatch]

theorem Sound.restores_eq (h : p.Sound) (hexact : p.Exact packet)
    (hr : p.1.Restores p.2 column) :
    column = if p.1.isComputed then p.2.blanked else p.2 := by
  rw [RuleField.Restores] at hr
  rw [RuleField.isComputed]
  cases haction : p.1.action <;> rw [haction] at hr
  case notSent =>
    obtain ⟨value, htarget, rfl⟩ := hr
    rw [h.target_eq haction hexact] at htarget
    cases htarget
    exact RuleField.columnOf_value h.accepts h.fits
  case computeLength | computeChecksum => exact hr
  case appIid => exact hr.elim
  all_goals exact hr

theorem keepsTokenLength_of_exact (hsound : ∀ p ∈ pairs, p.Sound)
    (hexact : ∀ p ∈ pairs, p.Exact packet) : KeepsTokenLength pairs :=
  fun _ p hp _ haction => (hsound p hp).target_eq haction (hexact p hp)

theorem restored_eq (hsound : ∀ p ∈ pairs, p.Sound) (hexact : ∀ p ∈ pairs, p.Exact packet)
    (hr : List.Forall₂ (fun p restored => p.1.Restores p.2 restored) pairs restored) :
    restored = pairs.map fun p => if p.1.isComputed then p.2.blanked else p.2 := by
  induction hr with
  | nil => rfl
  | @cons p column pairs restored hp _ ih =>
    rw [List.map_cons, ← ih (fun q hq => hsound q (List.mem_cons_of_mem _ hq))
      fun q hq => hexact q (List.mem_cons_of_mem _ hq),
      (hsound p List.mem_cons_self).restores_eq (hexact p List.mem_cons_self) hp]

def computes (pairs : List FieldPair) (field : HeaderField) : Bool :=
  pairs.any fun p => p.1.isComputed && p.1.field == field

theorem computes_iff {field : HeaderField} :
    computes pairs field ↔ ∃ p ∈ pairs, p.1.isComputed ∧ p.1.field = field := by
  simp [computes]

theorem computes_eq_false {field : HeaderField} (hsound : ∀ p ∈ pairs, p.Sound)
    (hipv6 : field ≠ .ipv6PayloadLength) (hlength : field ≠ .udpLength)
    (hchecksum : field ≠ .udpChecksum) : computes pairs field = false := by
  rw [Bool.eq_false_iff, ne_eq, computes_iff]
  rintro ⟨p, hp, hcomputed, rfl⟩
  simp only [RuleField.isComputed, Bool.or_eq_true, decide_eq_true_eq] at hcomputed
  rcases hcomputed with haction | haction
  · exact ((hsound p hp).wellFormed.computeLength haction).elim hipv6 hlength
  · exact hchecksum ((hsound p hp).wellFormed.computeChecksum haction)

/-- A column's field is computed by the field next to it, where no two columns are for one field. -/
theorem isComputed_eq (hsound : ∀ p ∈ pairs, p.Sound)
    (hdistinct : (pairs.map (·.2.field)).Nodup) (hp : p ∈ pairs) :
    p.1.isComputed = computes pairs p.2.field := by
  rw [Bool.eq_iff_iff, computes_iff]
  constructor
  · intro hcomputed
    exact ⟨p, hp, hcomputed, (RuleField.accepts_iff.1 (hsound p hp).accepts).1⟩
  · rintro ⟨q, hq, hcomputed, hfield⟩
    have hsame : q.2.field = p.2.field :=
      (RuleField.accepts_iff.1 (hsound q hq).accepts).1.symm.trans hfield
    exact List.inj_on_of_nodup_map hdistinct hq hp hsame ▸ hcomputed

theorem restored_columns (hsound : ∀ p ∈ pairs, p.Sound) (hexact : ∀ p ∈ pairs, p.Exact packet)
    (hcolumns : pairs.map (·.2) = columns) (hdistinct : (columns.map (·.field)).Nodup)
    (hr : List.Forall₂ (fun p restored => p.1.Restores p.2 restored) pairs restored) :
    restored = columns.map fun column =>
      if computes pairs column.field then column.blanked else column := by
  have hdistinct' : (pairs.map (·.2.field)).Nodup := by
    rw [← hcolumns, List.map_map] at hdistinct
    exact hdistinct
  rw [restored_eq hsound hexact hr, ← hcolumns, List.map_map]
  apply List.map_congr_left
  intro p hp
  rw [isComputed_eq hsound hdistinct' hp]
  rfl

end FieldPair

end HeaderCompression
