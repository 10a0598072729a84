import HeaderCompression.Error
import Mathlib.Data.List.Forall2

namespace HeaderCompression

variable {ε α β σ : Type} {a : α} {b : β}

theorem bind_eq_ok_iff {x : Except ε α} {f : α → Except ε β} :
    (x >>= f) = .ok b ↔ ∃ a, x = .ok a ∧ f a = .ok b := by
  cases x with
  | error e => simp [bind, Except.bind]
  | ok a => simp [bind, Except.bind]

theorem map_eq_ok_iff {x : Except ε α} {f : α → β} :
    f <$> x = .ok b ↔ ∃ a, x = .ok a ∧ f a = b := by
  cases x with
  | error e => simp [Functor.map, Except.map]
  | ok a => simp [Functor.map, Except.map]

@[simp] theorem throw_ne_ok {e : ε} : (throw e : Except ε α) ≠ .ok a := by
  intro h
  cases h

@[simp] theorem throw_bind_ne_ok {e : ε} {f : α → Except ε β} :
    ((throw e : Except ε α) >>= f) ≠ .ok b := by
  intro h
  cases h

@[simp] theorem pure_eq_ok_iff {x : α} : (pure x : Except ε α) = .ok a ↔ x = a := by
  simp [pure, Except.pure]

theorem mapError_eq_ok_iff {ε' : Type} {x : Except ε α} {f : ε → ε'} :
    x.mapError f = .ok a ↔ x = .ok a := by
  cases x <;> simp [Except.mapError]

theorem toOption_eq_some_iff {x : Except ε α} : x.toOption = some a ↔ x = .ok a := by
  cases x <;> simp [Except.toOption]

theorem not_of_ite_eq_ok {c : Prop} [Decidable c] {e : ε} {x : Except ε α}
    (h : (if c then .error e else x) = .ok a) : ¬ c := by
  intro hc
  rw [if_pos hc] at h
  cases h

theorem mapM_eq_ok_iff {f : α → Except ε β} {xs : List α} {ys : List β} :
    xs.mapM f = .ok ys ↔ List.Forall₂ (fun x y => f x = .ok y) xs ys := by
  induction xs generalizing ys with
  | nil =>
    rw [List.mapM_nil, pure_eq_ok_iff]
    exact ⟨fun h => h ▸ .nil, fun h => by cases h; rfl⟩
  | cons x xs ih =>
    rw [List.mapM_cons]
    constructor
    · intro h
      obtain ⟨y, hy, h⟩ := bind_eq_ok_iff.1 h
      obtain ⟨zs, hzs, h⟩ := bind_eq_ok_iff.1 h
      cases h
      exact .cons hy (ih.1 hzs)
    · intro h
      cases h with
      | cons hy hys => simp [hy, ih.2 hys, bind, Except.bind, pure, Except.pure]

theorem exists_mapM_eq_ok {f : α → Except ε β} {xs : List α} (h : ∀ x ∈ xs, ∃ y, f x = .ok y) :
    ∃ ys, xs.mapM f = .ok ys := by
  induction xs with
  | nil => exact ⟨[], rfl⟩
  | cons x xs ih =>
    obtain ⟨⟨y, hy⟩, hxs⟩ := List.forall_mem_cons.1 h
    obtain ⟨ys, hys⟩ := ih hxs
    exact ⟨y :: ys, mapM_eq_ok_iff.2 (.cons hy (mapM_eq_ok_iff.1 hys))⟩

theorem mapM_eq_error_iff {f : α → Except ε β} {refusal? : α → Option ε}
    {xs : List α} {e : ε} (h : ∀ x ∈ xs, ∀ e, f x = .error e ↔ refusal? x = some e) :
    xs.mapM f = .error e ↔ xs.findSome? refusal? = some e := by
  induction xs with
  | nil => simp [pure, Except.pure]
  | cons x xs ih =>
    have hx := h x List.mem_cons_self
    have ih := ih fun y hy => h y (List.mem_cons_of_mem _ hy)
    rw [List.mapM_cons, List.findSome?_cons]
    cases hfx : f x with
    | error e' =>
      rw [(hx e').1 hfx]
      simp [bind, Except.bind]
    | ok y =>
      have hnone : refusal? x = none := by
        rw [Option.eq_none_iff_forall_ne_some]
        intro e' he'
        cases hfx.symm.trans ((hx e').2 he')
      rw [hnone, ← ih]
      cases xs.mapM f <;> simp [bind, Except.bind, pure, Except.pure]

theorem exists_of_forall₂ {R : α → β → Prop} {xs : List α} {ys : List β}
    (h : List.Forall₂ R xs ys) (hb : b ∈ ys) : ∃ a ∈ xs, R a b := by
  induction h with
  | nil => cases hb
  | cons hR _ ih =>
    rcases List.mem_cons.1 hb with rfl | hb
    · exact ⟨_, List.mem_cons_self, hR⟩
    · obtain ⟨a, ha, hR⟩ := ih hb
      exact ⟨a, List.mem_cons_of_mem _ ha, hR⟩

theorem any_congr {p q : α → Bool} {xs : List α} (h : ∀ x ∈ xs, p x = q x) :
    xs.any p = xs.any q := by
  rw [Bool.eq_iff_iff, List.any_eq_true, List.any_eq_true]
  exact exists_congr fun x => and_congr_right fun hx => by rw [h x hx]

theorem find?_eq_of_nodup [DecidableEq β] {key : α → β} {xs : List α}
    (h : (xs.map key).Nodup) (ha : a ∈ xs) : xs.find? (key · == key a) = some a := by
  induction xs with
  | nil => cases ha
  | cons x xs ih =>
    rw [List.map_cons, List.nodup_cons] at h
    rw [List.find?_cons]
    rcases List.mem_cons.1 ha with rfl | ha
    · simp
    · have hne : key x ≠ key a := fun he => h.1 (he ▸ List.mem_map_of_mem ha)
      rw [beq_eq_false_iff_ne.2 hne]
      exact ih h.2 ha

theorem run_bind_eq_ok_iff {x : EStateM ε σ α} {f : α → EStateM ε σ β} {s s' : σ} :
    (x >>= f) s = .ok b s' ↔ ∃ a t, x s = .ok a t ∧ f a t = .ok b s' := by
  change EStateM.bind x f s = _ ↔ _
  rw [EStateM.bind]
  cases x s with
  | error e t => simp
  | ok a t => simp

theorem run_bind_eq_error_iff {x : EStateM ε σ α} {f : α → EStateM ε σ β} {s s' : σ} {e : ε} :
    (x >>= f) s = .error e s' ↔
      x s = .error e s' ∨ ∃ a t, x s = .ok a t ∧ f a t = .error e s' := by
  change EStateM.bind x f s = _ ↔ _
  rw [EStateM.bind]
  cases x s with
  | error e t => simp
  | ok a t => simp

theorem run_ofExcept_eq_ok_iff {x : Except ε α} {s s' : σ} :
    (ofExcept x : EStateM ε σ α) s = .ok a s' ↔ x = .ok a ∧ s = s' := by
  cases x with
  | error e =>
    change EStateM.Result.error e s = _ ↔ _
    simp
  | ok a => simp [ofExcept, pure, EStateM.pure]

theorem run_ofExcept_eq_error_iff {x : Except ε α} {s s' : σ} {e : ε} :
    (ofExcept x : EStateM ε σ α) s = .error e s' ↔ x = .error e ∧ s = s' := by
  cases x with
  | error e' =>
    change EStateM.Result.error e' s = _ ↔ _
    simp
  | ok a => simp [ofExcept, pure, EStateM.pure]

end HeaderCompression
