import HeaderCompression.Json.Record
import HeaderCompression.Proofs.Outcome

namespace HeaderCompression.Json

namespace Reader

variable {ε α β σ : Type} {reader : Reader ε α} {p : α → Prop}

/-- Every value that the reader gives has the property. -/
def Yields (reader : Reader ε α) (p : α → Prop) : Prop :=
  ∀ source a rest, reader source = .ok (a, rest) → p a

theorem yields_true (reader : Reader ε α) : Yields reader fun _ => True :=
  fun _ _ _ _ => trivial

theorem yields_pure {a : α} (h : p a) : Yields (pure a : Reader ε α) p := by
  intro source b rest hb
  cases hb
  exact h

theorem yields_throw (fault : Fault ε) : Yields (throw fault : Reader ε α) p := by
  intro source b rest hb
  cases hb

theorem Yields.bind {f : α → Reader ε β} {r : β → Prop} (h : Yields reader p)
    (hf : ∀ a, p a → Yields (f a) r) : Yields (reader >>= f) r := by
  intro source b rest hb
  change (reader source >>= fun s => f s.1 s.2) = _ at hb
  cases ha : reader source with
  | error fault =>
    rw [ha] at hb
    cases hb
  | ok s =>
    rw [ha] at hb
    exact hf s.1 (h source s.1 s.2 ha) s.2 b rest hb

/-- What the first reader gives does not matter. -/
theorem yields_bind {f : α → Reader ε β} {r : β → Prop} (hf : ∀ a, Yields (f a) r) :
    Yields (reader >>= f) r :=
  (yields_true reader).bind fun a _ => hf a

theorem yields_iterate {step : σ → Reader ε (σ ⊕ α)} (inv : σ → Prop)
    (hstep : ∀ s, inv s → Yields (step s) (Sum.elim inv p)) {s : σ} (hs : inv s) :
    Yields (iterate step s) p := by
  intro source a rest ha
  induction h : source.left using Nat.strongRecOn generalizing s source with
  | ind left ih =>
    subst h
    rw [iterate] at ha
    split at ha
    · cases ha
    · rename_i result rest' hrun
      cases ha
      exact hstep s hs _ _ _ hrun
    · rename_i s' rest' hrun
      split at ha
      · rename_i hlt
        exact ih _ hlt (hstep s hs _ _ _ hrun) _ ha rfl
      · cases ha

theorem yields_refuse : Yields (refuse : Reader ε α) p := by
  rw [refuse]
  apply yields_bind
  intro c
  split
  case h_4 | h_5 => exact yields_bind fun _ => yields_bind fun _ => yields_throw _
  case h_6 | h_7 => exact yields_throw _
  case h_8 =>
    split
    · exact yields_bind fun _ => yields_throw _
    · exact yields_throw _
  all_goals exact yields_bind fun _ => yields_throw _

theorem yields_enter {room : Nat} {inside : Nat → Reader ε α} (h : ∀ room, Yields (inside room) p) :
    Yields (enter room inside) p := by
  cases room with
  | zero => exact yields_throw _
  | succ room => exact yields_bind fun _ => h room

theorem Yields.items (h : Yields reader p) :
    Yields (items reader) fun as : List α => ∀ a ∈ as, p a := by
  refine yields_iterate (fun read : List α => ∀ a ∈ read, p a) ?_ (by simp)
  · intro read hread
    apply yields_bind
    intro follows
    split
    · refine h.bind fun a ha => yields_pure ?_
      simpa using ⟨ha, hread⟩
    · exact yields_bind fun _ => yields_pure (by simpa using hread)

theorem yields_list {room : Nat} {reader : Nat → Reader ε α} (h : ∀ room, Yields (reader room) p) :
    Yields (list room reader) fun as : List α => ∀ a ∈ as, p a := by
  rw [list]
  apply yields_bind
  intro c
  split
  · exact yields_enter fun room => (h room).items
  · exact yields_refuse

theorem Yields.document (h : Yields reader p) {text : String} {a : α}
    (ha : document reader text = .ok a) : p a := by
  have hpair : Yields (do let value ← reader; return (value, ← next?)) fun s => p s.1 :=
    h.bind fun a ha => yields_bind fun _ => yields_pure ha
  obtain ⟨⟨b, next⟩, hrun, hb⟩ := bind_eq_ok_iff.1 ha
  obtain ⟨⟨s, rest⟩, hs, hfst⟩ := map_eq_ok_iff.1 hrun
  have hp := hpair _ s rest hs
  cases hfst
  cases next with
  | none =>
    cases hb
    exact hp
  | some c => cases hb

end Reader

open Reader

variable {ε α δ : Type} {p : α → Prop} {shape : RecordShape ε δ α} {inv : δ → Prop}

/-- The drafts of a record keep an invariant, which the record itself gets its property from. -/
structure RecordShape.Keeps (shape : RecordShape ε δ α) (inv : δ → Prop) (p : α → Prop) : Prop where
  blank : inv shape.blank
  read : ∀ member ∈ shape.members, ∀ room draft, inv draft → Yields (member.read room draft) inv
  finish : ∀ draft a, inv draft → shape.finish? draft = some a → p a

theorem RecordShape.Keeps.yields_finish (h : shape.Keeps inv p) {draft : δ}
    (hd : inv draft) : Yields (Reader.finish shape draft) p := by
  rw [Reader.finish]
  split
  · exact yields_throw _
  · rename_i a ha
    exact yields_pure (h.finish draft a hd ha)

theorem RecordShape.Keeps.yields_namedMembers (h : shape.Keeps inv p) (room : Nat) :
    Yields (namedMembers shape room) p := by
  refine yields_iterate (fun s : Bool × δ => inv s.2) ?_ h.blank
  · rintro ⟨first, draft⟩ hd
    apply yields_bind
    intro name?
    split
    · exact (h.yields_finish hd).bind fun a ha => yields_pure ha
    · split
      · exact yields_bind fun _ => yields_bind fun _ => yields_pure hd
      · rename_i member hfind
        have hmem := List.mem_of_find?_eq_some hfind
        split
        · exact yields_throw _
        · apply yields_bind
          intro _
          exact (h.read member hmem room draft hd).bind fun draft' hd' => yields_pure hd'

theorem RecordShape.Keeps.yields_listedMembers (h : shape.Keeps inv p) (room : Nat)
    {members : List (Member ε δ)} (hsub : ∀ member ∈ members, member ∈ shape.members)
    (index : Nat) {draft : δ} (hd : inv draft) :
    Yields (listedMembers shape room members index draft) p := by
  induction members generalizing index draft with
  | nil =>
    apply yields_bind
    intro c
    split
    · exact yields_throw _
    · exact yields_bind fun _ => h.yields_finish hd
  | cons member members ih =>
    apply yields_bind
    intro follows
    split
    · refine (h.read member (hsub member (by simp)) room draft hd).bind fun draft' hd' => ?_
      exact ih (fun m hm => hsub m (by simp [hm])) (index + 1) hd'
    · split
      · exact yields_throw _
      · exact yields_bind fun _ => h.yields_finish hd

theorem RecordShape.Keeps.yields_record (h : shape.Keeps inv p) (room : Nat) :
    Yields (record room shape) p := by
  rw [record]
  apply yields_bind
  intro c
  split
  · exact yields_enter h.yields_namedMembers
  · exact yields_enter fun room => h.yields_listedMembers room (fun _ hm => hm) 0 h.blank
  · exact yields_refuse

end HeaderCompression.Json
