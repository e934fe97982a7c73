import Larder.Call

namespace Larder

deriving instance DecidableEq for Ended

instance {α : Type} : (e : Ended α) → Decidable (e = .dropped)
  | .done _ => isFalse (by simp)
  | .failed _ => isFalse (by simp)
  | .dropped => isTrue rfl

/-- The end of a call without its result. -/
def Ended.forget {α : Type} : Ended α → Ended Unit
  | .done _ => .done ()
  | .failed x => .failed x
  | .dropped => .dropped

@[simp] theorem Ended.forget_done {α : Type} (a : α) : (Ended.done a).forget = .done () := rfl

@[simp] theorem Ended.forget_failed {α : Type} (x : Failure) :
    (Ended.failed x : Ended α).forget = .failed x := rfl

@[simp] theorem Ended.forget_dropped {α : Type} : (Ended.dropped : Ended α).forget = .dropped := rfl

namespace Call

variable {σ τ α β : Type}

/-- How a call ends that starts in a state, and the state it leaves. -/
def run (c : Call σ α) (s : σ) : Ended α × σ := c s

theorem bind_done {c : Call σ α} {f : α → Call σ β} {s t : σ} {a : α}
    (h : c.run s = (.done a, t)) : (c >>= f).run s = (f a).run t := by
  change Call.bind c f s = f a t
  unfold Call.bind
  rw [show c s = (.done a, t) from h]

theorem bind_failed {c : Call σ α} {f : α → Call σ β} {s t : σ} {x : Failure}
    (h : c.run s = (.failed x, t)) : (c >>= f).run s = (.failed x, t) := by
  change Call.bind c f s = (.failed x, t)
  unfold Call.bind
  rw [show c s = (.failed x, t) from h]

theorem bind_dropped {c : Call σ α} {f : α → Call σ β} {s t : σ}
    (h : c.run s = (.dropped, t)) : (c >>= f).run s = (.dropped, t) := by
  change Call.bind c f s = (.dropped, t)
  unfold Call.bind
  rw [show c s = (.dropped, t) from h]

/-- A bound call that ends: the first part is done and the rest ends so, or the first part fails
or is dropped and the rest is never begun. -/
theorem bind_cases {c : Call σ α} {f : α → Call σ β} {s s' : σ} {e : Ended β}
    (h : (c >>= f).run s = (e, s')) :
    (∃ a t, c.run s = (.done a, t) ∧ (f a).run t = (e, s')) ∨
    (∃ x, c.run s = (.failed x, s') ∧ e = .failed x) ∨
    (c.run s = (.dropped, s') ∧ e = .dropped) := by
  cases hc : c.run s with
  | mk ended t =>
    cases ended with
    | done a =>
      rw [bind_done hc] at h
      exact Or.inl ⟨a, t, rfl, h⟩
    | failed x =>
      rw [bind_failed hc] at h
      cases h
      exact Or.inr (Or.inl ⟨x, rfl, rfl⟩)
    | dropped =>
      rw [bind_dropped hc] at h
      cases h
      exact Or.inr (Or.inr ⟨rfl, rfl⟩)

theorem wait_cases {f : σ → Option α × σ} {s s' : σ} {e : Ended α}
    (h : (wait f).run s = (e, s')) :
    ∃ o, f s = (o, s') ∧ ((∃ a, o = some a ∧ e = .done a) ∨ (o = none ∧ e = .dropped)) := by
  simp only [run, wait] at h
  split at h <;> cases h <;> rename_i hf
  · exact ⟨_, hf, Or.inl ⟨_, rfl, rfl⟩⟩
  · exact ⟨_, hf, Or.inr ⟨rfl, rfl⟩⟩

/-- A call that begins with a wait: what is waited for comes and the rest goes on from there, or
the call is dropped. -/
theorem wait_bind_cases {w : σ → Option α × σ} {f : α → Call σ β} {s s' : σ} {e : Ended β}
    (h : (wait w >>= f).run s = (e, s')) :
    (∃ a t, w s = (some a, t) ∧ (f a).run t = (e, s')) ∨ (w s = (none, s') ∧ e = .dropped) := by
  rcases bind_cases h with ⟨a, t, hw, hf⟩ | ⟨x, hw, _⟩ | ⟨hw, rfl⟩
  all_goals obtain ⟨o, ho, ⟨b, rfl, he⟩ | ⟨rfl, he⟩⟩ := wait_cases hw
  all_goals cases he
  · exact Or.inl ⟨a, t, ho, hf⟩
  · exact Or.inr ⟨ho, rfl⟩

theorem attempt_cases {c : Call σ α} {s s' : σ} {e : Ended (Except Failure α)}
    (h : c.attempt.run s = (e, s')) : ∃ ended, c.run s = (ended, s') ∧
      ((∃ a, ended = .done a ∧ e = .done (.ok a)) ∨
       (∃ x, ended = .failed x ∧ e = .done (.error x)) ∨ (ended = .dropped ∧ e = .dropped)) := by
  unfold run attempt at h
  split at h <;> cases h <;> rename_i hc
  · exact ⟨_, hc, Or.inl ⟨_, rfl, rfl⟩⟩
  · exact ⟨_, hc, Or.inr (Or.inl ⟨_, rfl, rfl⟩)⟩
  · exact ⟨_, hc, Or.inr (Or.inr ⟨rfl, rfl⟩)⟩

section Attempt

variable {c : Call σ α} {s t : σ}

theorem attempt_done {a : α} (h : c.run s = (.done a, t)) :
    c.attempt.run s = (.done (.ok a), t) := by
  unfold run attempt
  rw [show c s = (.done a, t) from h]

theorem attempt_failed {x : Failure} (h : c.run s = (.failed x, t)) :
    c.attempt.run s = (.done (.error x), t) := by
  unfold run attempt
  rw [show c s = (.failed x, t) from h]

theorem attempt_dropped (h : c.run s = (.dropped, t)) : c.attempt.run s = (.dropped, t) := by
  unfold run attempt
  rw [show c s = (.dropped, t) from h]

end Attempt

theorem within_cases {part : σ → τ} {replace : τ → σ → σ} {c : Call τ α} {s s' : σ} {e : Ended α}
    (h : (within part replace c).run s = (e, s')) :
    ∃ t, c.run (part s) = (e, t) ∧ s' = replace t s := by
  cases h
  exact ⟨_, rfl, rfl⟩

theorem forget_cases {c : Call σ α} {s s' : σ} {e : Ended Unit} (h : c.forget.run s = (e, s')) :
    ∃ ended, c.run s = (ended, s') ∧ ((∃ a, ended = .done a ∧ e = .done ()) ∨
      (∃ x, ended = .failed x ∧ e = .failed x) ∨ (ended = .dropped ∧ e = .dropped)) := by
  rcases bind_cases h with ⟨a, t, ha, hr⟩ | ⟨x, hx, rfl⟩ | ⟨hd, rfl⟩
  · cases hr
    exact ⟨_, ha, Or.inl ⟨a, rfl, rfl⟩⟩
  · exact ⟨_, hx, Or.inr (Or.inl ⟨x, rfl, rfl⟩)⟩
  · exact ⟨_, hd, Or.inr (Or.inr ⟨rfl, rfl⟩)⟩

section Forget

variable {c : Call σ α} {s s' : σ}

theorem forget_ended {e : Ended Unit} (h : c.forget.run s = (e, s')) :
    ∃ ended, c.run s = (ended, s') ∧ e = ended.forget := by
  obtain ⟨ended, hr, ⟨_, rfl, rfl⟩ | ⟨_, rfl, rfl⟩ | ⟨rfl, rfl⟩⟩ := forget_cases h
  all_goals exact ⟨_, hr, rfl⟩

theorem forget_done (h : c.forget.run s = (.done (), s')) : ∃ a, c.run s = (.done a, s') := by
  obtain ⟨ended, hr, ⟨a, rfl, _⟩ | ⟨_, _, he⟩ | ⟨_, he⟩⟩ := forget_cases h
  · exact ⟨a, hr⟩
  · cases he
  · cases he

theorem forget_failed {x : Failure} (h : c.forget.run s = (.failed x, s')) :
    c.run s = (.failed x, s') := by
  obtain ⟨ended, hr, ⟨_, _, he⟩ | ⟨_, rfl, he⟩ | ⟨_, he⟩⟩ := forget_cases h
  · cases he
  · cases he
    exact hr
  · cases he

theorem forget_dropped (h : c.forget.run s = (.dropped, s')) : c.run s = (.dropped, s') := by
  obtain ⟨ended, hr, ⟨_, _, he⟩ | ⟨_, _, he⟩ | ⟨rfl, _⟩⟩ := forget_cases h
  · cases he
  · cases he
  · exact hr

end Forget

section Run

variable (s : σ) (a : α) (f : α → Call σ β)

@[simp] theorem run_view_bind (g : σ → α) : (view g >>= f).run s = (f (g s)).run s := rfl

@[simp] theorem run_modify_bind (g : σ → σ) (f : Unit → Call σ β) :
    (modify g >>= f).run s = (f ()).run (g s) := rfl

@[simp] theorem ofExcept_ok_bind : ((ofExcept (.ok a) : Call σ α) >>= f) = f a := rfl

end Run

instance : LawfulMonad (Call σ) :=
  LawfulMonad.mk' (Call σ)
    (by
      intro α c
      funext s
      change Call.bind c (fun a => Call.pure (id a)) s = c s
      unfold Call.bind Call.pure
      rcases c s with ⟨_ | _ | _, _⟩ <;> rfl)
    (by
      intro α β a f
      rfl)
    (by
      intro α β γ c f g
      funext s
      change Call.bind (Call.bind c f) g s = Call.bind c (fun a => Call.bind (f a) g) s
      unfold Call.bind
      rcases c s with ⟨_ | _ | _, _⟩ <;> rfl)

theorem ofExcept_bind (x : Except Failure α) (f : α → Except Failure β) :
    (ofExcept (x >>= f) : Call σ β) = ofExcept x >>= fun a => ofExcept (f a) := by
  cases x <;> rfl

theorem ofExcept_pure (a : α) : (ofExcept (Pure.pure a) : Call σ α) = Pure.pure a := rfl

/-- From every state with the property the call comes to an end that is no drop, and keeps the
property. -/
def Finishes (P : σ → Prop) (c : Call σ α) : Prop :=
  ∀ s e s', P s → c.run s = (e, s') → e ≠ .dropped ∧ P s'

section Finishes

variable {P : σ → Prop}

theorem Finishes.pure (a : α) : Finishes P (Pure.pure a : Call σ α) := by
  intro s e s' hs h
  cases h
  exact ⟨by simp, hs⟩

theorem Finishes.fail (x : Failure) : Finishes P (Call.fail x : Call σ α) := by
  intro s e s' hs h
  cases h
  exact ⟨by simp, hs⟩

theorem Finishes.view (f : σ → α) : Finishes P (Call.view f) := by
  intro s e s' hs h
  cases h
  exact ⟨by simp, hs⟩

theorem Finishes.modify {f : σ → σ} (hf : ∀ s, P s → P (f s)) : Finishes P (Call.modify f) := by
  intro s e s' hs h
  cases h
  exact ⟨by simp, hf s hs⟩

theorem Finishes.ofExcept (x : Except Failure α) : Finishes P (Call.ofExcept x : Call σ α) := by
  cases x with
  | ok a => exact Finishes.pure a
  | error x => exact Finishes.fail x

theorem Finishes.bind {c : Call σ α} {f : α → Call σ β} (hc : Finishes P c)
    (hf : ∀ a, Finishes P (f a)) : Finishes P (c >>= f) := by
  intro s e s' hs h
  rcases bind_cases h with ⟨a, t, ha, he⟩ | ⟨x, hx, he⟩ | ⟨hd, _⟩
  · exact hf a t e s' (hc s _ t hs ha).2 he
  · subst he
    exact ⟨by simp, (hc s _ s' hs hx).2⟩
  · exact absurd rfl (hc s _ s' hs hd).1

theorem Finishes.wait {f : σ → Option α × σ}
    (hf : ∀ s o t, P s → f s = (o, t) → o.isSome ∧ P t) : Finishes P (Call.wait f) := by
  intro s e s' hs h
  rcases wait_cases h with ⟨o, hw, ⟨a, rfl, rfl⟩ | ⟨rfl, rfl⟩⟩
  · exact ⟨by simp, (hf s _ s' hs hw).2⟩
  · exact absurd (hf s _ s' hs hw).1 (by simp)

theorem Finishes.attempt {c : Call σ α} (hc : Finishes P c) : Finishes P c.attempt := by
  intro s e s' hs h
  obtain ⟨ended, hr, he⟩ := attempt_cases h
  obtain ⟨hne, hs'⟩ := hc s ended s' hs hr
  refine ⟨?_, hs'⟩
  rcases he with ⟨a, _, rfl⟩ | ⟨x, _, rfl⟩ | ⟨rfl, _⟩
  · simp
  · simp
  · exact absurd rfl hne

theorem Finishes.forget {c : Call σ α} (hc : Finishes P c) : Finishes P c.forget :=
  hc.bind fun _ => .pure ()

/-- A call on a part of the state finishes when it does so for the part's share of the property. -/
theorem Finishes.within {part : σ → τ} {replace : τ → σ → σ} {Q : τ → Prop} {c : Call τ α}
    (hc : Finishes Q c) (hpart : ∀ s, P s → Q (part s))
    (hreplace : ∀ s t, P s → Q t → P (replace t s)) :
    Finishes P (Call.within part replace c) := by
  intro s e s' hs h
  obtain ⟨t, hr, rfl⟩ := within_cases h
  obtain ⟨hne, ht⟩ := hc (part s) e t (hpart s hs) hr
  exact ⟨hne, hreplace s t hs ht⟩

end Finishes

/-- The call keeps the property, however it ends. -/
def Preserves (P : σ → Prop) (c : Call σ α) : Prop := ∀ s, P s → P (c.run s).2

section Preserves

variable {P : σ → Prop}

theorem Preserves.pure (a : α) : Preserves P (Pure.pure a : Call σ α) := fun _ h => h

theorem Preserves.view (f : σ → α) : Preserves P (Call.view f) := fun _ h => h

theorem Preserves.modify {f : σ → σ} (hf : ∀ s, P s → P (f s)) : Preserves P (Call.modify f) := hf

theorem Preserves.ofExcept (x : Except Failure α) : Preserves P (Call.ofExcept x : Call σ α) := by
  intro s h
  cases x <;> exact h

theorem Preserves.run {c : Call σ α} {s s' : σ} {e : Ended α} (hc : Preserves P c)
    (h : c.run s = (e, s')) (hs : P s) : P s' := by
  have hafter := hc s hs
  rw [h] at hafter
  exact hafter

theorem Preserves.bind {c : Call σ α} {f : α → Call σ β} (hc : Preserves P c)
    (hf : ∀ a, Preserves P (f a)) : Preserves P (c >>= f) := by
  intro s hs
  rcases bind_cases (Prod.eta ((c >>= f).run s)).symm with ⟨a, t, ha, he⟩ | ⟨x, hx, _⟩ | ⟨hd, _⟩
  · exact (hf a).run he (hc.run ha hs)
  · exact hc.run hx hs
  · exact hc.run hd hs

theorem Preserves.forget {c : Call σ α} (hc : Preserves P c) : Preserves P c.forget :=
  hc.bind fun _ => .pure _

theorem Preserves.within {part : σ → τ} {replace : τ → σ → σ} {Q : τ → Prop} {c : Call τ α}
    (hc : Preserves Q c) (hpart : ∀ s, P s → Q (part s))
    (hreplace : ∀ s t, P s → Q t → P (replace t s)) :
    Preserves P (Call.within part replace c) := by
  intro s hs
  exact hreplace s _ hs (hc _ (hpart s hs))

end Preserves

end Call

end Larder
