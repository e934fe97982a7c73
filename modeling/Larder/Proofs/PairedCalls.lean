import Larder.Proofs.Calls

namespace Larder

/-- Both are results, and related ones, or both are the same error. -/
inductive Agree {ε α β : Type} (R : α → β → Prop) : Except ε α → Except ε β → Prop where
  | ok {a : α} {b : β} (h : R a b) : Agree R (.ok a) (.ok b)
  | error (e : ε) : Agree R (.error e) (.error e)

section Agree

variable {ε δ α β γ α' β' : Type} {R : α → β → Prop} {Q : α' → β' → Prop} {x : Except ε α}
  {y : Except ε β}

theorem Agree.of_eq {x y : Except ε α} (h : x = y) : Agree Eq x y := by
  subst h
  cases x with
  | ok a => exact .ok rfl
  | error e => exact .error e

theorem Agree.eq {x y : Except ε α} (h : Agree Eq x y) : x = y := by
  cases h with
  | ok h => rw [h]
  | error e => rfl

theorem Agree.bind {f : α → Except ε α'} {g : β → Except ε β'} (h : Agree R x y)
    (hf : ∀ a b, R a b → Agree Q (f a) (g b)) : Agree Q (x >>= f) (y >>= g) := by
  cases h with
  | ok hab => exact hf _ _ hab
  | error e => exact .error e

theorem Agree.mapError (f : ε → δ) (h : Agree R x y) : Agree R (x.mapError f) (y.mapError f) := by
  cases h with
  | ok hab => exact .ok hab
  | error e => exact .error (f e)

theorem Agree.mono {Q : α → β → Prop} (hRQ : ∀ a b, R a b → Q a b) (h : Agree R x y) :
    Agree Q x y := by
  cases h with
  | ok hab => exact .ok (hRQ _ _ hab)
  | error e => exact .error e

end Agree

/-- Both are done, with related results, or both fail with the same failure, or both are dropped. -/
inductive Ended.Agrees {α β : Type} (R : α → β → Prop) : Ended α → Ended β → Prop where
  | done {a : α} {b : β} (h : R a b) : Agrees R (.done a) (.done b)
  | failed (f : Failure) : Agrees R (.failed f) (.failed f)
  | dropped : Agrees R .dropped .dropped

theorem Ended.Agrees.eq {α : Type} {e e' : Ended α} (h : e.Agrees Eq e') : e = e' := by
  cases h with
  | done h => rw [h]
  | failed f => rfl
  | dropped => rfl

namespace Call

variable {σ τ α β α' β' : Type} {S : σ → σ → Prop} {R : α → β → Prop} {Q : α' → β' → Prop}

/-- Begun in related states, the calls end in the same way, with related results, and leave related
states. -/
def Relates (S : σ → σ → Prop) (R : α → β → Prop) (c : Call σ α) (d : Call σ β) : Prop :=
  ∀ s t, S s t → (c.run s).1.Agrees R (d.run t).1 ∧ S (c.run s).2 (d.run t).2

namespace Relates

theorem pure {a : α} {b : β} (h : R a b) :
    Relates S R (Pure.pure a : Call σ α) (Pure.pure b : Call σ β) :=
  fun _ _ hst => ⟨.done h, hst⟩

theorem fail (f : Failure) : Relates S R (Call.fail f : Call σ α) (Call.fail f : Call σ β) :=
  fun _ _ hst => ⟨.failed f, hst⟩

theorem view {f : σ → α} {g : σ → β} (h : ∀ s t, S s t → R (f s) (g t)) :
    Relates S R (Call.view f) (Call.view g) :=
  fun s t hst => ⟨.done (h s t hst), hst⟩

theorem modify {f g : σ → σ} (h : ∀ s t, S s t → S (f s) (g t)) :
    Relates S Eq (Call.modify f) (Call.modify g) :=
  fun s t hst => ⟨.done rfl, h s t hst⟩

theorem ofExcept {x : Except Failure α} {y : Except Failure β} (h : Agree R x y) :
    Relates S R (Call.ofExcept x : Call σ α) (Call.ofExcept y : Call σ β) := by
  cases h with
  | ok hab => exact Relates.pure hab
  | error f => exact Relates.fail f

theorem bind {c : Call σ α} {d : Call σ β} {f : α → Call σ α'} {g : β → Call σ β'}
    (hc : Relates S R c d) (hf : ∀ a b, R a b → Relates S Q (f a) (g b)) :
    Relates S Q (c >>= f) (d >>= g) := by
  intro s t hst
  obtain ⟨hend, hafter⟩ := hc s t hst
  cases hs : c.run s with
  | mk e s' =>
    cases ht : d.run t with
    | mk e' t' =>
      rw [hs, ht] at hend hafter
      cases hend with
      | done hab =>
        rw [bind_done hs, bind_done ht]
        exact hf _ _ hab s' t' hafter
      | failed x =>
        rw [bind_failed hs, bind_failed ht]
        exact ⟨.failed x, hafter⟩
      | dropped =>
        rw [bind_dropped hs, bind_dropped ht]
        exact ⟨.dropped, hafter⟩

theorem map {c d : Call σ α} (f : α → β) (h : Relates S Eq c d) :
    Relates S Eq (f <$> c) (f <$> d) :=
  h.bind fun _ _ hab => .pure (congrArg f hab)

theorem forget {c : Call σ α} {d : Call σ β} (h : Relates S R c d) :
    Relates S Eq c.forget d.forget :=
  h.bind fun _ _ _ => .pure rfl

/-- Steps that may wait go alike when both bring something, or neither does. -/
theorem wait {f : σ → Option α × σ} {g : σ → Option β × σ}
    (h : ∀ s t, S s t → Option.Rel R (f s).1 (g t).1 ∧ S (f s).2 (g t).2) :
    Relates S R (Call.wait f) (Call.wait g) := by
  intro s t hst
  obtain ⟨hbrought, hafter⟩ := h s t hst
  unfold run Call.wait
  cases hf : f s with
  | mk o s' =>
    cases hg : g t with
    | mk o' t' =>
      rw [hf, hg] at hbrought hafter
      cases hbrought with
      | some hab => exact ⟨.done hab, hafter⟩
      | none => exact ⟨.dropped, hafter⟩

theorem attempt {c : Call σ α} {d : Call σ β} (h : Relates S R c d) :
    Relates S (Agree R) c.attempt d.attempt := by
  intro s t hst
  obtain ⟨hend, hafter⟩ := h s t hst
  unfold run Call.attempt
  cases hs : c s with
  | mk e s' =>
    cases ht : d t with
    | mk e' t' =>
      rw [show c.run s = (e, s') from hs, show d.run t = (e', t') from ht] at hend hafter
      cases hend with
      | done hab => exact ⟨.done (.ok hab), hafter⟩
      | failed x => exact ⟨.done (.error x), hafter⟩
      | dropped => exact ⟨.dropped, hafter⟩

/-- Calls on a part of the state go alike when they do so on the related parts. -/
theorem within {T : τ → τ → Prop} {part : σ → τ} {replace : τ → σ → σ} {c : Call τ α}
    {d : Call τ β} (h : Relates T R c d) (hpart : ∀ s t, S s t → T (part s) (part t))
    (hreplace : ∀ s t p q, S s t → T p q → S (replace p s) (replace q t)) :
    Relates S R (Call.within part replace c) (Call.within part replace d) := by
  intro s t hst
  obtain ⟨hend, hafter⟩ := h _ _ (hpart s t hst)
  exact ⟨hend, hreplace s t _ _ hst hafter⟩

theorem ite {p : Prop} [Decidable p] {c c' : Call σ α} {d d' : Call σ β} (hc : Relates S R c d)
    (hc' : Relates S R c' d') : Relates S R (if p then c else c') (if p then d else d') := by
  split
  · exact hc
  · exact hc'

end Relates

end Call

end Larder
