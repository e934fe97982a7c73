import Larder.Command.Run
import Larder.Proofs.Conduct

namespace Larder

/-- The call does the same, and comes to the same, where a part of the state that it has nothing to
do with is changed. -/
def Call.Ignores {σ α : Type} (change : σ → σ) (c : Call σ α) : Prop :=
  ∀ s, c.run (change s) = ((c.run s).1, change (c.run s).2)

section Ignores

variable {σ τ α β : Type} {change : σ → σ}

theorem Call.Ignores.ofExcept (x : Except Failure α) :
    Call.Ignores change (Call.ofExcept x : Call σ α) := by
  intro s
  cases x <;> rfl

theorem Call.Ignores.pure (a : α) : Call.Ignores change (Pure.pure a : Call σ α) := fun _ => rfl

theorem Call.Ignores.bind {c : Call σ α} {f : α → Call σ β} (hc : Call.Ignores change c)
    (hf : ∀ a, Call.Ignores change (f a)) : Call.Ignores change (c >>= f) := by
  intro s
  have hs := hc s
  generalize hrun : c.run s = p at hs
  obtain ⟨e, t⟩ := p
  cases e with
  | done a =>
    rw [Call.bind_done hrun, Call.bind_done hs]
    exact hf a t
  | failed x => rw [Call.bind_failed hrun, Call.bind_failed hs]
  | dropped => rw [Call.bind_dropped hrun, Call.bind_dropped hs]

theorem Call.Ignores.wait {f : σ → Option α × σ}
    (hf : ∀ s, f (change s) = ((f s).1, change (f s).2)) : Call.Ignores change (Call.wait f) := by
  intro s
  have hs := hf s
  generalize hrun : f s = p at hs
  obtain ⟨o, t⟩ := p
  cases o <;> simp [Call.run, Call.wait, hs, hrun]

end Ignores

namespace Command

namespace Script

variable {σ α β : Type}

/-- How a script ends that starts at a console, and the console it leaves. -/
def run (s : Script σ α) (c : Console σ) : Except Halt α × Console σ := s c

/-- A bound script that ends: the first part is over and the rest ends so, or the first part stops
and the rest is never begun. -/
theorem bind_cases {s : Script σ α} {f : α → Script σ β} {c c' : Console σ} {x : Except Halt β}
    (h : (s >>= f).run c = (x, c')) :
    (∃ a m, s.run c = (.ok a, m) ∧ (f a).run m = (x, c')) ∨
    ∃ w, s.run c = (.error w, c') ∧ x = .error w := by
  change Script.bind s f c = (x, c') at h
  unfold Script.bind at h
  cases hs : s c with
  | mk y m =>
    rw [hs] at h
    cases y with
    | ok a => exact Or.inl ⟨a, m, hs, h⟩
    | error w =>
      cases h
      exact Or.inr ⟨w, hs, rfl⟩

theorem bind_ok {s : Script σ α} {f : α → Script σ β} {c m : Console σ} {a : α}
    (h : s.run c = (.ok a, m)) : (s >>= f).run c = (f a).run m := by
  change Script.bind s f c = (f a).run m
  unfold Script.bind
  rw [show s c = (.ok a, m) from h]
  rfl

theorem bind_error {s : Script σ α} {f : α → Script σ β} {c m : Console σ} {w : Halt}
    (h : s.run c = (.error w, m)) : (s >>= f).run c = (.error w, m) := by
  change Script.bind s f c = (.error w, m)
  unfold Script.bind
  rw [show s c = (.error w, m) from h]

/-- A call in a script leaves its state at the console. -/
theorem call_cases {k : Call σ α} {c c' : Console σ} {x : Except Halt α}
    (h : (Script.call k).run c = (x, c')) :
    ∃ e t, k.run c.state = (e, t) ∧ c' = { c with state := t } ∧
      ((∃ a, e = .done a ∧ x = .ok a) ∨
       (∃ f, e = .failed f ∧ x = .error (.told f.userMessage)) ∨
       (e = .dropped ∧ x = .error .dropped)) := by
  simp only [run, Script.call] at h
  split at h <;> cases h <;> rename_i hk
  · exact ⟨_, _, hk, rfl, Or.inl ⟨_, rfl, rfl⟩⟩
  · exact ⟨_, _, hk, rfl, Or.inr (Or.inl ⟨_, rfl, rfl⟩)⟩
  · exact ⟨_, _, hk, rfl, Or.inr (Or.inr ⟨rfl, rfl⟩)⟩

theorem call_done {k : Call σ α} {c : Console σ} {a : α} {t : σ}
    (h : k.run c.state = (.done a, t)) :
    (Script.call k).run c = (.ok a, { c with state := t }) := by
  simp only [run, Script.call]
  rw [show k c.state = (.done a, t) from h]

/-- The script goes to its end. -/
def Completes (s : Script σ Unit) (c : Console σ) : Prop := (s.run c).1 = .ok ()

section Completes

variable {c : Console σ} {f : α → Script σ Unit}

@[simp] theorem completes_print (line : String) : (Script.print line).Completes c := rfl

@[simp] theorem not_completes_stop (m : String) :
    ¬ (Script.stop m : Script σ Unit).Completes c := by
  intro h
  cases h

@[simp] theorem completes_print_bind (line : String) (f : Unit → Script σ Unit) :
    (Script.print line >>= f).Completes c ↔
      (f ()).Completes { c with printed := c.printed ++ [line] } := Iff.rfl

theorem completes_bind {s : Script σ α} :
    (s >>= f).Completes c ↔ ∃ a m, s.run c = (.ok a, m) ∧ (f a).Completes m := by
  constructor
  · intro h
    rcases bind_cases (Prod.eta ((s >>= f).run c)).symm with ⟨a, m, ha, hr⟩ | ⟨w, _, hw⟩
    · refine ⟨a, m, ha, ?_⟩
      unfold Completes
      rw [hr]
      exact h
    · have hne : ((s >>= f).run c).1 = .ok () := h
      rw [hw] at hne
      cases hne
  · rintro ⟨a, m, ha, h⟩
    unfold Completes
    rw [bind_ok ha]
    exact h

/-- A script that makes a call goes on when the call is done. -/
theorem completes_call_bind {k : Call σ α} : (Script.call k >>= f).Completes c ↔
    ∃ a t, k.run c.state = (.done a, t) ∧ (f a).Completes { c with state := t } := by
  rw [completes_bind]
  constructor
  · rintro ⟨a, m, hk, h⟩
    obtain ⟨e, t, hrun, rfl, ⟨b, rfl, hb⟩ | ⟨y, _, hy⟩ | ⟨_, hd⟩⟩ := call_cases hk
    · cases hb
      exact ⟨_, t, hrun, h⟩
    · cases hy
    · cases hd
  · rintro ⟨a, t, hrun, h⟩
    exact ⟨a, _, call_done hrun, h⟩

end Completes

/-- However the script ends, the relation holds of the states around it. -/
def Leaves (R : σ → List Exchange → σ → Prop) (s : Script σ α) : Prop :=
  ∀ c x c', s.run c = (x, c') → ∃ xs, R c.state xs c'.state

section Leaves

variable {R : σ → List Exchange → σ → Prop}

theorem Leaves.pure (hR : Trail R) (a : α) : Leaves R (Pure.pure a : Script σ α) := by
  intro c x c' h
  cases h
  exact ⟨[], hR.nil _⟩

theorem Leaves.print (hR : Trail R) (line : String) : Leaves R (Script.print (σ := σ) line) := by
  intro c x c' h
  cases h
  exact ⟨[], hR.nil _⟩

/-- A script that only prints. -/
theorem Leaves.of_printed (hR : Trail R) {s : Script σ α} {a : α}
    (hs : ∀ c, ∃ printed, s.run c = (.ok a, { c with printed })) : Leaves R s := by
  intro c x c' h
  obtain ⟨printed, hp⟩ := hs c
  rw [hp] at h
  cases h
  exact ⟨[], hR.nil _⟩

theorem Leaves.stop (hR : Trail R) (m : String) : Leaves R (Script.stop m : Script σ α) := by
  intro c x c' h
  cases h
  exact ⟨[], hR.nil _⟩

theorem Leaves.view (hR : Trail R) (f : σ → α) : Leaves R (Script.view f) := by
  intro c x c' h
  cases h
  exact ⟨[], hR.nil _⟩

theorem Leaves.call {k : Call σ α} (hk : k.Leaves R) : Leaves R (Script.call k) := by
  intro c x c' h
  obtain ⟨e, t, hrun, rfl, _⟩ := call_cases h
  exact hk _ e t hrun

theorem Leaves.bind (hR : Trail R) {s : Script σ α} {f : α → Script σ β} (hs : Leaves R s)
    (hf : ∀ a, Leaves R (f a)) : Leaves R (s >>= f) := by
  intro c x c' h
  rcases bind_cases h with ⟨a, m, ha, hr⟩ | ⟨w, hw, _⟩
  · obtain ⟨xs, hxs⟩ := hs c _ m ha
    obtain ⟨ys, hys⟩ := hf a m x c' hr
    exact ⟨xs ++ ys, hR.append hxs hys⟩
  · exact hs c _ c' hw

end Leaves

/-- The script does the same, and comes to the same, where a part of the state that it has nothing
to do with is changed. -/
def Ignores (change : σ → σ) (s : Script σ α) : Prop :=
  ∀ c, s.run { c with state := change c.state } =
    ((s.run c).1, { (s.run c).2 with state := change (s.run c).2.state })

section Ignores

variable {change : σ → σ}

theorem Ignores.print (line : String) : Ignores change (Script.print (σ := σ) line) := fun _ => rfl

theorem Ignores.call {k : Call σ α} (hk : k.Ignores change) : Ignores change (Script.call k) := by
  intro c
  have hs := hk c.state
  generalize hrun : k.run c.state = p at hs
  obtain ⟨e, t⟩ := p
  have h₁ : k c.state = (e, t) := hrun
  have h₂ : k (change c.state) = (e, change t) := hs
  cases e <;> simp only [run, Script.call, h₁, h₂]

theorem Ignores.bind {s : Script σ α} {f : α → Script σ β} (hs : Ignores change s)
    (hf : ∀ a, Ignores change (f a)) : Ignores change (s >>= f) := by
  intro c
  have hc := hs c
  generalize hrun : s.run c = p at hc
  obtain ⟨x, m⟩ := p
  cases x with
  | ok a =>
    rw [bind_ok hrun, bind_ok hc]
    exact hf a m
  | error w => rw [bind_error hrun, bind_error hc]

end Ignores

end Script

section Printing

/-- Printing lines changes nothing but what is printed. -/
theorem printItems_run (items : List (String × UInt32)) (c : Console Fridge) :
    ∃ printed, (printItems items).run c = (.ok (), { c with printed }) := by
  induction items generalizing c with
  | nil => exact ⟨c.printed, rfl⟩
  | cons item items ih => exact ih { c with printed := _ }

theorem printRecords_run (records : List Wire.OrderRecord) (c : Console Fridge) :
    ∃ printed, (printRecords records).run c = (.ok (), { c with printed }) := by
  induction records generalizing c with
  | nil => exact ⟨c.printed, rfl⟩
  | cons r records ih => exact ih { c with printed := _ }

/-- A task starts when a session has been restored, and says so when there is none. -/
theorem restored_cases {c c' : Console Fridge} {x : Except Halt Unit}
    (h : restored.run c = (x, c')) :
    (∃ f, Fridge.restore.run c.state = (.done true, f) ∧ x = .ok () ∧
      c' = { c with state := f }) ∨
    (∃ e f, Fridge.restore.run c.state = (e, f) ∧ e ≠ .done true ∧ (∃ w, x = .error w) ∧
      c' = { c with state := f }) := by
  unfold restored at h
  rcases Script.bind_cases h with ⟨b, m, hb, hr⟩ | ⟨w, hw, rfl⟩
  · obtain ⟨e, f, hrun, rfl, ⟨_, rfl, hx⟩ | ⟨_, _, hx⟩ | ⟨_, hx⟩⟩ := Script.call_cases hb
    · cases hx
      cases b with
      | true =>
        cases hr
        exact Or.inl ⟨f, hrun, rfl, rfl⟩
      | false =>
        cases hr
        exact Or.inr ⟨_, f, hrun, by simp, ⟨_, rfl⟩, rfl⟩
    · cases hx
    · cases hx
  · obtain ⟨e, f, hrun, rfl, he⟩ := Script.call_cases hw
    refine Or.inr ⟨e, f, hrun, ?_, ⟨w, rfl⟩, rfl⟩
    rintro rfl
    rcases he with ⟨_, _, hx⟩ | ⟨_, he, _⟩ | ⟨he, _⟩
    · cases hx
    · cases he
    · cases he

end Printing

end Command

end Larder
