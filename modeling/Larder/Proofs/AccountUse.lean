import Larder.Proofs.OrderCourse

namespace Larder.Fridge

/-- The operations of the account that an operation of a fridge may consist of. -/
def Operation.Uses : Operation → Account.Operation → Prop
  | register r, o => o = .register r
  | login l, o => o = .login l
  | restore, o => o = .restore
  | logout, o => o = .logout
  | acknowledge, _ => False
  | preview _, o | confirm, o | cancel, o | poll, o | waitForCompletion, o | history, o
  | lastOrder, o => ∃ r, o = .call r

theorem Operation.Uses.ne_restore {op : Operation} {o : Account.Operation} (h : op.Uses o)
    (hop : op ≠ .restore) : o ≠ .restore := by
  rintro rfl
  cases op with
  | restore => exact hop rfl
  | register | login | logout => cases h
  | acknowledge => exact h
  | _ => obtain ⟨r, hr⟩ := h; cases hr

section Uses

variable {P : Account → Prop} {α : Type}

/-- The call keeps a property of the account. -/
def Keeps (P : Account → Prop) (c : Call Fridge α) : Prop := c.Preserves fun f => P f.account

theorem keeps_onAccount {c : Call Account α} (hc : c.Preserves P) : Keeps P (onAccount c) :=
  hc.within (fun _ h => h) fun _ _ _ h => h

theorem keeps_setOrder (order : Order) : Keeps P (setOrder order) := .modify fun _ h => h

theorem keeps_advance (step : Order.Step α) : Keeps P (advance step) :=
  (Call.Preserves.view _).bind fun _ => (keeps_setOrder _).bind fun _ =>
    Call.Preserves.ofExcept _

theorem Errand.keeps (r : Errand α) (hP : ∀ q, (Account.authorizedCall q).Preserves P) :
    Keeps P r.call :=
  (Call.Preserves.view _).bind fun _ => (Call.Preserves.ofExcept _).bind fun q =>
    (keeps_onAccount (hP q)).bind fun _ => keeps_advance _

/-- Waiting keeps what a change of the line and its polls keep. -/
theorem waitForCompletion_keeps (hline : ∀ a line, P a → P { a with line }) (hpoll : Keeps P poll) :
    Keeps P waitForCompletion := by
  intro f hf
  rcases waitForCompletion_cases (Prod.eta (waitForCompletion.run f)).symm with
    ⟨_, _, _, hsame⟩ | ⟨_, polls, hr⟩
  · rw [hsame]
    exact hf
  · refine hr.preserves (P := fun f => P f.account) (fun l f h => hline _ l h) ?_ hf
    intro p hp h
    exact hpoll.forget.run hp.ran h

/-- What an operation of a fridge does to the account, its operations of the account do. -/
theorem Operation.keeps {op : Operation} (hline : ∀ a line, P a → P { a with line })
    (huses : ∀ o, op.Uses o → ∀ a, P a → P (o.after a)) : Keeps P op.call := by
  cases op with
  | register r => exact keeps_onAccount (huses _ rfl)
  | login l => exact (keeps_onAccount (huses _ rfl)).bind fun _ => keeps_setOrder _
  | restore => exact (keeps_onAccount (huses _ rfl)).forget
  | logout => exact (keeps_setOrder _).bind fun _ => keeps_onAccount (huses _ rfl)
  | acknowledge => exact (keeps_advance _).forget
  | preview cart =>
    rw [Operation.call, preview_eq]
    exact Errand.keeps _ fun q => huses (.call q) ⟨q, rfl⟩
  | confirm =>
    rw [Operation.call, confirm_eq]
    exact Errand.keeps _ fun q => huses (.call q) ⟨q, rfl⟩
  | cancel =>
    rw [Operation.call, cancel_eq]
    exact (Errand.keeps _ fun q => huses (.call q) ⟨q, rfl⟩).forget
  | poll =>
    rw [Operation.call, poll_eq]
    exact (Errand.keeps _ fun q => huses (.call q) ⟨q, rfl⟩).forget
  | history =>
    rw [Operation.call, history_eq]
    exact (Errand.keeps _ fun q => huses (.call q) ⟨q, rfl⟩).forget
  | lastOrder =>
    rw [Operation.call, lastOrder_eq]
    exact (Errand.keeps _ fun q => huses (.call q) ⟨q, rfl⟩).forget
  | waitForCompletion =>
    refine (waitForCompletion_keeps hline ?_).forget
    rw [poll_eq]
    exact Errand.keeps _ fun q => huses (.call q) ⟨q, rfl⟩

end Uses

end Larder.Fridge
