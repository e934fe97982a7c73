import Larder.Proofs.Errands
import Larder.Proofs.Orders
import Larder.Proofs.Sessions

namespace Larder

namespace Fridge

/-- The call moves the order when it is done, and then as the relation says; else it leaves
everything but the account as it was. -/
def MovesLast {α : Type} (R : Order → Order → Prop) (c : Call Fridge α) : Prop :=
  ∀ f e f', c.run f = (e, f') →
    (∃ a account order, e = .done a ∧ R f.order order ∧ f' = { f with account, order }) ∨
    ((∀ a, e ≠ .done a) ∧ ∃ account, f' = { f with account })

section MovesLast

variable {α : Type} {R : Order → Order → Prop}

theorem MovesLast.forget {c : Call Fridge α} (hc : MovesLast R c) : MovesLast R c.forget := by
  intro f e f' h
  obtain ⟨ended, hr, he⟩ := Call.forget_cases h
  rcases hc f ended f' hr with ⟨a, account, order, rfl, hm, rfl⟩ | ⟨hn, account, rfl⟩
  · rcases he with ⟨b, _, rfl⟩ | ⟨x, hx, _⟩ | ⟨hd, _⟩
    · exact Or.inl ⟨(), account, order, rfl, hm, rfl⟩
    · cases hx
    · cases hd
  · refine Or.inr ⟨?_, account, rfl⟩
    rcases he with ⟨b, hb, _⟩ | ⟨x, _, rfl⟩ | ⟨_, rfl⟩
    · exact absurd hb (hn b)
    · simp
    · simp

theorem MovesLast.order {c : Call Fridge Unit} {f f' : Fridge} {e : Ended Unit}
    (hc : MovesLast R c) (h : c.run f = (e, f')) :
    f'.order = f.order ∨ (e = .done () ∧ R f.order f'.order) := by
  rcases hc f e f' h with ⟨a, account, order, rfl, hm, rfl⟩ | ⟨_, account, rfl⟩
  · exact Or.inr ⟨rfl, hm⟩
  · exact Or.inl rfl

theorem MovesLast.undone {c : Call Fridge α} {f f' : Fridge} {e : Ended α} (hc : MovesLast R c)
    (h : c.run f = (e, f')) (he : ∀ a, e ≠ .done a) : ∃ account, f' = { f with account } := by
  rcases hc f e f' h with ⟨a, _, _, ha, _, _⟩ | ⟨_, hf⟩
  · exact absurd ha (he a)
  · exact hf

theorem movesLast_onAccount (c : Call Account α) :
    MovesLast (fun o o' => o' = o) (onAccount c) := by
  intro f e f' h
  obtain ⟨account, _, rfl⟩ := onAccount_cases h
  cases e with
  | done a => exact Or.inl ⟨a, account, f.order, rfl, rfl, rfl⟩
  | failed x => exact Or.inr ⟨by simp, account, rfl⟩
  | dropped => exact Or.inr ⟨by simp, account, rfl⟩

/-- An errand that is done has moved the order as its response says. -/
theorem Errand.movesLast {r : Errand α}
    (hR : ∀ response o a o', r.settle response o = (.ok a, o') → R o o') :
    MovesLast R r.call := by
  intro f e f' h
  cases Errand.call_cases h with
  | refused => exact Or.inr ⟨by simp, f.account, rfl⟩
  | failed => exact Or.inr ⟨by simp, _, rfl⟩
  | dropped => exact Or.inr ⟨by simp, _, rfl⟩
  | unsettled => exact Or.inr ⟨by simp, _, rfl⟩
  | settled _ _ hs => exact Or.inl ⟨_, _, _, rfl, hR _ _ _ _ hs, rfl⟩

theorem query_moves (path : String) (read : Response → Except Failure α) :
    MovesLast (fun o o' => o' = o) (query path read).call := by
  apply Errand.movesLast
  intro response o a o' h
  exact (Prod.mk.inj h).2.symm

end MovesLast

theorem register_line {r : Wire.Registration} {f f' : Fridge} {e : Ended Unit}
    (h : (register r).run f = (e, f')) : ∃ line, f' = f.withLine line := by
  obtain ⟨account, ha, rfl⟩ := onAccount_cases h
  obtain ⟨line, rfl⟩ := Account.register_cases ha
  exact ⟨line, rfl⟩

/-- How a login goes: the order is forgotten, or at most the line has changed. -/
theorem login_cases {l : Wire.Login} {f f' : Fridge} {e : Ended Unit}
    (h : (login l).run f = (e, f')) :
    (e = .done () ∧ ∃ account, f' = { f with account, order := .idle }) ∨
    (e ≠ .done () ∧ ∃ line, f' = f.withLine line) := by
  rcases Call.bind_cases h with ⟨u, f₁, ha, hs⟩ | ⟨x, ha, rfl⟩ | ⟨ha, rfl⟩
  all_goals obtain ⟨account, hl, rfl⟩ := onAccount_cases ha
  · cases hs
    exact Or.inl ⟨rfl, account, rfl⟩
  all_goals
    rcases Account.login_cases hl with ⟨_, line, rfl⟩ | ⟨hd, _⟩
    · exact Or.inr ⟨by simp, line, rfl⟩
    · cases hd

/-- Logging out forgets the order, however it ends. -/
theorem logout_order {f f' : Fridge} {e : Ended Unit} (h : logout.run f = (e, f')) :
    f'.order = .idle := by
  unfold logout setOrder at h
  rw [Call.run_modify_bind] at h
  obtain ⟨account, _, rfl⟩ := onAccount_cases h
  rfl

/-- What can be done with a fridge. -/
inductive Operation where
  | register (r : Wire.Registration)
  | login (l : Wire.Login)
  | restore
  | logout
  | preview (cart : List Wire.OrderLine)
  | confirm
  | cancel
  | poll
  | waitForCompletion
  | acknowledge
  | history
  | lastOrder

def Operation.call : Operation → Call Fridge Unit
  | register r => Fridge.register r
  | login l => Fridge.login l
  | restore => Fridge.restore.forget
  | logout => Fridge.logout
  | preview cart => Fridge.preview cart
  | confirm => Fridge.confirm
  | cancel => Fridge.cancel.forget
  | poll => Fridge.poll.forget
  | waitForCompletion => Fridge.waitForCompletion.forget
  | acknowledge => Fridge.acknowledge.forget
  | history => Fridge.history.forget
  | lastOrder => Fridge.lastOrder.forget

/-- What an operation makes of the order when it is done. Waiting makes nothing of it but through
its polls. -/
def Operation.Step : Operation → Order → Order → Prop
  | login _, _, o' | logout, _, o' => o' = .idle
  | preview cart, o, o' => ∃ lines preview, Cart.prepare cart = .ok lines ∧
      o.reserve preview.orderId (reservedItems lines preview) = (.ok (), o')
  | confirm, o, o' => o.confirm = (.ok (), o')
  | cancel, o, o' => ∃ orderId, o.release = (.ok orderId, o')
  | poll, o, o' => ∃ record, o.applyPoll record = (.ok o'.status, o')
  | acknowledge, o, o' => ∃ outcome, o.acknowledge = (.ok outcome, o')
  | waitForCompletion, _, _ => False
  | register _, o, o' | restore, o, o' | history, o, o' | lastOrder, o, o' => o' = o

section Step

variable (cart : List Wire.OrderLine) (l : Wire.Login)

theorem login_moves : MovesLast (Operation.login l).Step (login l) := by
  intro f e f' h
  rcases login_cases h with ⟨rfl, account, rfl⟩ | ⟨he, line, rfl⟩
  · exact Or.inl ⟨(), account, .idle, rfl, rfl, rfl⟩
  · exact Or.inr ⟨fun _ => he, _, rfl⟩

theorem preview_moves : MovesLast (Operation.preview cart).Step (preview cart) := by
  rw [preview_eq]
  apply Errand.movesLast
  intro response o a o' h
  obtain ⟨lines, hlines, h⟩ := Order.Step.given_ok h
  obtain ⟨preview, _, h⟩ := Order.Step.given_ok h
  exact ⟨lines, preview, hlines, h⟩

theorem confirm_moves : MovesLast Operation.confirm.Step confirm := by
  rw [confirm_eq]
  apply Errand.movesLast
  intro response o a o' h
  obtain ⟨_, _, h⟩ := Order.Step.given_ok h
  exact h

theorem cancel_moves : MovesLast Operation.cancel.Step cancel := by
  rw [cancel_eq]
  apply Errand.movesLast
  intro response o orderId o' h
  obtain ⟨_, _, h⟩ := Order.Step.given_ok h
  exact ⟨orderId, h⟩

theorem poll_moves : MovesLast Operation.poll.Step poll := by
  rw [poll_eq]
  apply Errand.movesLast
  intro response o status o' h
  obtain ⟨record, _, h⟩ := Order.Step.given_ok h
  exact ⟨record, Order.applyPoll_status h ▸ h⟩

theorem acknowledge_moves : MovesLast Operation.acknowledge.Step acknowledge := by
  intro f e f' h
  rcases advance_cases Order.acknowledge_restores h with
    ⟨outcome, order, hs, rfl, rfl⟩ | ⟨x, _, rfl, rfl⟩
  · exact Or.inl ⟨outcome, f.account, order, rfl, ⟨outcome, hs⟩, rfl⟩
  · exact Or.inr ⟨by simp, _, rfl⟩

end Step

/-- A poll that is done reports the state that the order is in then. -/
theorem poll_status {f f' : Fridge} {status : OrderStatus}
    (h : poll.run f = (.done status, f')) : status = f'.order.status := by
  rw [poll_eq] at h
  cases Errand.call_cases h with
  | settled _ _ hs =>
    obtain ⟨_, _, hs⟩ := Order.Step.given_ok hs
    exact Order.applyPoll_status hs

/-- Logging out apart, which cannot fail to forget the order, an operation moves it last. -/
theorem Operation.movesLast {op : Operation} (hlogout : op ≠ .logout)
    (hwait : op ≠ .waitForCompletion) : MovesLast op.Step op.call := by
  cases op with
  | register r => exact movesLast_onAccount (Account.register r)
  | login l => exact login_moves l
  | restore => exact (movesLast_onAccount Account.restore).forget
  | logout => exact absurd rfl hlogout
  | preview cart => exact preview_moves cart
  | confirm => exact confirm_moves
  | cancel => exact cancel_moves.forget
  | poll => exact poll_moves.forget
  | waitForCompletion => exact absurd rfl hwait
  | acknowledge => exact acknowledge_moves.forget
  | history =>
    apply MovesLast.forget
    rw [history_eq]
    exact query_moves _ _
  | lastOrder =>
    apply MovesLast.forget
    rw [lastOrder_eq]
    exact query_moves _ _

/-- After any operation but waiting the order is as it was, or the operation has taken its step. -/
theorem Operation.step_of_run {op : Operation} (hwait : op ≠ .waitForCompletion) {f f' : Fridge}
    {e : Ended Unit} (h : op.call.run f = (e, f')) :
    f'.order = f.order ∨ ((e = .done () ∨ op = .logout) ∧ op.Step f.order f'.order) := by
  by_cases hlogout : op = .logout
  · subst hlogout
    exact Or.inr ⟨Or.inr rfl, logout_order h⟩
  · rcases (Operation.movesLast hlogout hwait).order h with hs | ⟨he, hstep⟩
    · exact Or.inl hs
    · exact Or.inr ⟨Or.inl he, hstep⟩

end Fridge

end Larder
