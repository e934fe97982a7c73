import Larder.Proofs.SupplierOperations
import Larder.Proofs.Waiting

namespace Larder

open Polling (WatchEnd)

/-- The order is as it was, or awaits its result still. -/
def Order.Stays (o o' : Order) : Prop :=
  o' = o ∨ (o.isAwaiting = true ∧ o'.isAwaiting = true ∧ o'.ticket? = o.ticket?)

theorem Order.Stays.refl (o : Order) : o.Stays o := Or.inl rfl

theorem Order.Stays.trans {o o' o'' : Order} (h : o.Stays o') (h' : o'.Stays o'') :
    o.Stays o'' := by
  rcases h with rfl | ⟨ho, ho', ht⟩
  · exact h'
  · rcases h' with rfl | ⟨_, ho'', ht'⟩
    · exact Or.inr ⟨ho, ho', ht⟩
    · exact Or.inr ⟨ho, ho'', ht'.trans ht⟩

theorem Order.Stays.outcome {o o' : Order} (h : o.Stays o') (ho : o.outcome? = none) :
    o'.outcome? = none := by
  rcases h with rfl | ⟨_, ho', _⟩
  · exact ho
  · obtain ⟨t, rfl | ⟨status, rfl⟩⟩ := Order.isAwaiting_cases ho' <;> rfl

namespace Fridge

/-- What an operation that is not done leaves of a fridge. -/
def Operation.Spares : Operation → Fridge → Fridge → Prop
  | register _, f, f' | login _, f, f' => ∃ line, f' = f.withLine line
  | waitForCompletion, f, f' => f.order.Stays f'.order
  | logout, _, f' => f'.order = .idle
  | _, f, f' => ∃ account, f' = { f with account }

/-- A poll that does not settle the order. -/
theorem poll_stays {f f' : Fridge} {e : Ended Unit} (h : poll.forget.run f = (e, f'))
    (he : e = .done () → f'.order.outcome? = none) : f.order.Stays f'.order := by
  rcases poll_moves.forget.order h with hs | ⟨hd, record, happly⟩
  · exact Or.inl hs
  · obtain ⟨t, ho, hpolled⟩ := Order.applyPoll_cases happly
    have hawaits := hpolled.awaiting (he hd)
    have hticket := hpolled.ticket
    rcases ho with ho | ⟨status, ho⟩ <;> rw [ho] <;> exact Or.inr ⟨rfl, hawaits, hticket⟩

theorem waitForCompletion_stays {f f' : Fridge} {e : Ended (WatchEnd OrderOutcome)}
    (h : waitForCompletion.run f = (e, f')) (he : ∀ a, e ≠ .done a) :
    f.order.Stays f'.order := by
  rcases waitForCompletion_cases h with ⟨o, _, hd, _⟩ | ⟨_, polls, hr⟩
  · exact absurd hd (he _)
  · obtain ⟨_, hend⟩ := hr.invariant (P := fun g => f.order.Stays g.order) (fun _ _ hg => hg)
      (fun p hp hb hn => hb.trans (poll_stays hp.ran hn)) (.refl _)
    exact hend fun o => he _

/-- An operation that fails or is dropped. -/
theorem Operation.spares {op : Operation} {f f' : Fridge} {e : Ended Unit}
    (h : op.call.run f = (e, f')) (he : e ≠ .done ()) : op.Spares f f' := by
  have haccount : op ≠ .logout → op ≠ .waitForCompletion → ∃ account, f' = { f with account } :=
    fun hl hw => (Operation.movesLast hl hw).undone h fun _ => he
  cases op with
  | register r => exact register_line h
  | login l =>
    rcases login_cases h with ⟨hd, _⟩ | ⟨_, hline⟩
    · exact absurd hd he
    · exact hline
  | logout => exact logout_order h
  | waitForCompletion =>
    obtain ⟨ended, hr, hended⟩ := Call.forget_cases h
    apply waitForCompletion_stays hr
    rcases hended with ⟨a, _, rfl⟩ | ⟨x, rfl, _⟩ | ⟨rfl, _⟩
    · exact absurd rfl he
    · simp
    · simp
  | _ => exact haccount (by simp) (by simp)

end Fridge

/-- Whatever a supplier fails to do, it follows what it did before. -/
theorem Supplier.Operation.failed {op : Operation} {s s' : Supplier} {x : Failure}
    (h : op.call.run s = (.failed x, s')) : ∃ line, s' = { s with line } := by
  cases op with
  | register t => exact register_cases h
  | submit b =>
    obtain ⟨ended, hr, ⟨_, _, he⟩ | ⟨y, rfl, _⟩ | ⟨_, he⟩⟩ := Call.forget_cases h
    · cases he
    · exact (submit_cases hr).failed
    · cases he
  | poll => exact (poll_cases (Call.forget_failed h)).failed
  | waitForCompletion =>
    obtain ⟨ended, hr, ⟨_, _, he⟩ | ⟨y, rfl, _⟩ | ⟨_, he⟩⟩ := Call.forget_cases h
    · cases he
    · exact (waitForCompletion_failed hr).2
    · cases he
  | clear => cases h

/-- An operation of a fridge that fails moves nothing on, nor does one of a supplier. -/
theorem failures_spare :
    (∀ (op : Fridge.Operation) (f f' : Fridge) (x : Failure),
      op.call.run f = (.failed x, f') → op.Spares f f') ∧
    ∀ (op : Supplier.Operation) (s s' : Supplier) (x : Failure),
      op.call.run s = (.failed x, s') → ∃ line, s' = { s with line } := by
  constructor
  · intro op f f' x h
    exact op.spares h (by simp)
  · intro op s s' x h
    exact op.failed h

/-- A confirmed order that cannot be asked for, and a delivery that cannot be asked for. -/
theorem failures_spare_unreachable :
    (∃ x f', Fridge.Operation.poll.call.run .patient = (.failed x, f') ∧
      Fridge.Operation.poll.Spares .patient f') ∧
    ∃ x s' line, Supplier.Operation.poll.call.run ⟨.default, {}, some (.submitted "d1")⟩ =
        (.failed x, s') ∧
      s' = ⟨.default, line, some (.submitted "d1")⟩ := by
  constructor
  · have h : Fridge.Operation.poll.call.run .patient =
        (.failed (.unreachable "script exhausted"), _) := Prod.ext (by decide +kernel) rfl
    exact ⟨_, _, h, failures_spare.1 _ _ _ _ h⟩
  · have h : Supplier.Operation.poll.call.run ⟨.default, {}, some (.submitted "d1")⟩ =
        (.failed (.unreachable "script exhausted"), _) := Prod.ext (by decide +kernel) rfl
    obtain ⟨line, hs⟩ := failures_spare.2 _ _ _ _ h
    exact ⟨_, _, line, h, hs⟩

end Larder
