import Larder.Order.Basic
import Larder.Proofs.Disks

namespace Larder.Order

/-- A step that fails leaves the order as it was. -/
def Step.Restores {α : Type} (step : Step α) : Prop :=
  ∀ o x o', step o = (.error x, o') → o' = o

theorem reserve_restores (orderId : String) (items : Wire.Quantities) :
    (reserve orderId items).Restores := by
  intro o x o' h
  unfold reserve at h
  split at h
  · cases h
    rfl
  · split at h <;> cases h
    rfl

theorem confirm_restores : confirm.Restores := by
  intro o x o' h
  cases o <;> cases h <;> rfl

theorem release_restores : release.Restores := by
  intro o x o' h
  cases o <;> cases h <;> rfl

theorem applyPoll_restores (record : Option Wire.OrderRecord) : (applyPoll record).Restores := by
  intro o x o' h
  cases o <;> cases h <;> rfl

theorem acknowledge_restores : acknowledge.Restores := by
  intro o x o' h
  cases o <;> cases h <;> rfl

/-- What a poll can make of an order with a ticket. -/
inductive Polled (t : Ticket) : Order → Prop where
  | inProgress (status : String) : Polled t (inProgress t status)
  | completed (totalPrice : Decimal) : Polled t (completed t totalPrice)
  | failed (status : String) : Polled t (failed t status)
  | cancelled : Polled t (cancelled t)

theorem checkCanPreview_ok {o : Order} (h : o.checkCanPreview = .ok ()) : o = idle := by
  cases o with
  | idle => rfl
  | _ => cases h

theorem reserve_cases {orderId : String} {items : Wire.Quantities} {o o' : Order}
    (h : reserve orderId items o = (.ok (), o')) :
    o = idle ∧ orderId ≠ "" ∧ o' = reserved ⟨orderId, items⟩ := by
  unfold reserve at h
  split at h
  · cases h
  · rename_i hu
    split at h
    · cases h
    · rename_i hne
      cases h
      exact ⟨checkCanPreview_ok hu, by simpa using hne, rfl⟩

theorem confirm_cases {o o' : Order} (h : o.confirm = (.ok (), o')) :
    ∃ t, o = reserved t ∧ o' = confirming t := by
  cases o with
  | reserved t =>
    cases h
    exact ⟨t, rfl, rfl⟩
  | _ => cases h

theorem release_cases {o o' : Order} {orderId : String} (h : o.release = (.ok orderId, o')) :
    ∃ t, o = reserved t ∧ orderId = t.orderId ∧ o' = idle := by
  cases o with
  | reserved t =>
    cases h
    exact ⟨t, rfl, rfl, rfl⟩
  | _ => cases h

theorem afterRecord_polled (t : Ticket) (record : Wire.OrderRecord) :
    Polled t (afterRecord t record) := by
  unfold afterRecord
  split
  · exact .completed _
  · exact .failed _
  · exact .cancelled
  · exact .inProgress _

theorem afterPoll_polled (t : Ticket) (lastStatus : String) (record : Option Wire.OrderRecord) :
    Polled t (afterPoll t lastStatus record) := by
  unfold afterPoll
  split
  · exact afterRecord_polled t _
  · exact .inProgress _

/-- An order that awaits its result is confirmed, or a poll has found it pending. -/
theorem isAwaiting_cases {o : Order} (h : o.isAwaiting = true) :
    ∃ t, o = confirming t ∨ ∃ status, o = inProgress t status := by
  cases o with
  | confirming t => exact ⟨t, Or.inl rfl⟩
  | inProgress t status => exact ⟨t, Or.inr ⟨status, rfl⟩⟩
  | _ => cases h

theorem applyPoll_cases {record : Option Wire.OrderRecord} {o o' : Order} {status : OrderStatus}
    (h : applyPoll record o = (.ok status, o')) :
    ∃ t, (o = confirming t ∨ ∃ status, o = inProgress t status) ∧ Polled t o' := by
  cases o with
  | confirming t =>
    cases h
    exact ⟨t, Or.inl rfl, afterPoll_polled t "" record⟩
  | inProgress t last =>
    cases h
    exact ⟨t, Or.inr ⟨last, rfl⟩, afterPoll_polled t last record⟩
  | _ => cases h

theorem applyPoll_status {record : Option Wire.OrderRecord} {o o' : Order} {status : OrderStatus}
    (h : applyPoll record o = (.ok status, o')) : status = o'.status := by
  cases o <;> cases h <;> rfl

/-- A poll is always allowed for an order that awaits its result. -/
theorem applyPoll_of_awaiting (record : Option Wire.OrderRecord) {o : Order}
    (h : o.isAwaiting = true) : ∃ o', applyPoll record o = (.ok o'.status, o') := by
  obtain ⟨t, rfl | ⟨status, rfl⟩⟩ := isAwaiting_cases h
  · exact ⟨_, rfl⟩
  · exact ⟨_, rfl⟩

theorem acknowledge_cases {o o' : Order} {outcome : OrderOutcome}
    (h : o.acknowledge = (.ok outcome, o')) : o.outcome? = some outcome ∧ o' = idle := by
  unfold acknowledge at h
  split at h
  · rename_i ho
    cases h
    exact ⟨ho, rfl⟩
  · cases h

theorem isTerminal_iff (o : Order) : o.isTerminal = true ↔ o.outcome?.isSome := by
  cases o <;> simp [isTerminal, outcome?]

theorem Polled.ticket {t : Ticket} {o : Order} (h : Polled t o) : o.ticket? = some t := by
  cases h <;> rfl

/-- A poll settles an order or leaves it awaiting. -/
theorem Polled.awaiting {t : Ticket} {o : Order} (h : Polled t o) (ho : o.outcome? = none) :
    o.isAwaiting = true := by
  cases h with
  | inProgress => rfl
  | _ => cases ho

end Larder.Order
