import Larder.Proofs.Carts
import Larder.Proofs.OrderCourse

namespace Larder

open Polling (classify failureMark)

structure Ticket.Proper (t : Ticket) : Prop where
  orderId : t.orderId ≠ ""
  items : t.items.Orderable

namespace Order

/-- What holds of every order that a fridge can have. -/
structure Proper (o : Order) : Prop where
  ticket : o ≠ .idle → ∃ t, o.ticket? = some t ∧ t.Proper
  pending : ∀ t status, o = .inProgress t status → classify status = .pending
  failed : ∀ t status, o = .failed t status → failureMark <:+: status.toList
  priced : o.totalPrice?.isSome → ∃ t total, o = .completed t total
  settled : o.outcome?.isSome ↔ (∃ t total, o = .completed t total) ∨
    (∃ t status, o = .failed t status) ∨ ∃ t, o = .cancelled t

variable {o o' : Order} {t : Ticket} {status : String}

/-- Only the ticket and the status are left to check. -/
theorem proper_of_ticket (ht : o.ticket? = some t) (hp : t.Proper)
    (hpending : ∀ u status, o = .inProgress u status → classify status = .pending)
    (hfailed : ∀ u status, o = .failed u status → failureMark <:+: status.toList) :
    o.Proper where
  ticket _ := ⟨t, ht, hp⟩
  pending := hpending
  failed := hfailed
  priced := by cases o <;> simp [totalPrice?]
  settled := by cases o <;> simp [outcome?]

theorem proper_idle : idle.Proper where
  ticket h := absurd rfl h
  pending := by simp
  failed := by simp
  priced := by simp [totalPrice?]
  settled := by simp [outcome?]

theorem Proper.ticket_proper (h : o.Proper) (ht : o.ticket? = some t) : t.Proper := by
  have hne : o ≠ .idle := by
    rintro rfl
    cases ht
  obtain ⟨u, hu, hp⟩ := h.ticket hne
  rw [ht] at hu
  cases hu
  exact hp

theorem proper_inProgress (hp : t.Proper) (hs : classify status = .pending) :
    (inProgress t status).Proper := by
  apply proper_of_ticket rfl hp
  · intro u s he
    cases he
    exact hs
  · simp

theorem afterRecord_proper (hp : t.Proper) (r : Wire.OrderRecord) : (afterRecord t r).Proper := by
  unfold afterRecord
  rcases Polling.classify_cases r.status with ⟨hc, _⟩ | ⟨hc, hs⟩ | ⟨hc, _⟩ | ⟨hc, _⟩
  all_goals rw [hc]
  · exact proper_of_ticket rfl hp (by simp) (by simp)
  · apply proper_of_ticket rfl hp (by simp)
    intro u s he
    cases he
    exact hs
  · exact proper_of_ticket rfl hp (by simp) (by simp)
  · exact proper_inProgress hp hc

theorem afterPoll_proper (hp : t.Proper) (hs : classify status = .pending)
    (record : Option Wire.OrderRecord) : (afterPoll t status record).Proper := by
  unfold afterPoll
  split
  · exact afterRecord_proper hp _
  · exact proper_inProgress hp hs

/-- A poll remembers a status only as long as it is pending. -/
theorem Proper.applyPoll (h : o.Proper) {record : Option Wire.OrderRecord} {status : OrderStatus}
    (ha : applyPoll record o = (.ok status, o')) : o'.Proper := by
  cases o with
  | confirming t =>
    cases ha
    exact afterPoll_proper (h.ticket_proper rfl) (by decide) record
  | inProgress t last =>
    cases ha
    exact afterPoll_proper (h.ticket_proper rfl) (h.pending t last rfl) record
  | _ => cases ha

theorem Proper.confirming (h : (reserved t).Proper) : (confirming t).Proper :=
  proper_of_ticket rfl (h.ticket_proper rfl) (by simp) (by simp)

end Order

namespace Fridge

theorem Operation.Step.proper {op : Operation} {o o' : Order} (h : op.Step o o') (ho : o.Proper) :
    o'.Proper := by
  cases op with
  | register r => exact h ▸ ho
  | restore => exact h ▸ ho
  | history => exact h ▸ ho
  | lastOrder => exact h ▸ ho
  | waitForCompletion => cases h
  | logout => exact h ▸ Order.proper_idle
  | login l => exact h ▸ Order.proper_idle
  | preview cart =>
    obtain ⟨lines, preview, hlines, hreserve⟩ := h
    obtain ⟨_, hid, rfl⟩ := Order.reserve_cases hreserve
    have hticket : Ticket.Proper ⟨preview.orderId, reservedItems lines preview⟩ :=
      ⟨hid, reservedItems_orderable hlines preview⟩
    exact Order.proper_of_ticket rfl hticket (by simp) (by simp)
  | confirm =>
    obtain ⟨t, rfl, rfl⟩ := Order.confirm_cases h
    exact ho.confirming
  | cancel =>
    obtain ⟨orderId, hrelease⟩ := h
    obtain ⟨_, _, _, rfl⟩ := Order.release_cases hrelease
    exact Order.proper_idle
  | poll =>
    obtain ⟨record, happly⟩ := h
    exact ho.applyPoll happly
  | acknowledge =>
    obtain ⟨outcome, hacknowledge⟩ := h
    obtain ⟨_, rfl⟩ := Order.acknowledge_cases hacknowledge
    exact Order.proper_idle

theorem order_proper_of_run {op : Operation} (hop : op ≠ .waitForCompletion) {f f' : Fridge}
    {e : Ended Unit} (h : op.call.run f = (e, f')) (hf : f.order.Proper) : f'.order.Proper := by
  rcases Operation.step_of_run hop h with hs | ⟨_, hstep⟩
  · exact hs ▸ hf
  · exact hstep.proper hf

/-- What each move keeps lasts over all of them. -/
theorem Linked.invariant {P : Order → Prop} {o o' : Order} {moves : List Move}
    (h : Linked o moves o') (hm : ∀ m ∈ moves, P m.before.order → P m.after.order) (ho : P o) :
    (∀ m ∈ moves, P m.after.order) ∧ P o' := by
  induction h with
  | nil => exact ⟨by simp, ho⟩
  | cons _ ih =>
    obtain ⟨hfirst, hrest⟩ := List.forall_mem_cons.mp hm
    have hafter := hfirst ho
    obtain ⟨hall, hend⟩ := ih hrest hafter
    exact ⟨List.forall_mem_cons.mpr ⟨hafter, hall⟩, hend⟩

/-- A watch is told by its polls, so none of its moves is a watch. -/
theorem Makes.operation_ne {f f' : Fridge} {event : Event} {moves : List Move}
    (h : Makes f event moves f') : ∀ m ∈ moves, m.operation ≠ .waitForCompletion := by
  intro m hm
  cases h with
  | operate hop =>
    rw [List.mem_singleton.mp hm]
    exact hop
  | watch =>
    obtain ⟨p, _, rfl⟩ := List.mem_map.mp hm
    simp [Move.ofPoll]
  | settled => cases hm
  | line => cases hm
  | disk => cases hm

theorem event_proper {f : Fridge} (event : Event) (hf : f.order.Proper) :
    ∃ moves, Makes f event moves (event.after f) ∧ (∀ m ∈ moves, m.after.order.Proper) ∧
      (event.after f).order.Proper := by
  obtain ⟨moves, hmakes, hlinked, hran⟩ := makes_moves f event
  have hkept : ∀ m ∈ moves, m.before.order.Proper → m.after.order.Proper := by
    intro m hm hb
    exact order_proper_of_run (hmakes.operation_ne m hm) (hran m hm).1 hb
  exact ⟨moves, hmakes, hlinked.invariant hkept hf⟩

theorem events_proper {f : Fridge} (events : List Event) (hf : f.order.Proper) :
    ∃ moves, Course f events moves (events.foldl Event.after f) ∧
      (∀ m ∈ moves, m.after.order.Proper) ∧ (events.foldl Event.after f).order.Proper := by
  induction events generalizing f with
  | nil => exact ⟨[], .nil f, by simp, hf⟩
  | cons event events ih =>
    obtain ⟨moves, hmakes, hmoves, hafter⟩ := event_proper event hf
    obtain ⟨rest, hcourse, hrest, hend⟩ := ih hafter
    refine ⟨moves ++ rest, .cons hmakes hcourse, ?_, hend⟩
    exact List.forall_mem_append.mpr ⟨hmoves, hrest⟩

/-- Whatever is done with a new fridge, its order is always as it should be, after every operation
and after every poll of a watch. -/
theorem reached_order_proper (settings : Settings) (vault : Storage.Vault) (disk : Storage.Disk)
    (line : Line) (events : List Event) : ∃ moves,
      Course (new settings vault disk line) events moves
        (events.foldl Event.after (new settings vault disk line)) ∧
      (∀ m ∈ moves, m.after.order.Proper) ∧
      (events.foldl Event.after (new settings vault disk line)).order.Proper :=
  events_proper events Order.proper_idle

end Fridge

end Larder
