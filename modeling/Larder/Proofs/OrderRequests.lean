import Larder.Proofs.Turns

namespace Larder.Fridge

/-- A decision that the service has accepted. -/
def IsAccepted (x : Exchange) : Prop :=
  IsDecision x.request ∧ Exchange.Brings (some x) (·.isSuccess = true)

namespace Turn

def Decides (t : Turn) : Prop := ∃ x ∈ t.exchanges, IsDecision x.request

/-- A decision of the turn is accepted. -/
def Settles (t : Turn) : Prop := ∃ x ∈ t.exchanges, IsAccepted x

/-- The turn is a preview that reserves an order. -/
def Reserves (t : Turn) : Prop := ∃ cart ticket, t.operation = .preview cart ∧
  t.ended = .done () ∧ t.before.order = .idle ∧ t.after.order = .reserved ticket

end Turn

theorem Edge.reserved {op : Operation} {e : Ended Unit} {o : Order} {t : Ticket}
    (h : Edge op e o (.reserved t)) : (∃ cart, op = .preview cart) ∧ e = .done () ∧ o = .idle := by
  cases h with
  | reserve => exact ⟨⟨_, rfl⟩, rfl, rfl⟩
  | pollFirst hp => cases hp
  | pollAgain hp => cases hp

/-- Only a preview makes an order a reserved one. -/
theorem Turn.Told.reserves {t : Turn} (h : t.Told) (hb : ∀ u, t.before.order ≠ .reserved u)
    {u : Ticket} (ha : t.after.order = .reserved u) : t.Reserves := by
  rcases h.isEdge with hs | hedge
  · exact absurd (hs.symm.trans ha) (hb u)
  · rw [ha] at hedge
    obtain ⟨⟨cart, hop⟩, he, ho⟩ := hedge.reserved
    exact ⟨cart, u, hop, he, ho, ha⟩

section Requests

variable {a : Account} {op : Operation} {o : Order} {r : Request}

/-- A decision is about the reservation that is there. -/
theorem calls_decision (h : Calls op o r) (hd : IsDecision r) : ∃ t, o = .reserved t ∧
    r.body = some (.object [("order_id", .text t.orderId)]) := by
  cases h with
  | preview => exact absurd hd (not_isDecision_of_path (Or.inl rfl))
  | confirm t => exact ⟨t, rfl, rfl⟩
  | cancel t => exact ⟨t, rfl, rfl⟩
  | poll => exact absurd hd (not_isDecision_of_path (Or.inr (Or.inl rfl)))
  | lastOrder => exact absurd hd (not_isDecision_of_path (Or.inr (Or.inl rfl)))
  | history => exact absurd hd (not_isDecision_of_path (Or.inr (Or.inr rfl)))

theorem calls_preview (h : Calls op o r) (hp : r.path = previewPath) : o = .idle := by
  cases h with
  | preview => rfl
  | confirm t => exact absurd hp (show ¬ confirmPath = previewPath by decide)
  | cancel t => exact absurd hp (show ¬ cancelPath = previewPath by decide)
  | poll => exact absurd hp (by decide)
  | lastOrder => exact absurd hp (by decide)
  | history => exact absurd hp (by decide)

theorem sends_decision (h : Account.Sends (Calls op o) a r) (hd : IsDecision r) : ∃ t,
    o = .reserved t ∧ r.body = some (.object [("order_id", .text t.orderId)]) := by
  have hstep : IsStep r := Or.inr hd
  obtain ⟨q, token, hq, _, rfl⟩ := sends_protected h hstep.path
  exact calls_decision (r := q) hq hd

theorem sends_preview (h : Account.Sends (Calls op o) a r) (hp : r.path = previewPath) :
    o = .idle := by
  have hstep : IsStep r := Or.inl hp
  obtain ⟨q, token, hq, _, rfl⟩ := sends_protected h hstep.path
  exact calls_preview (r := q) hq hp

end Requests

/-- After an accepted decision no other one goes out in the turn. -/
theorem Sparing.accepted {xs : List Exchange} (h : Sparing xs) :
    xs.Pairwise fun x y => IsAccepted x → ¬ IsDecision y.request := by
  refine h.pairwise.imp ?_
  intro x y hxy hx hy
  refine (hxy (Or.inr hx.1) (Or.inr hy)).excludes ?_ hx.2
  intro z hz
  simp [Response.isSuccess, hz]

/-- What lies between two moves takes the order that the first has left to the one that the second
starts with. -/
theorem Linked.between {o o' : Order} {earlier between later : List Move} {m n : Move}
    (h : Linked o (earlier ++ m :: (between ++ n :: later)) o') :
    Linked m.after.order between n.before.order := by
  obtain ⟨o₁, _, h⟩ := h.split
  cases h with
  | cons h =>
    obtain ⟨o₂, hbetween, h⟩ := h.split
    cases h with
    | cons => exact hbetween

/-- A fridge cannot come to a reserved order again but through a preview. -/
theorem exists_reserves {o o' : Order} {turns : List Turn} {u : Ticket}
    (h : Linked o (turns.map Turn.toMove) o') (ht : ∀ t ∈ turns, t.Told)
    (ho : ∀ u, o ≠ .reserved u) (ho' : o' = .reserved u) : ∃ t ∈ turns, t.Reserves := by
  refine Classical.byContradiction fun hnone => ?_
  have hkept : ∀ m ∈ turns.map Turn.toMove, (∀ u, m.before.order ≠ .reserved u) →
      ∀ u, m.after.order ≠ .reserved u := by
    intro m hm hb u ha
    obtain ⟨t, hmem, rfl⟩ := List.mem_map.mp hm
    exact hnone ⟨t, hmem, (ht t hmem).reserves hb ha⟩
  exact (h.invariant (P := fun o => ∀ u, o ≠ .reserved u) hkept ho).2 u ho'

/-- Whatever is done with a fridge, its requests for the order fit the order that it has, no
decision comes after an accepted one until another order is reserved, and no request for a step goes
out more than twice in a turn. -/
theorem order_requests (f : Fridge) (events : List Event) : ∃ turns : List Turn,
    Course f events (turns.map Turn.toMove) (events.foldl Event.after f) ∧
    (∀ t ∈ turns, t.Told ∧
      t.after.line.sent = t.before.line.sent ++ t.exchanges.map Exchange.request) ∧
    (∀ t ∈ turns, ∀ x ∈ t.exchanges,
      (IsDecision x.request → ∃ ticket, t.before.order = .reserved ticket ∧
        x.request.body = some (.object [("order_id", .text ticket.orderId)])) ∧
      (x.request.path = previewPath → t.before.order = .idle)) ∧
    (∀ t ∈ turns, Sparing t.exchanges ∧
      t.exchanges.Pairwise fun x y => IsAccepted x → ¬ IsDecision y.request) ∧
    ∀ earlier t between u later, turns = earlier ++ t :: (between ++ u :: later) →
      t.Settles → u.Decides → ∃ v ∈ between, v.Reserves := by
  obtain ⟨turns, hcourse, htold⟩ := exists_course f events
  have hsends : ∀ t ∈ turns, ∀ x ∈ t.exchanges, ∃ a,
      Account.Sends (Calls t.operation t.before.order) a x.request := by
    intro t ht x hx
    obtain ⟨a, ha⟩ := Account.mem_exchanges.mp hx
    exact ⟨a, (htold t ht).story.sends ha⟩
  have hdecision : ∀ t ∈ turns, ∀ x ∈ t.exchanges, IsDecision x.request → ∃ ticket,
      t.before.order = .reserved ticket ∧
        x.request.body = some (.object [("order_id", .text ticket.orderId)]) := by
    intro t ht x hx hd
    obtain ⟨a, ha⟩ := hsends t ht x hx
    exact sends_decision ha hd
  refine ⟨turns, hcourse, fun t ht => ⟨htold t ht, (htold t ht).sent_eq⟩, ?_, ?_, ?_⟩
  · intro t ht x hx
    refine ⟨hdecision t ht x hx, ?_⟩
    intro hp
    obtain ⟨a, ha⟩ := hsends t ht x hx
    exact sends_preview ha hp
  · exact fun t ht => ⟨(htold t ht).sparing, (htold t ht).sparing.accepted⟩
  · rintro earlier t between u later rfl ⟨x, hx, hdecides, hsuccess⟩ ⟨y, hy, hagain⟩
    have hsettled := (htold t (by simp)).accepted x hx hdecides hsuccess
    obtain ⟨ticket, hreserved, _⟩ := hdecision u (by simp) y hy hagain
    have hlinked := hcourse.joined.linked
    rw [List.map_append, List.map_cons, List.map_append, List.map_cons] at hlinked
    exact exists_reserves hlinked.between (fun v hv => htold v (by simp [hv])) hsettled hreserved

end Larder.Fridge
