import Larder.Proofs.FridgeOperations
import Larder.Proofs.Watches

namespace Larder

open Polling (Asked Watch)

/-- The later order is still the same one, and what settled the earlier one stands. -/
structure Order.Persists (o o' : Order) : Prop where
  ticket : o'.ticket? = o.ticket?
  totalPrice : ∀ price, o.totalPrice? = some price → o'.totalPrice? = some price
  failed : ∀ t status, o = .failed t status → o' = .failed t status

theorem Order.Persists.refl (o : Order) : o.Persists o := ⟨rfl, fun _ h => h, fun _ _ h => h⟩

theorem Order.Persists.trans {o o' o'' : Order} (h : o.Persists o') (h' : o'.Persists o'') :
    o.Persists o'' where
  ticket := h'.ticket.trans h.ticket
  totalPrice price hp := h'.totalPrice price (h.totalPrice price hp)
  failed t status hs := h'.failed t status (h.failed t status hs)

namespace Fridge

/-- The edges of the state machine, each with the operation that takes it and how that ends. -/
inductive Edge : Operation → Ended Unit → Order → Order → Prop where
  | reserve {cart : List Wire.OrderLine} {t : Ticket} :
      Edge (.preview cart) (.done ()) .idle (.reserved t)
  | confirm {t : Ticket} : Edge .confirm (.done ()) (.reserved t) (.confirming t)
  | cancel {t : Ticket} : Edge .cancel (.done ()) (.reserved t) .idle
  | pollFirst {t : Ticket} {o : Order} (ho : Order.Polled t o) :
      Edge .poll (.done ()) (.confirming t) o
  | pollAgain {t : Ticket} {status : String} {o : Order} (ho : Order.Polled t o) :
      Edge .poll (.done ()) (.inProgress t status) o
  | acknowledge {o : Order} (ho : o.isTerminal = true) : Edge .acknowledge (.done ()) o .idle
  | login {l : Wire.Login} {o : Order} : Edge (.login l) (.done ()) o .idle
  | logout {e : Ended Unit} {o : Order} : Edge .logout e o .idle

/-- An edge between two orders that are there keeps what identifies the order. -/
theorem Edge.persists {op : Operation} {e : Ended Unit} {o o' : Order} (h : Edge op e o o')
    (ho : o ≠ .idle) (ho' : o' ≠ .idle) : o.Persists o' := by
  cases h with
  | reserve => exact absurd rfl ho
  | confirm => exact ⟨rfl, by simp [Order.totalPrice?], by simp⟩
  | pollFirst hp => exact ⟨hp.ticket, by simp [Order.totalPrice?], by simp⟩
  | pollAgain hp => exact ⟨hp.ticket, by simp [Order.totalPrice?], by simp⟩
  | _ => exact absurd rfl ho'

/-- One operation other than a watch, or one poll of a watch. -/
structure Move where
  operation : Operation
  ended : Ended Unit
  before : Fridge
  after : Fridge

namespace Move

def ofPoll (p : Asked Fridge) : Move := ⟨.poll, p.ended, p.before, p.after⟩

/-- The move is what the operation does. -/
def Ran (m : Move) : Prop := m.operation.call.run m.before = (m.ended, m.after)

/-- The move leaves the order as it is, or takes an edge. -/
def IsEdge (m : Move) : Prop :=
  m.after.order = m.before.order ∨ Edge m.operation m.ended m.before.order m.after.order

end Move

/-- The step of an operation is an edge, if it changes the order at all. -/
theorem Operation.Step.edge {op : Operation} {o o' : Order} (h : op.Step o o') :
    o' = o ∨ Edge op (.done ()) o o' := by
  cases op with
  | register r => exact Or.inl h
  | restore => exact Or.inl h
  | history => exact Or.inl h
  | lastOrder => exact Or.inl h
  | waitForCompletion => cases h
  | logout =>
    cases h
    exact Or.inr .logout
  | login l =>
    cases h
    exact Or.inr .login
  | preview cart =>
    obtain ⟨lines, preview, _, hreserve⟩ := h
    obtain ⟨rfl, _, rfl⟩ := Order.reserve_cases hreserve
    exact Or.inr .reserve
  | confirm =>
    obtain ⟨t, rfl, rfl⟩ := Order.confirm_cases h
    exact Or.inr .confirm
  | cancel =>
    obtain ⟨orderId, hrelease⟩ := h
    obtain ⟨t, rfl, _, rfl⟩ := Order.release_cases hrelease
    exact Or.inr .cancel
  | poll =>
    obtain ⟨record, happly⟩ := h
    obtain ⟨t, rfl | ⟨status, rfl⟩, hpolled⟩ := Order.applyPoll_cases happly
    · exact Or.inr (.pollFirst hpolled)
    · exact Or.inr (.pollAgain hpolled)
  | acknowledge =>
    obtain ⟨outcome, hacknowledge⟩ := h
    obtain ⟨ho, rfl⟩ := Order.acknowledge_cases hacknowledge
    exact Or.inr (.acknowledge ((Order.isTerminal_iff o).mpr (by simp [ho])))

theorem edge_of_run {op : Operation} (hop : op ≠ .waitForCompletion) {f f' : Fridge}
    {e : Ended Unit} (h : op.call.run f = (e, f')) :
    f'.order = f.order ∨ Edge op e f.order f'.order := by
  rcases Operation.step_of_run hop h with hs | ⟨rfl | rfl, hstep⟩
  · exact Or.inl hs
  · exact hstep.edge
  · have hidle : f'.order = .idle := hstep
    rw [hidle]
    exact Or.inr .logout

/-- Something that happens to a fridge: an operation, or between two operations a change of what
the line will do or of what is on the disk. -/
inductive Event where
  | operate (op : Operation)
  | line (l : Line)
  | disk (d : Storage.Disk)

/-- The fridge after an event, however an operation ended. -/
def Event.after (f : Fridge) : Event → Fridge
  | operate op => (op.call.run f).2
  | line l => f.withLine l
  | disk d => { f with account := { f.account with disk := d } }

/-- The moves that an event makes. A watch of an order that is settled already makes none, and any
other makes those that its polls make. -/
inductive Makes (f : Fridge) : Event → List Move → Fridge → Prop where
  | operate {op : Operation} {e : Ended Unit} {f' : Fridge} (hop : op ≠ .waitForCompletion)
      (h : op.call.run f = (e, f')) : Makes f (.operate op) [⟨op, e, f, f'⟩] f'
  | settled {outcome : OrderOutcome} (ho : f.order.outcome? = some outcome) :
      Makes f (.operate .waitForCompletion) [] f
  | watch {polls : List (Asked Fridge)} {e : Ended (Polling.WatchEnd OrderOutcome)} {f' : Fridge}
      (h : Fridge.waitForCompletion.run f = (e, f'))
      (hr : Fridge.watch.Rounds f.settings.pollInterval
        (max f.settings.maxPollAttempts.toNat 1) 0 f polls e f') :
      Makes f (.operate .waitForCompletion) (polls.map Move.ofPoll) f'
  | line {l : Line} : Makes f (.line l) [] (f.withLine l)
  | disk {d : Storage.Disk} :
      Makes f (.disk d) [] { f with account := { f.account with disk := d } }

/-- The moves that events make, one after the other. -/
inductive Course : Fridge → List Event → List Move → Fridge → Prop where
  | nil (f : Fridge) : Course f [] [] f
  | cons {f f₁ f₂ : Fridge} {event : Event} {events : List Event} {moves rest : List Move}
      (h : Makes f event moves f₁) (hc : Course f₁ events rest f₂) :
      Course f (event :: events) (moves ++ rest) f₂

/-- Each move starts with the order that the one before it has left. -/
inductive Linked : Order → List Move → Order → Prop where
  | nil (o : Order) : Linked o [] o
  | cons {m : Move} {moves : List Move} {o : Order} (h : Linked m.after.order moves o) :
      Linked m.before.order (m :: moves) o

theorem Linked.append {o o' o'' : Order} {moves rest : List Move} (h : Linked o moves o')
    (h' : Linked o' rest o'') : Linked o (moves ++ rest) o'' := by
  induction h with
  | nil => exact h'
  | cons _ ih => exact .cons (ih h')

theorem Linked.split {o o' : Order} {moves rest : List Move} (h : Linked o (moves ++ rest) o') :
    ∃ between, Linked o moves between ∧ Linked between rest o' := by
  induction moves generalizing o with
  | nil => exact ⟨o, .nil o, h⟩
  | cons m moves ih =>
    cases h with
    | cons h =>
      obtain ⟨between, hm, hr⟩ := ih h
      exact ⟨between, .cons hm, hr⟩

theorem Linked.eq_of_nil {o o' : Order} (h : Linked o [] o') : o' = o := by
  generalize hm : ([] : List Move) = moves at h
  cases h with
  | nil => rfl
  | cons => cases hm

theorem Linked.single {o o' : Order} {m : Move} (h : Linked o [m] o') :
    o = m.before.order ∧ o' = m.after.order := by
  generalize hm : [m] = moves at h
  cases h with
  | nil => cases hm
  | cons h =>
    cases hm
    exact ⟨rfl, h.eq_of_nil⟩

/-- Moves along edges that never forget the order keep what identifies it. -/
theorem Linked.persists {o o' : Order} {moves : List Move} (h : Linked o moves o')
    (he : ∀ m ∈ moves, m.IsEdge) (ho : o ≠ .idle)
    (hn : ∀ m ∈ moves, m.after.order ≠ .idle) : o.Persists o' := by
  induction h with
  | nil => exact .refl _
  | @cons m moves o _ ih =>
    have hafter := hn m (by simp)
    have hrest := ih (fun m hm => he m (by simp [hm])) hafter fun m hm => hn m (by simp [hm])
    refine Order.Persists.trans ?_ hrest
    rcases he m (by simp) with hs | hedge
    · rw [hs]
      exact .refl _
    · exact hedge.persists ho hafter

theorem rounds_linked {interval left made : Nat} {f f' : Fridge} {polls : List (Asked Fridge)}
    {e : Ended (Polling.WatchEnd OrderOutcome)}
    (h : watch.Rounds interval left made f polls e f') :
    Linked f.order (polls.map Move.ofPoll) f'.order := by
  have hpause : ∀ {t u : Fridge} {b : Ended Bool},
      (watch.pause interval).run t = (b, u) → u.order = t.order := by
    intro t u b ht
    obtain ⟨o, l, _, rfl, _⟩ := Watch.pause_cases ht
    rfl
  have hone : ∀ (p : Asked Fridge), Linked p.before.order [Move.ofPoll p] p.after.order :=
    fun p => Linked.cons (m := Move.ofPoll p) (.nil _)
  induction h with
  | exhausted => exact .nil _
  | cancelled => exact .nil _
  | settled => exact hone _
  | fatal => exact hone _
  | dropped => exact hone _
  | last => exact hone _
  | @again left made p u v polls e hp hb hs rest ih =>
    rw [hpause hs] at ih
    exact Linked.cons (m := Move.ofPoll p) ih
  | interrupted _ _ hs =>
    rw [hpause hs]
    exact hone _
  | pauseDropped _ _ hs =>
    rw [hpause hs]
    exact hone _

/-- How a watch goes: what is settled is not asked for, and all else in rounds. -/
theorem waitForCompletion_cases {f f' : Fridge} {e : Ended (Polling.WatchEnd OrderOutcome)}
    (h : waitForCompletion.run f = (e, f')) :
    (∃ o, f.order.outcome? = some o ∧ e = .done (.settled o) ∧ f' = f) ∨
    (f.order.outcome? = none ∧ ∃ polls, watch.Rounds f.settings.pollInterval
      (max f.settings.maxPollAttempts.toNat 1) 0 f polls e f') := by
  unfold waitForCompletion at h
  rw [Call.run_view_bind] at h
  exact Watch.run_cases h

/-- Every event makes moves that are linked, each of them what its operation does and an edge. -/
theorem makes_moves (f : Fridge) (event : Event) : ∃ moves,
    Makes f event moves (event.after f) ∧ Linked f.order moves (event.after f).order ∧
      ∀ m ∈ moves, m.Ran ∧ m.IsEdge := by
  cases event with
  | line l => exact ⟨[], .line, .nil _, by simp⟩
  | disk d => exact ⟨[], .disk, .nil _, by simp⟩
  | operate op =>
    by_cases hop : op = .waitForCompletion
    · subst hop
      cases hr : waitForCompletion.run f with
      | mk e f' =>
        have hafter : Event.after f (.operate .waitForCompletion) = f' := by
          obtain ⟨_, hf, _⟩ := Call.forget_cases (Prod.eta (waitForCompletion.forget.run f)).symm
          rw [hr] at hf
          exact (Prod.mk.inj hf).2.symm
        rw [hafter]
        rcases waitForCompletion_cases hr with ⟨o, ho, rfl, rfl⟩ | ⟨_, polls, hrounds⟩
        · exact ⟨[], .settled ho, .nil _, by simp⟩
        · refine ⟨_, .watch hr hrounds, rounds_linked hrounds, ?_⟩
          intro m hm
          obtain ⟨p, hp, rfl⟩ := List.mem_map.mp hm
          have hran := (hrounds.asks p hp).ran
          exact ⟨hran, edge_of_run (by simp [Move.ofPoll]) hran⟩
    · let m : Move := ⟨op, (op.call.run f).1, f, (op.call.run f).2⟩
      refine ⟨[m], .operate hop rfl, Linked.cons (m := m) (.nil _), ?_⟩
      intro m' hm
      rw [List.mem_singleton.mp hm]
      exact ⟨rfl, edge_of_run hop rfl⟩

/-- Whatever is done with a fridge, its order moves along edges only, and between two edges that
forget it keeps its ticket and what settled it. -/
theorem order_course (f : Fridge) (events : List Event) : ∃ moves,
    Course f events moves (events.foldl Event.after f) ∧
    Linked f.order moves (events.foldl Event.after f).order ∧
    (∀ m ∈ moves, m.Ran ∧ m.IsEdge) ∧
    ∀ before stretch rest o o', moves = before ++ (stretch ++ rest) →
      Linked f.order before o → Linked o stretch o' → o ≠ .idle →
      (∀ m ∈ stretch, m.after.order ≠ .idle) → o.Persists o' := by
  have hmoves : ∃ moves, Course f events moves (events.foldl Event.after f) ∧
      Linked f.order moves (events.foldl Event.after f).order ∧ ∀ m ∈ moves, m.Ran ∧ m.IsEdge := by
    induction events generalizing f with
    | nil => exact ⟨[], .nil f, .nil _, by simp⟩
    | cons event events ih =>
      obtain ⟨moves, hm, hl, he⟩ := makes_moves f event
      obtain ⟨rest, hc, hl', he'⟩ := ih (event.after f)
      refine ⟨moves ++ rest, .cons hm hc, hl.append hl', ?_⟩
      intro m hm
      rcases List.mem_append.mp hm with hm | hm
      · exact he m hm
      · exact he' m hm
  obtain ⟨moves, hc, hl, he⟩ := hmoves
  refine ⟨moves, hc, hl, he, ?_⟩
  rintro before stretch rest o o' rfl _ hs ho hn
  exact hs.persists (fun m hm => (he m (by simp [hm])).2) ho hn

end Fridge

end Larder
