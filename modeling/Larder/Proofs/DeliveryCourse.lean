import Larder.Proofs.Disks
import Larder.Proofs.RestockRecords
import Larder.Proofs.SupplierOperations

namespace Larder.Supplier

open Polling (Asked Watch WatchEnd)

/-- The record in the response to an inquiry, if there is one. -/
def inquiredRecord? (x : Exchange) : Option Wire.RestockRecord :=
  if x.request.path = statusPath then x.response?.bind fun y => (reported y).toOption.join else none

/-- The requests that an operation makes, by what is followed. -/
inductive Calls : Operation → Option Restock → Request → Prop where
  | register (t : Truck) (c : Option Restock) : Calls (.register t) c (registrationRequest t)
  | submit {b : Batch} {c : Option Restock} {r : Wire.RestockRequest}
      (hc : checkCanSubmit c = .ok ()) (hb : b.request = .ok r) :
      Calls (.submit b) c (restockRequest r)
  | poll (r : Restock) : Calls .poll (some r) (statusRequest r)

/-- The operation is done, and such that it gives up what was followed. -/
inductive Replaces : Operation → Ended Unit → Prop where
  | submit (b : Batch) : Replaces (.submit b) (.done ())
  | clear (e : Ended Unit) : Replaces .clear e

/-- What is followed before and after an operation that has brought these records. -/
inductive Edge : Operation → Ended Unit → List Wire.RestockRecord →
    Option Restock → Option Restock → Prop where
  | cleared (c : Option Restock) : Edge .clear (.done ()) [] c none
  | submitted {b : Batch} {c : Option Restock} {orderId : String}
      (hc : ∀ r, c = some r → r.isTerminal = true) (hid : orderId ≠ "") :
      Edge (.submit b) (.done ()) [] c (some (.submitted orderId))
  | kept {op : Operation} {e : Ended Unit} {records : List Wire.RestockRecord}
      (c : Option Restock) (hr : ¬ Replaces op e) :
      Edge op e records c (c.map (Restock.afterRecords records))

/-- One operation other than a watch, or one poll of a watch, with what the line carried in it. -/
structure Move where
  operation : Operation
  ended : Ended Unit
  before : Supplier
  exchanges : List Exchange
  after : Supplier

namespace Move

/-- The records that the move has brought, the first one first. -/
def records (m : Move) : List Wire.RestockRecord := m.exchanges.filterMap inquiredRecord?

def requests (m : Move) : List Request := m.exchanges.map Exchange.request

def asked (m : Move) : Asked Supplier := ⟨m.before, m.ended, m.after⟩

/-- The move is what its operation does, and no request of it is left out. -/
structure Told (m : Move) : Prop where
  ran : m.operation.call.run m.before = (m.ended, m.after)
  carried : m.before.line.Carries m.exchanges m.after.line
  calls : ∀ x ∈ m.exchanges, Calls m.operation m.before.current x.request
  edge : Edge m.operation m.ended m.records m.before.current m.after.current

end Move

section Calls

variable {op : Operation} {c : Option Restock} {r : Request}

theorem Calls.bearer (h : Calls op c r) : r.bearer = none := by
  cases h <;> rfl

/-- An inquiry is about what is followed, and says nothing else. -/
theorem Calls.inquiry (h : Calls op c r) (hp : r.path = statusPath) :
    ∃ tracked, c = some tracked ∧ r.query = [("order_id", tracked.orderId)] := by
  cases h with
  | register t => exact absurd hp (show ¬ registerPath = statusPath by decide)
  | submit => exact absurd hp (show ¬ restockPath = statusPath by decide)
  | poll tracked => exact ⟨tracked, rfl, rfl⟩

end Calls

theorem map_afterRecords_nil (c : Option Restock) : c.map (Restock.afterRecords []) = c := by
  cases c <;> rfl

/-- An operation without a record that gives nothing up leaves what is followed. -/
theorem Edge.unchanged {op : Operation} {e : Ended Unit} (c : Option Restock)
    (hr : ¬ Replaces op e) : Edge op e [] c c := by
  have h : Edge op e [] c (c.map (Restock.afterRecords [])) := .kept c hr
  rwa [map_afterRecords_nil] at h

theorem Edge.eq_map {op : Operation} {e : Ended Unit} {records : List Wire.RestockRecord}
    {c c' : Option Restock} (h : Edge op e records c c') (hr : ¬ Replaces op e) :
    c' = c.map (Restock.afterRecords records) := by
  cases h with
  | kept => rfl
  | cleared => exact absurd (.clear _) hr
  | submitted => exact absurd (.submit _) hr

section Told

variable {s s' : Supplier} {e : Ended Unit}

/-- Where no exchange is an inquiry there are no records. -/
theorem filterMap_inquiredRecord? {xs : List Exchange}
    (h : ∀ x ∈ xs, x.request.path ≠ statusPath) : xs.filterMap inquiredRecord? = [] := by
  rw [List.filterMap_eq_nil_iff]
  intro x hx
  simp [inquiredRecord?, h x hx]

theorem register_told {t : Truck} (h : (register t).run s = (e, s')) :
    ∃ xs, Move.Told ⟨.register t, e, s, xs, s'⟩ := by
  obtain ⟨xs, line, hcarried, rfl, hx⟩ := register_carries h
  refine ⟨xs, h, hcarried, ?_, ?_⟩
  · intro x hmem
    rw [hx x hmem]
    exact .register t s.current
  · have hnone : xs.filterMap inquiredRecord? = [] := by
      refine filterMap_inquiredRecord? fun x hmem => ?_
      rw [hx x hmem]
      exact show registerPath ≠ statusPath by decide
    change Edge _ _ (xs.filterMap inquiredRecord?) _ _
    rw [hnone]
    exact .unchanged s.current (by rintro ⟨⟩)

theorem checkCanSubmit_ok {c : Option Restock} (h : checkCanSubmit c = .ok ()) :
    ∀ r, c = some r → r.isTerminal = true := by
  rintro r rfl
  simp only [checkCanSubmit] at h
  split at h
  · assumption
  · cases h

theorem acceptedId_ne {y : Response} {orderId : String} (h : acceptedId y = .ok orderId) :
    orderId ≠ "" := by
  simp only [acceptedId, bind_ok] at h
  obtain ⟨receipt, _, h⟩ := h
  split at h
  · cases h
  · rename_i hempty
    cases h
    simpa using hempty

theorem submit_told {b : Batch} (h : (Operation.submit b).call.run s = (e, s')) :
    ∃ xs, Move.Told ⟨.submit b, e, s, xs, s'⟩ := by
  obtain ⟨ended, hrun, hend⟩ := Call.forget_cases h
  have hnot : (∀ a, ended ≠ .done a) → ¬ Replaces (.submit b) e := by
    rintro hn ⟨⟩
    obtain ⟨a, ha, _⟩ | ⟨_, _, he⟩ | ⟨_, he⟩ := hend
    · exact hn a ha
    · cases he
    · cases he
  cases submit_cases hrun with
  | unfinished => exact ⟨[], h, .nil _, by simp, .unchanged _ (hnot (by simp))⟩
  | invalid => exact ⟨[], h, .nil _, by simp, .unchanged _ (hnot (by simp))⟩
  | dropped hc hb hl =>
    exact ⟨[⟨restockRequest _, none⟩], h, .unanswered hl, by simpa using Calls.submit hc hb,
      .unchanged _ (hnot (by simp))⟩
  | @declined r y x line hc hb hl hy =>
    exact ⟨[⟨restockRequest r, some y⟩], h, .answered hl (.nil _),
      by simpa using Calls.submit hc hb, .unchanged _ (hnot (by simp))⟩
  | @accepted r y orderId line hc hb hl hy =>
    have hdone : e = .done () := by simpa using hend
    subst hdone
    exact ⟨[⟨restockRequest r, some y⟩], h, .answered hl (.nil _),
      by simpa using Calls.submit hc hb, .submitted (checkCanSubmit_ok hc) (acceptedId_ne hy)⟩

/-- The record of an answered inquiry is the one that the response reports. -/
theorem filterMap_inquiry (r : Restock) (y : Response) :
    [Exchange.mk (statusRequest r) (some y)].filterMap inquiredRecord? =
      (reported y).toOption.join.toList := by
  have hone : inquiredRecord? ⟨statusRequest r, some y⟩ = (reported y).toOption.join := rfl
  rw [List.filterMap_cons, hone]
  cases (reported y).toOption.join <;> rfl

theorem poll_told (h : poll.forget.run s = (e, s')) : ∃ xs, Move.Told ⟨.poll, e, s, xs, s'⟩ := by
  have hnot : ¬ Replaces .poll e := by rintro ⟨⟩
  have hcalls : ∀ {r o}, s.current = some r →
      ∀ x ∈ [Exchange.mk (statusRequest r) o], Calls .poll s.current x.request := by
    intro r o hc x hx
    rw [List.mem_singleton.mp hx, hc]
    exact .poll r
  obtain ⟨ended, hrun, rfl⟩ := Call.forget_ended h
  cases poll_cases hrun with
  | untracked hc => exact ⟨[], h, .nil _, by simp, .unchanged _ hnot⟩
  | @dropped r line hc hl =>
    exact ⟨[⟨statusRequest r, none⟩], h, .unanswered hl, hcalls hc, .unchanged _ hnot⟩
  | @unreadable r y x line hc hl hy =>
    refine ⟨[⟨statusRequest r, some y⟩], h, .answered hl (.nil _), hcalls hc, ?_⟩
    rw [Move.records, filterMap_inquiry, hy]
    exact .unchanged _ hnot
  | @nothing r y line hc hl hy =>
    refine ⟨[⟨statusRequest r, some y⟩], h, .answered hl (.nil _), hcalls hc, ?_⟩
    rw [Move.records, filterMap_inquiry, hy]
    exact .unchanged _ hnot
  | @noted r y record line hc hl hy =>
    refine ⟨[⟨statusRequest r, some y⟩], h, .answered hl (.nil _), hcalls hc, ?_⟩
    have hedge : Edge .poll (.done ()) [record] s.current _ := .kept s.current hnot
    rw [Move.records, filterMap_inquiry, hy]
    rwa [hc] at hedge ⊢

/-- Every operation but a watch is one move, of which all can be told. -/
theorem Operation.told {op : Operation} (hop : op ≠ .waitForCompletion)
    (h : op.call.run s = (e, s')) : ∃ xs, Move.Told ⟨op, e, s, xs, s'⟩ := by
  cases op with
  | register t => exact register_told h
  | submit b => exact submit_told h
  | poll => exact poll_told h
  | waitForCompletion => exact absurd rfl hop
  | clear =>
    cases h
    exact ⟨[], rfl, .nil _, by simp, .cleared _⟩

end Told

/-- Something that happens to a supplier: an operation, or between two operations a change of what
the line will do. What was sent stays on record. -/
inductive Event where
  | operate (op : Operation)
  | line (l : Line)

/-- The supplier after an event, however an operation ended. -/
def Event.after (s : Supplier) : Event → Supplier
  | operate op => (op.call.run s).2
  | line l => { s with line := { l with sent := s.line.sent } }

/-- The moves that an event makes. A watch of a restock that is settled already makes none, and any
other makes those that its polls make. -/
inductive Makes (s : Supplier) : Event → List Move → Supplier → Prop where
  | operate {m : Move} (hop : m.operation ≠ .waitForCompletion) (hs : m.before = s) :
      Makes s (.operate m.operation) [m] m.after
  | settled {outcome : RestockOutcome} (ho : s.current.bind Restock.outcome? = some outcome) :
      Makes s (.operate .waitForCompletion) [] s
  | watch {moves : List Move} {e : Ended (WatchEnd RestockOutcome)} {s' : Supplier}
      (h : Supplier.waitForCompletion.run s = (e, s')) (hop : ∀ m ∈ moves, m.operation = .poll)
      (hr : Supplier.watch.Rounds s.settings.pollInterval
        (max s.settings.maxPollAttempts.toNat 1) 0 s (moves.map Move.asked) e s') :
      Makes s (.operate .waitForCompletion) moves s'
  | line {l : Line} : Makes s (.line l) [] (Event.after s (.line l))

/-- The moves that events make, one after the other. -/
inductive Course : Supplier → List Event → List Move → Supplier → Prop where
  | nil (s : Supplier) : Course s [] [] s
  | cons {s s₁ s₂ : Supplier} {event : Event} {events : List Event} {moves rest : List Move}
      (h : Makes s event moves s₁) (hc : Course s₁ events rest s₂) :
      Course s (event :: events) (moves ++ rest) s₂

/-- What lasts of a supplier from one move to the next. -/
def standing (s : Supplier) : Option Restock × List Request := (s.current, s.line.sent)

/-- Each move starts with what the one before it has left. -/
inductive Joined : Option Restock × List Request → List Move →
    Option Restock × List Request → Prop where
  | nil (p : Option Restock × List Request) : Joined p [] p
  | cons {m : Move} {moves : List Move} {p : Option Restock × List Request}
      (h : Joined m.after.standing moves p) : Joined m.before.standing (m :: moves) p

section Joined

variable {p q r : Option Restock × List Request} {moves rest : List Move}

theorem Joined.append (h : Joined p moves q) (h' : Joined q rest r) :
    Joined p (moves ++ rest) r := by
  induction h with
  | nil => exact h'
  | cons _ ih => exact .cons (ih h')

theorem Joined.split (h : Joined p (moves ++ rest) r) :
    ∃ q, Joined p moves q ∧ Joined q rest r := by
  induction moves generalizing p with
  | nil => exact ⟨p, .nil p, h⟩
  | cons m moves ih =>
    cases h with
    | cons h =>
      obtain ⟨q, hm, hr⟩ := ih h
      exact ⟨q, .cons hm, hr⟩

/-- The record of all requests grows by just those of the moves. -/
theorem Joined.sent (h : Joined p moves q) (hm : ∀ m ∈ moves, m.Told) :
    q.2 = p.2 ++ moves.flatMap Move.requests := by
  induction h with
  | nil => simp
  | @cons m moves p _ ih =>
    obtain ⟨hfirst, hrest⟩ := List.forall_mem_cons.mp hm
    rw [ih hrest, List.flatMap_cons, ← List.append_assoc]
    exact congrArg (· ++ _) hfirst.carried.sent

/-- What every move keeps of what is followed holds all along. -/
theorem Joined.invariant {P : Option Restock → Prop} (h : Joined p moves q)
    (hm : ∀ m ∈ moves, P m.before.current → P m.after.current) (hp : P p.1) :
    (∀ m ∈ moves, P m.before.current ∧ P m.after.current) ∧ P q.1 := by
  induction h with
  | nil => exact ⟨by simp, hp⟩
  | @cons m moves p _ ih =>
    obtain ⟨hfirst, hrest⟩ := List.forall_mem_cons.mp hm
    obtain ⟨hmoves, hq⟩ := ih hrest (hfirst hp)
    exact ⟨List.forall_mem_cons.mpr ⟨⟨hp, hfirst hp⟩, hmoves⟩, hq⟩

/-- Moves that give nothing up make of what is followed what their records say. -/
theorem Joined.kept (h : Joined p moves q) (hm : ∀ m ∈ moves, m.Told)
    (hr : ∀ m ∈ moves, ¬ Replaces m.operation m.ended) :
    q.1 = p.1.map (Restock.afterRecords (moves.flatMap Move.records)) := by
  induction h with
  | nil => exact (map_afterRecords_nil _).symm
  | @cons m moves p _ ih =>
    obtain ⟨hfirst, hrest⟩ := List.forall_mem_cons.mp hm
    obtain ⟨hkeeps, hkeep⟩ := List.forall_mem_cons.mp hr
    rw [ih hrest hkeep]
    change m.after.current.map _ = m.before.current.map _
    rw [hfirst.edge.eq_map hkeeps, Option.map_map, List.flatMap_cons]
    exact congrArg (Option.map · _)
      (funext fun r => (Restock.afterRecords_append m.records _ r).symm)

end Joined

/-- What is followed can be asked for. -/
def Identified (c : Option Restock) : Prop := ∀ r, c = some r → r.orderId ≠ ""

theorem Edge.identified {op : Operation} {e : Ended Unit} {records : List Wire.RestockRecord}
    {c c' : Option Restock} (h : Edge op e records c c') (hc : Identified c) : Identified c' := by
  cases h with
  | cleared => rintro r ⟨⟩
  | submitted _ hid =>
    rintro r ⟨⟩
    exact hid
  | kept =>
    intro r hr
    obtain ⟨r₀, hr₀, rfl⟩ := Option.map_eq_some_iff.mp hr
    rw [Restock.orderId_afterRecords]
    exact hc r₀ hr₀

section Watch

variable {s s' : Supplier} {interval left made : Nat} {e : Ended (WatchEnd RestockOutcome)}

/-- All that happens in polls can be told. -/
theorem exists_told {polls : List (Asked Supplier)} (hp : ∀ p ∈ polls, watch.Asks p) :
    ∃ moves : List Move, moves.map Move.asked = polls ∧
      ∀ m ∈ moves, m.operation = .poll ∧ m.Told := by
  induction polls with
  | nil => exact ⟨[], rfl, by simp⟩
  | cons p polls ih =>
    obtain ⟨hfirst, hrest⟩ := List.forall_mem_cons.mp hp
    obtain ⟨xs, htold⟩ := poll_told hfirst.ran
    obtain ⟨moves, rfl, hm⟩ := ih hrest
    exact ⟨⟨.poll, p.ended, p.before, xs, p.after⟩ :: moves, rfl,
      List.forall_mem_cons.mpr ⟨⟨rfl, htold⟩, hm⟩⟩

theorem pause_standing {b : Ended Bool} (h : (watch.pause interval).run s = (b, s')) :
    s'.standing = s.standing := by
  obtain ⟨o, l, hl, rfl, _⟩ := Watch.pause_cases h
  obtain ⟨n, rfl, _⟩ := Line.sleep_cases hl
  rfl

theorem rounds_joined {moves : List Move}
    (h : watch.Rounds interval left made s (moves.map Move.asked) e s') :
    Joined s.standing moves s'.standing := by
  have hone : ∀ {m : Move} {p : Asked Supplier}, p = m.asked →
      Joined p.before.standing [m] p.after.standing := by
    rintro m p rfl
    exact .cons (.nil _)
  generalize hpolls : moves.map Move.asked = polls at h
  induction h generalizing moves with
  | exhausted =>
    rw [List.map_eq_nil_iff.mp hpolls]
    exact .nil _
  | cancelled =>
    rw [List.map_eq_nil_iff.mp hpolls]
    exact .nil _
  | @again left made p u v polls e hp hb hs rest ih =>
    obtain ⟨m, moves, rfl, rfl, rfl⟩ := List.map_eq_cons_iff.mp hpolls
    have hrest := ih rfl
    rw [pause_standing hs] at hrest
    exact .cons hrest
  | interrupted _ _ hs =>
    obtain ⟨m, rfl, rfl⟩ := List.map_eq_singleton_iff.mp hpolls
    rw [pause_standing hs]
    exact hone rfl
  | pauseDropped _ _ hs =>
    obtain ⟨m, rfl, rfl⟩ := List.map_eq_singleton_iff.mp hpolls
    rw [pause_standing hs]
    exact hone rfl
  | _ =>
    obtain ⟨m, rfl, rfl⟩ := List.map_eq_singleton_iff.mp hpolls
    exact hone rfl

end Watch

/-- Every event makes moves that are joined, and all of them can be told. -/
theorem makes_told (s : Supplier) (event : Event) : ∃ moves,
    Makes s event moves (event.after s) ∧
    Joined s.standing moves (event.after s).standing ∧ ∀ m ∈ moves, m.Told := by
  cases event with
  | line l => exact ⟨[], .line, .nil _, by simp⟩
  | operate op =>
    by_cases hop : op = .waitForCompletion
    · subst hop
      cases hr : waitForCompletion.run s with
      | mk e s' =>
        have hafter : Event.after s (.operate .waitForCompletion) = s' := by
          obtain ⟨_, hf, _⟩ := Call.forget_cases (Prod.eta (waitForCompletion.forget.run s)).symm
          rw [hr] at hf
          exact (Prod.mk.inj hf).2.symm
        rw [hafter]
        rcases waitForCompletion_cases hr with ⟨o, ho, rfl, rfl⟩ | ⟨_, polls, hrounds⟩
        · exact ⟨[], .settled ho, .nil _, by simp⟩
        · obtain ⟨moves, rfl, hm⟩ := exists_told hrounds.asks
          exact ⟨moves, .watch hr (fun m h => (hm m h).1) hrounds, rounds_joined hrounds,
            fun m h => (hm m h).2⟩
    · obtain ⟨xs, htold⟩ := Operation.told hop (Prod.eta (op.call.run s)).symm
      let m : Move := ⟨op, (op.call.run s).1, s, xs, (op.call.run s).2⟩
      exact ⟨[m], .operate (m := m) hop rfl, Joined.cons (m := m) (.nil _), by simpa using htold⟩

/-- Whatever is done with a supplier is a row of moves, each of which can be told. -/
theorem exists_course (s : Supplier) (events : List Event) : ∃ moves,
    Course s events moves (events.foldl Event.after s) ∧
    Joined s.standing moves (events.foldl Event.after s).standing ∧ ∀ m ∈ moves, m.Told := by
  induction events generalizing s with
  | nil => exact ⟨[], .nil s, .nil _, by simp⟩
  | cons event events ih =>
    obtain ⟨moves, hmakes, hjoined, htold⟩ := makes_told s event
    obtain ⟨rest, hcourse, hjoined', htold'⟩ := ih (event.after s)
    exact ⟨moves ++ rest, .cons hmakes hcourse, hjoined.append hjoined',
      List.forall_mem_append.mpr ⟨htold, htold'⟩⟩

/-- Whatever is done with a new supplier, its requests carry no token and inquire only about what
is followed. What is followed has an id and gives way only to nothing or, once it is settled, to a
delivery that was handed in; as long as it does not, it is what the polled records make of it. -/
theorem delivery_course (settings : Settings) (line : Line) (events : List Event) : ∃ moves,
    Course (new settings line) events moves (events.foldl Event.after (new settings line)) ∧
    (events.foldl Event.after (new settings line)).line.sent =
      line.sent ++ moves.flatMap Move.requests ∧
    (∀ m ∈ moves, m.Told ∧ Identified m.before.current ∧ Identified m.after.current) ∧
    (∀ m ∈ moves, ∀ r ∈ m.requests, r.bearer = none ∧
      (r.path = statusPath → ∃ tracked, m.before.current = some tracked ∧
        r.query = [("order_id", tracked.orderId)])) ∧
    ∀ earlier stretch later, moves = earlier ++ (stretch ++ later) → ∃ p q,
      Joined (new settings line).standing earlier p ∧ Joined p stretch q ∧
      Joined q later (events.foldl Event.after (new settings line)).standing ∧
      ((∀ m ∈ stretch, ¬ Replaces m.operation m.ended) → (p.1 = none → q.1 = none) ∧
        ∀ r, p.1 = some r → ∃ r', q.1 = some r' ∧ r'.orderId = r.orderId ∧
          Restock.Decided r (stretch.flatMap Move.records) r') := by
  obtain ⟨moves, hcourse, hjoined, htold⟩ := exists_course (new settings line) events
  obtain ⟨hidentified, _⟩ := hjoined.invariant (P := Identified)
    (fun m hm => (htold m hm).edge.identified) (by rintro r ⟨⟩)
  refine ⟨moves, hcourse, hjoined.sent htold, fun m hm => ⟨htold m hm, hidentified m hm⟩, ?_, ?_⟩
  · intro m hm r hr
    obtain ⟨x, hx, rfl⟩ := List.mem_map.mp hr
    have hcalls := (htold m hm).calls x hx
    exact ⟨hcalls.bearer, hcalls.inquiry⟩
  · rintro earlier stretch later rfl
    obtain ⟨p, hearlier, hrest⟩ := hjoined.split
    obtain ⟨q, hstretch, hlater⟩ := hrest.split
    refine ⟨p, q, hearlier, hstretch, hlater, ?_⟩
    intro hkeeps
    have hkept := hstretch.kept (fun m hm => htold m (by simp [hm])) hkeeps
    constructor
    · intro hp
      rw [hkept, hp]
      rfl
    · intro r hr
      rw [hr] at hkept
      exact ⟨_, hkept, Restock.orderId_afterRecords _ r, Restock.afterRecords_decided _ r⟩

end Larder.Supplier
