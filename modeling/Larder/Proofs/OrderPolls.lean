import Larder.Proofs.FridgeOperations

namespace Larder

open Polling (classify failureMark)

namespace Call

variable {σ α : Type}

/-- How calls end that are made one after the other, with the states they leave. Each starts from
what the one before it has left, however that one ended. -/
def trace : List (Call σ α) → σ → List (Ended α × σ)
  | [], _ => []
  | c :: cs, s => c.run s :: trace cs (c.run s).2

/-- The state when all calls have been made. -/
def after (cs : List (Call σ α)) (s : σ) : σ := cs.foldl (fun s c => (c.run s).2) s

theorem trace_append (cs ds : List (Call σ α)) (s : σ) :
    trace (cs ++ ds) s = trace cs s ++ trace ds (after cs s) := by
  induction cs generalizing s with
  | nil => rfl
  | cons c cs ih => simp [trace, after, ih]

theorem length_trace (cs : List (Call σ α)) (s : σ) : (trace cs s).length = cs.length := by
  induction cs generalizing s with
  | nil => rfl
  | cons c cs ih => simp [trace, ih]

end Call

namespace Ticket

/-- The record is about the order: it names it, or names none. -/
def Matches (t : Ticket) (r : Wire.OrderRecord) : Prop := r.orderId = "" ∨ r.orderId = t.orderId

instance (t : Ticket) : DecidablePred t.Matches := fun _ => inferInstanceAs (Decidable (_ ∨ _))

/-- The poll brings a record about the order whose status is not pending. -/
def SettledBy (t : Ticket) (poll : Option Wire.OrderRecord) : Prop :=
  ∃ r, poll = some r ∧ t.Matches r ∧ classify r.status ≠ .pending

/-- The records about the order that polls bring. -/
def records (t : Ticket) (polls : List (Option Wire.OrderRecord)) : List Wire.OrderRecord :=
  polls.filterMap (Option.filter (t.Matches ·))

/-- The status of the last record about the order, or the one before when there is none. -/
def lastStatus (t : Ticket) (before : String) (polls : List (Option Wire.OrderRecord)) : String :=
  ((t.records polls).getLast?.map Wire.OrderRecord.status).getD before

theorem lastStatus_cons (t : Ticket) (before : String) (poll : Option Wire.OrderRecord)
    (polls : List (Option Wire.OrderRecord)) :
    t.lastStatus before (poll :: polls) = t.lastStatus (t.lastStatus before [poll]) polls := by
  have hr : t.records (poll :: polls) = t.records [poll] ++ t.records polls :=
    List.filterMap_append (l := [poll])
  unfold lastStatus
  rw [hr, List.getLast?_append]
  cases (t.records polls).getLast? <;> rfl

theorem concerns_iff (t : Ticket) (r : Wire.OrderRecord) :
    Order.concerns r t.orderId = true ↔ t.Matches r := by
  simp [Order.concerns, Matches]

theorem filter_concerns (t : Ticket) (poll : Option Wire.OrderRecord) :
    poll.filter (Order.concerns · t.orderId) = poll.filter (t.Matches ·) := by
  apply congrArg (poll.filter ·)
  funext r
  rw [Bool.eq_iff_iff, concerns_iff, decide_eq_true_iff]

end Ticket

namespace Order

/-- What a record makes of an order with a ticket, by the status that it brings. -/
inductive Settled (t : Ticket) (r : Wire.OrderRecord) : Order → Prop where
  | completed (h : r.status = "COMPLETED") : Settled t r (.completed t r.totalPrice)
  | failed (h : failureMark <:+: r.status.toList) : Settled t r (.failed t r.status)
  | cancelled (h : r.status = "CANCELLED") : Settled t r (.cancelled t)

/-- The order awaits its result, and this is the status that it was told of last. -/
inductive Remembers : Order → Ticket → String → Prop where
  | confirming {t : Ticket} : Remembers (.confirming t) t ""
  | inProgress {t : Ticket} (status : String) : Remembers (.inProgress t status) t status

variable {t : Ticket} {o : Order} {status : String} {poll : Option Wire.OrderRecord}

theorem Settled.isTerminal {r : Wire.OrderRecord} (h : Settled t r o) : o.isTerminal = true := by
  cases h <;> rfl

theorem Remembers.applyPoll (h : o.Remembers t status) :
    applyPoll poll o = (.ok (afterPoll t status poll).status, afterPoll t status poll) := by
  cases h <;> rfl

theorem afterPoll_of_matches {r : Wire.OrderRecord} (h : t.Matches r) :
    afterPoll t status (some r) = afterRecord t r := by
  simp [afterPoll, Option.filter, (t.concerns_iff r).mpr h]

theorem afterPoll_of_settledBy {r : Wire.OrderRecord} (h : t.SettledBy (some r)) :
    Settled t r (afterPoll t status (some r)) := by
  obtain ⟨_, hr, hm, hs⟩ := h
  cases hr
  rw [afterPoll_of_matches hm]
  unfold afterRecord
  rcases Polling.classify_cases r.status with ⟨hc, h⟩ | ⟨hc, h⟩ | ⟨hc, h⟩ | ⟨hc, _⟩
  · rw [hc]
    exact .completed h
  · rw [hc]
    exact .failed h
  · rw [hc]
    exact .cancelled h
  · exact absurd hc hs

theorem afterPoll_of_not_settledBy (h : ¬ t.SettledBy poll) :
    afterPoll t status poll = .inProgress t (t.lastStatus status [poll]) := by
  unfold afterPoll
  rw [t.filter_concerns]
  cases hp : poll.filter (t.Matches ·) with
  | none => simp [Ticket.lastStatus, Ticket.records, hp]
  | some r =>
    obtain ⟨rfl, hm⟩ := Option.filter_eq_some_iff.mp hp
    have hs : classify r.status = .pending := by
      apply Decidable.byContradiction
      intro hn
      exact h ⟨r, rfl, of_decide_eq_true hm, hn⟩
    simp [Ticket.lastStatus, Ticket.records, hp, afterRecord, hs]

theorem applyPoll_of_terminal (h : o.isTerminal = true) :
    applyPoll poll o =
      (.error (.notAllowed ("Cannot poll while order is " ++ o.stateName)), o) := by
  cases o with
  | completed => rfl
  | failed => rfl
  | cancelled => rfl
  | _ => cases h

end Order

namespace Fridge

/-- Tell the order of a poll. -/
def note (poll : Option Wire.OrderRecord) : Call Fridge OrderStatus :=
  advance (Order.applyPoll poll)

variable {f : Fridge} {t : Ticket} {polls : List (Option Wire.OrderRecord)}

variable {status : String}

theorem note_pending {poll : Option Wire.OrderRecord} (h : f.order.Remembers t status)
    (hp : ¬ t.SettledBy poll) :
    (note poll).run f =
      (.done .inProgress, { f with order := .inProgress t (t.lastStatus status [poll]) }) := by
  have happly : Order.applyPoll poll f.order = _ := h.applyPoll
  rw [Order.afterPoll_of_not_settledBy hp] at happly
  exact advance_ok happly

/-- Polls that do not settle the order leave it in progress, with the last status about it. -/
theorem note_all_pending (h : f.order.Remembers t status) (hne : polls ≠ [])
    (hp : ∀ poll ∈ polls, ¬ t.SettledBy poll) :
    Call.after (polls.map note) f =
      { f with order := .inProgress t (t.lastStatus status polls) } ∧
    ∀ x ∈ Call.trace (polls.map note) f,
      ∃ status, x = (.done .inProgress, { f with order := .inProgress t status }) := by
  induction polls generalizing f status with
  | nil => exact absurd rfl hne
  | cons poll polls ih =>
    have hrun := note_pending h (hp poll (by simp))
    have hlate : ∀ poll ∈ polls, ¬ t.SettledBy poll := by
      intro p hm
      exact hp p (by simp [hm])
    cases polls with
    | nil => simp [Call.after, Call.trace, hrun]
    | cons next polls =>
      obtain ⟨hafter, htrace⟩ := ih
        (f := { f with order := .inProgress t (t.lastStatus status [poll]) })
        (.inProgress _) (by simp) hlate
      rw [t.lastStatus_cons]
      simp only [List.map_cons, Call.after, List.foldl_cons, Call.trace, hrun,
        List.forall_mem_cons] at hafter htrace ⊢
      exact ⟨hafter, ⟨_, rfl⟩, htrace⟩

/-- Whether or not there have been polls, a confirmed order can be settled as long as none of them
has settled it. -/
theorem note_early (f : Fridge) (hp : ∀ poll ∈ polls, ¬ t.SettledBy poll) :
    ∃ o status, Call.after (polls.map note) { f with order := .confirming t } =
        { f with order := o } ∧ o.Remembers t status ∧
      ∀ x ∈ Call.trace (polls.map note) { f with order := .confirming t },
        ∃ status, x = (.done .inProgress, { f with order := .inProgress t status }) := by
  by_cases hne : polls = []
  · subst hne
    exact ⟨_, _, rfl, .confirming, by simp [Call.trace]⟩
  · obtain ⟨hafter, htrace⟩ := note_all_pending
      (f := { f with order := .confirming t }) Order.Remembers.confirming hne hp
    exact ⟨_, _, hafter, .inProgress _, htrace⟩

/-- A settled order refuses every poll and stays as it is. -/
theorem note_terminal (hf : f.order.isTerminal = true) :
    Call.trace (polls.map note) f = List.replicate polls.length
      (.failed (.notAllowed ("Cannot poll while order is " ++ f.order.stateName)), f) := by
  induction polls with
  | nil => rfl
  | cons poll polls ih =>
    have hrun : (note poll).run f = _ := advance_error (Order.applyPoll_of_terminal hf)
    simp [Call.trace, hrun, ih, List.replicate_succ]

/-- No poll changes what identifies the order. -/
theorem note_ticket (hf : f.order.ticket? = some t) :
    ∀ x ∈ Call.trace (polls.map note) f, x.2.order.ticket? = some t := by
  induction polls generalizing f with
  | nil => simp [Call.trace]
  | cons poll polls ih =>
    have hafter : ((note poll).run f).2.order.ticket? = some t := by
      cases ha : Order.applyPoll poll f.order with
      | mk result o =>
        cases result with
        | error x =>
          cases Order.applyPoll_restores poll _ _ _ ha
          rw [note, advance_error ha]
          exact hf
        | ok status =>
          rw [note, advance_ok ha]
          obtain ⟨u, ho, hp⟩ := Order.applyPoll_cases ha
          have hu : f.order.ticket? = some u := by
            rcases ho with ho | ⟨status, ho⟩ <;> rw [ho] <;> rfl
          exact hp.ticket.trans (hu.symm.trans hf)
    intro x hx
    rcases List.mem_cons.mp hx with rfl | hx
    · exact hafter
    · exact ih hafter x hx

/-- Polls of a confirmed order leave it in progress, with the last status about it, up to the first
one that settles it; that one settles it by its status, and all later ones are refused. Each poll
that is not refused reports the state that it leaves the order in. -/
theorem note_polls (f : Fridge) (t : Ticket) (polls : List (Option Wire.OrderRecord)) :
    (∀ early r late, polls = early ++ some r :: late → (∀ poll ∈ early, ¬ t.SettledBy poll) →
      t.SettledBy (some r) → ∃ before o, Order.Settled t r o ∧ before.length = early.length ∧
        (∀ x ∈ before, ∃ status, x = (.done .inProgress, { f with order := .inProgress t status })) ∧
        Call.trace (polls.map note) { f with order := .confirming t } =
          before ++ (.done o.status, { f with order := o }) :: List.replicate late.length
            (.failed (.notAllowed ("Cannot poll while order is " ++ o.stateName)),
              { f with order := o })) ∧
    ((∀ poll ∈ polls, ¬ t.SettledBy poll) → polls ≠ [] →
      (∀ x ∈ Call.trace (polls.map note) { f with order := .confirming t },
        ∃ status, x = (.done .inProgress, { f with order := .inProgress t status })) ∧
      Call.after (polls.map note) { f with order := .confirming t } =
        { f with order := .inProgress t (t.lastStatus "" polls) }) ∧
    ∀ x ∈ Call.trace (polls.map note) { f with order := .confirming t },
      x.2.order.ticket? = some t := by
  refine ⟨?_, ?_, note_ticket rfl⟩
  · rintro early r late rfl hearly hr
    obtain ⟨o, status, hafter, ho, hbefore⟩ := note_early f hearly
    have hrun : (note (some r)).run { f with order := o } = _ := advance_ok ho.applyPoll
    have hsettled : Order.Settled t r (Order.afterPoll t status (some r)) :=
      Order.afterPoll_of_settledBy hr
    refine ⟨_, _, hsettled, ?_, hbefore, ?_⟩
    · rw [Call.length_trace, List.length_map]
    · have hlate : Call.trace (late.map note)
          { f with order := Order.afterPoll t status (some r) } = _ :=
        note_terminal hsettled.isTerminal
      rw [List.map_append, Call.trace_append, hafter, List.map_cons, Call.trace, hrun, hlate]
  · intro hp hne
    obtain ⟨hafter, htrace⟩ := note_all_pending
      (f := { f with order := .confirming t }) Order.Remembers.confirming hne hp
    exact ⟨htrace, hafter⟩

end Fridge

end Larder
