import Larder.Proofs.PairedWatches
import Larder.Proofs.Waiting

namespace Larder

open Polling (Asked Watch WatchEnd)

namespace Line

/-- The reply may be the answer to a request that the line carries. -/
def MayBring (l : Line) (reply : Reply) : Prop :=
  reply ∈ l.replies ∨ l.outlet.whenEmpty? = some reply

theorem answer_cases {l : Line} {r : Request} {reply : Reply} (h : (l.answer r).1 = some reply) :
    (∃ y, l.outlet.refusal? r = some y ∧ reply = { response := y }) ∨ l.MayBring reply := by
  unfold Line.answer at h
  cases hr : l.outlet.refusal? r with
  | some y =>
    rw [hr] at h
    cases h
    exact Or.inl ⟨y, rfl, rfl⟩
  | none =>
    cases hl : l.replies with
    | nil =>
      rw [hr, hl] at h
      exact Or.inr (Or.inr h)
    | cons first rest =>
      rw [hr, hl] at h
      cases h
      exact Or.inr (Or.inl (hl ▸ List.mem_cons_self))

theorem answer_subset (l : Line) (r : Request) : (l.answer r).2 ⊆ l.replies := by
  intro reply h
  unfold Line.answer at h
  split at h
  · exact h
  · cases h
  · rename_i hl
    rw [hl]
    exact List.mem_cons_of_mem _ h

/-- No request is answered 401. -/
structure Grants (l : Line) : Prop where
  refusals : ∀ r y, l.outlet.refusal? r = some y → y.status ≠ 401
  replies : ∀ reply, l.MayBring reply → reply.response.status ≠ 401

theorem Grants.answer {l : Line} (h : l.Grants) {r : Request} {reply : Reply}
    (ha : (l.answer r).1 = some reply) : reply.response.status ≠ 401 := by
  rcases answer_cases ha with ⟨y, hy, rfl⟩ | hb
  · exact h.refusals r y hy
  · exact h.replies reply hb

theorem Grants.send {l : Line} (h : l.Grants) {r : Request} {y : Response} {m : Line}
    (hs : l.send r = (some y, m)) : y.status ≠ 401 := by
  obtain ⟨_, ⟨reply, ha, hy⟩ | ⟨hn, _⟩⟩ := send_cases hs
  · cases hy
    exact h.answer ha
  · cases hn

end Line

namespace Account

/-- A protected call with a token that is not due is one request, unless that is answered 401. -/
theorem authorizedCall_steady {a a' : Account} {r : Request} {token : String} {e : Ended Response}
    (ht : a.accessToken? = some token) (hd : a.refreshDue = false) (hl : a.line.Grants)
    (h : (authorizedCall r).run a = (e, a')) :
    (∃ y line, a.line.send (r.withBearer token) = (some y, line) ∧ e = .done y ∧
      a' = { a with line }) ∨
    (∃ line, a.line.send (r.withBearer token) = (none, line) ∧ e = .dropped ∧
      a' = { a with line }) := by
  have hsession : a.session.isNone = false := by
    unfold accessToken? at ht
    cases hs : a.session with
    | none => simp [hs] at ht
    | some s => rfl
  have hlead : renewIfDue.run a = (.done none, a) := by
    unfold renewIfDue
    rw [Call.run_view_bind, hd]
    rfl
  have htoken : (Account.token none).run a = (.done token, a) := by
    unfold Account.token
    rw [Call.run_view_bind, ht]
    rfl
  unfold authorizedCall at h
  rw [Call.run_view_bind, hsession] at h
  simp only [Bool.false_eq_true, if_false] at h
  rw [Call.bind_done hlead, Call.bind_done htoken] at h
  rcases send_bind_cases h with ⟨y, line, hsent, hy⟩ | ⟨line, hsent, rfl, rfl⟩
  · have hgranted : y.isUnauthorized = false :=
      Bool.eq_false_iff.mpr fun hu => hl.send hsent ((Response.isUnauthorized_iff y).mp hu)
    rw [hgranted] at hy
    cases hy
    exact Or.inl ⟨y, line, hsent, rfl, rfl⟩
  · exact Or.inr ⟨line, hsent, rfl, rfl⟩

end Account

namespace Fridge

/-- How a poll of an order goes that is one request. -/
inductive Inquired (f : Fridge) (q : Request) : Ended OrderStatus → Fridge → Prop where
  | dropped {line : Line} (hl : f.line.send q = (none, line)) :
      Inquired f q .dropped (f.withLine line)
  | unreadable {y : Response} {x : Failure} {line : Line} (hl : f.line.send q = (some y, line))
      (hy : lastRecord y = .error x) : Inquired f q (.failed x) (f.withLine line)
  | noted {y : Response} {record : Option Wire.OrderRecord} {order : Order} {line : Line}
      (hl : f.line.send q = (some y, line)) (hy : lastRecord y = .ok record)
      (ho : f.order.applyPoll record = (.ok order.status, order)) :
      Inquired f q (.done order.status) { f.withLine line with order }

/-- The request of a poll with an access token. -/
def lastOrderRequest (token : String) : Request := (Request.get lastOrderPath).withBearer token

/-- What is there while an order is polled with an access token. -/
structure Steady (token : String) (f : Fridge) : Prop where
  token : f.account.accessToken? = some token
  awaiting : f.order.isAwaiting = true
  line : f.line.Grants

theorem poll_steady {f f' : Fridge} {token : String} {e : Ended OrderStatus} (hf : f.Steady token)
    (hd : f.account.refreshDue = false) (h : poll.run f = (e, f')) :
    f.Inquired (lastOrderRequest token) e f' := by
  have hcheck : pollErrand.request f.order = .ok (.get lastOrderPath) := by
    simp only [pollErrand, checkCanPoll, hf.awaiting]
    rfl
  have hcall : ∀ {e account},
      (Account.authorizedCall (.get lastOrderPath)).run f.account = (e, account) → _ :=
    Account.authorizedCall_steady hf.token hd hf.line
  rw [poll_eq] at h
  cases Errand.call_cases h with
  | refused hr =>
    rw [hcheck] at hr
    cases hr
  | failed hr hc =>
    rw [hcheck] at hr
    cases hr
    obtain ⟨_, _, _, he, _⟩ | ⟨_, _, he, _⟩ := hcall hc <;> cases he
  | dropped hr hc =>
    rw [hcheck] at hr
    cases hr
    obtain ⟨_, _, _, he, _⟩ | ⟨line, hl, _, rfl⟩ := hcall hc
    · cases he
    · exact .dropped hl
  | unsettled hr hc hs =>
    rw [hcheck] at hr
    cases hr
    obtain ⟨y, line, hl, he, rfl⟩ | ⟨_, _, he, _⟩ := hcall hc
    · cases he
      rcases Order.Step.given_error hs with hy | ⟨record, _, happly⟩
      · exact .unreadable hl hy
      · obtain ⟨o, ho⟩ := Order.applyPoll_of_awaiting record hf.awaiting
        cases ho.symm.trans happly
    · cases he
  | settled hr hc hs =>
    rw [hcheck] at hr
    cases hr
    obtain ⟨y, line, hl, he, rfl⟩ | ⟨_, _, he, _⟩ := hcall hc
    · cases he
      obtain ⟨record, hy, ho⟩ := Order.Step.given_ok hs
      cases Order.applyPoll_status ho
      exact .noted hl hy ho
    · cases he

/-- What went wrong with a response other than 401 does not end a watch. -/
theorem lastRecord_isFatal {y : Response} {x : Failure} (hy : y.status ≠ 401)
    (h : lastRecord y = .error x) : watch.isFatal x = false := by
  have hallowed := lastRecord_isNotAllowed h
  unfold lastRecord at h
  split at h
  · cases h
  · cases hc : y.content (Wire.Envelope.decode Wire.OrderRecord.decode) with
    | ok envelope =>
      rw [hc] at h
      cases h
    | error z =>
      rw [hc] at h
      cases h
      rcases Response.content_error hc with ⟨_, rfl⟩ | ⟨_, m, rfl⟩
      · exact Bool.or_eq_false_iff.mpr ⟨Response.failure_kind y hy, hallowed⟩
      · rfl

section Answered

variable {f f' : Fridge} {token : String} {e : Ended Unit} {line : Line}

/-- A poll whose request is not answered is dropped. -/
theorem poll_unanswered (hf : f.Steady token) (hd : f.account.refreshDue = false)
    (hl : f.line.send (lastOrderRequest token) = (none, line))
    (h : poll.forget.run f = (e, f')) : e = .dropped ∧ f' = f.withLine line := by
  obtain ⟨ended, hr, rfl⟩ := Call.forget_ended h
  cases poll_steady hf hd hr with
  | dropped hsent =>
    cases hl.symm.trans hsent
    exact ⟨rfl, rfl⟩
  | unreadable hsent => cases hl.symm.trans hsent
  | noted hsent => cases hl.symm.trans hsent

/-- A poll whose request is answered fails harmlessly or tells the order what the answer says. -/
theorem poll_answered {y : Response} (hf : f.Steady token) (hd : f.account.refreshDue = false)
    (hl : f.line.send (lastOrderRequest token) = (some y, line))
    (h : poll.forget.run f = (e, f')) :
    (∃ x, lastRecord y = .error x ∧ watch.isFatal x = false ∧ e = .failed x ∧
      f' = f.withLine line) ∨
    (∃ record order, lastRecord y = .ok record ∧
      f.order.applyPoll record = (.ok order.status, order) ∧
      e = .done () ∧ f' = { f.withLine line with order }) := by
  obtain ⟨ended, hr, rfl⟩ := Call.forget_ended h
  cases poll_steady hf hd hr with
  | dropped hsent => cases hl.symm.trans hsent
  | unreadable hsent hy =>
    cases hl.symm.trans hsent
    exact Or.inl ⟨_, hy, lastRecord_isFatal (hf.line.send hl) hy, rfl, rfl⟩
  | noted hsent hy ho =>
    cases hl.symm.trans hsent
    exact Or.inr ⟨_, _, hy, ho, rfl, rfl⟩

end Answered

theorem outcome_of_awaiting {f : Fridge} (h : f.order.isAwaiting = true) :
    f.order.outcome? = none := by
  obtain ⟨t, ho | ⟨status, ho⟩⟩ := Order.isAwaiting_cases h <;> rw [ho] <;> rfl

/-- Waiting for an order that awaits its result is a row of rounds. -/
theorem waitForCompletion_rounds {f f' : Fridge} {e : Ended (WatchEnd OrderOutcome)}
    (hf : f.order.isAwaiting = true) (h : waitForCompletion.run f = (e, f')) :
    ∃ polls, watch.Rounds f.settings.pollInterval f.attempts 0 f polls e f' := by
  rcases waitForCompletion_cases h with ⟨o, ho, _⟩ | ⟨_, hrounds⟩
  · rw [outcome_of_awaiting hf] at ho
    cases ho
  · exact hrounds

theorem waitForCompletion_of_rounds {f f' : Fridge} {e : Ended (WatchEnd OrderOutcome)}
    {polls : List (Asked Fridge)} (hf : f.order.isAwaiting = true)
    (h : watch.Rounds f.settings.pollInterval f.attempts 0 f polls e f') :
    waitForCompletion.run f = (e, f') := by
  unfold Fridge.waitForCompletion
  rw [Call.run_view_bind]
  have hwatch : (watch.run (.ofSettings f.settings)).run f = (e, f') :=
    Watch.Rounds.watch_eq (outcome_of_awaiting hf) h
  exact hwatch

/-- No poll of a watch that starts now finds a renewal of the access token due. -/
def NeverDue (f : Fridge) : Prop :=
  ∀ polls e f', watch.Rounds f.settings.pollInterval f.attempts 0 f polls e f' →
    ∀ p ∈ polls, p.before.account.refreshDue = false

theorem neverDue_of_arrivals {f : Fridge} (h : ∀ n < f.attempts,
    (watch.arrival f.settings.pollInterval n f).account.refreshDue = false) : f.NeverDue := by
  intro polls e f' hr p hp
  obtain ⟨n, hn, hbefore⟩ := hr.arrivals p hp
  rw [hbefore]
  exact h n hn

end Fridge

end Larder
