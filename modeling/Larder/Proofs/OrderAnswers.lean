import Larder.Proofs.CallTraces
import Larder.Proofs.Waiting

namespace Larder

/-- The last request of the call was the caller's own, and this is the answer to it. -/
def CallTrace.EndsWith (t : CallTrace) (x : Response) : Prop :=
  ∃ y, t.legs.getLast? = some (.request, y) ∧ y.response? = some x

theorem Response.success_ok {x y : Response} (h : x.success = .ok y) : x.isSuccess = true := by
  unfold Response.success at h
  split at h
  · assumption
  · cases h

/-- Without a record a poll tells an order in progress nothing. -/
theorem Order.applyPoll_none {o o' : Order} {status : OrderStatus}
    (h : Order.applyPoll none o = (.ok status, o')) :
    o' = o ∨ ∃ t, o = .confirming t ∧ o' = .inProgress t "" := by
  cases o with
  | confirming t =>
    cases h
    exact Or.inr ⟨t, rfl, rfl⟩
  | inProgress t last =>
    cases h
    exact Or.inl rfl
  | _ => cases h

namespace Fridge

theorem lastRecord_ok {x : Response} {record : Option Wire.OrderRecord}
    (h : lastRecord x = .ok record) : x.isSuccess = true ∨ (x.status = 404 ∧ record = none) := by
  unfold lastRecord at h
  split at h
  · rename_i hn
    cases h
    exact Or.inr ⟨by simpa [Response.isNotFound] using hn, rfl⟩
  · cases hc : x.content (Wire.Envelope.decode Wire.OrderRecord.decode) with
    | error y =>
      rw [hc] at h
      cases h
    | ok envelope => exact Or.inl (Response.content_ok hc).1

/-- A protected request to this path went out for the fridge, and this was the last answer to it. -/
def Answered (f : Fridge) (path : String) (x : Response) (f' : Fridge) : Prop :=
  ∃ r t held, r.path = path ∧
    (Account.authorizedCall r).run f.account = (.done x, f'.account) ∧
    CallTrace.Follows t f.account r held f'.account.line ∧ t.EndsWith x

variable {α : Type} {f f' : Fridge} {path : String}

theorem answered_of_done {r : Request} {x : Response} {account : Account} (order : Order)
    (h : (Account.authorizedCall r).run f.account = (.done x, account)) :
    f.Answered r.path x { f with account, order } := by
  obtain ⟨t, hc⟩ := Account.authorizedCall_cases h
  obtain ⟨held, hfollows⟩ := hc.follows (by simp)
  exact ⟨r, t, held, rfl, h, hfollows, ((hc.done_iff x).mp rfl).2⟩

/-- An errand moves the order by settling an answer, and in no other way. -/
theorem Errand.moves_order {r : Errand α} {e : Ended α} (h : r.call.run f = (e, f'))
    (hpath : ∀ o q, r.request o = .ok q → q.path = path) (hne : f'.order ≠ f.order) :
    ∃ x a, f.Answered path x f' ∧ r.settle x f.order = (.ok a, f'.order) := by
  cases Errand.call_cases h with
  | @settled q x a order account hr hc hs =>
    have hanswered := answered_of_done order hc
    rw [hpath _ q hr] at hanswered
    exact ⟨x, a, hanswered, hs⟩
  | _ => exact absurd rfl hne

theorem previewErrand_path {cart : List Wire.OrderLine} {o : Order} {q : Request}
    (h : (previewErrand cart).request o = .ok q) : q.path = previewPath := by
  simp only [previewErrand, bind_ok] at h
  obtain ⟨_, _, lines, _, h⟩ := h
  cases h
  rfl

theorem reservedErrand_path {wording : String} {step : Order.Step α} {hs : step.Restores}
    {o : Order} {q : Request} (h : (reservedErrand path wording step hs).request o = .ok q) :
    q.path = path := by
  simp only [reservedErrand, bind_ok] at h
  obtain ⟨orderId, _, h⟩ := h
  cases h
  rfl

theorem pollErrand_path {o : Order} {q : Request} (h : pollErrand.request o = .ok q) :
    q.path = lastOrderPath := by
  simp only [pollErrand, bind_ok] at h
  obtain ⟨_, _, h⟩ := h
  cases h
  rfl

theorem previewErrand_success {cart : List Wire.OrderLine} {x : Response} {o o' : Order}
    {a : Unit} (h : (previewErrand cart).settle x o = (.ok a, o')) : x.isSuccess = true := by
  obtain ⟨_, _, h⟩ := Order.Step.given_ok h
  obtain ⟨preview, hpreview, _⟩ := Order.Step.given_ok h
  exact (Response.content_ok hpreview).1

theorem reservedErrand_success {wording : String} {step : Order.Step α} {hs : step.Restores}
    {x : Response} {o o' : Order} {a : α}
    (h : (reservedErrand path wording step hs).settle x o = (.ok a, o')) :
    x.isSuccess = true := by
  obtain ⟨y, hy, _⟩ := Order.Step.given_ok h
  exact Response.success_ok hy

theorem pollErrand_settles {x : Response} {o o' : Order} {status : OrderStatus}
    (h : pollErrand.settle x o = (.ok status, o')) (hne : o' ≠ o) : x.isSuccess = true ∨
      (x.status = 404 ∧ ∃ t, o = .confirming t ∧ o' = .inProgress t "") := by
  obtain ⟨record, hrecord, happly⟩ := Order.Step.given_ok h
  rcases lastRecord_ok hrecord with hs | ⟨hstatus, rfl⟩
  · exact Or.inl hs
  · exact Or.inr ⟨hstatus, (Order.applyPoll_none happly).resolve_left hne⟩

/-- Where an operation asks the service for a step of the order. -/
def Operation.stepPath? : Operation → Option String
  | preview _ => some previewPath
  | confirm => some confirmPath
  | cancel => some cancelPath
  | poll => some lastOrderPath
  | _ => none

/-- An order moves only when the last answer to the request for the step is a success, or when a
poll is answered 404 and puts a confirmed order in progress. -/
theorem order_moves_on_answer {op : Operation} {e : Ended Unit} (hop : op.stepPath? = some path)
    (h : op.call.run f = (e, f')) (hne : f'.order ≠ f.order) :
    ∃ x, f.Answered path x f' ∧ (x.isSuccess = true ∨
      (op = .poll ∧ x.status = 404 ∧ ∃ t, f.order = .confirming t ∧ f'.order = .inProgress t "")) := by
  cases op with
  | preview cart =>
    cases hop
    rw [Operation.call, preview_eq] at h
    obtain ⟨x, _, hx, hs⟩ := Errand.moves_order h (fun _ _ => previewErrand_path) hne
    exact ⟨x, hx, Or.inl (previewErrand_success hs)⟩
  | confirm =>
    cases hop
    rw [Operation.call, confirm_eq] at h
    obtain ⟨x, _, hx, hs⟩ := Errand.moves_order h (fun _ _ => reservedErrand_path) hne
    exact ⟨x, hx, Or.inl (reservedErrand_success hs)⟩
  | cancel =>
    cases hop
    obtain ⟨ended, hr, _⟩ := Call.forget_cases h
    rw [cancel_eq] at hr
    obtain ⟨x, _, hx, hs⟩ := Errand.moves_order hr (fun _ _ => reservedErrand_path) hne
    exact ⟨x, hx, Or.inl (reservedErrand_success hs)⟩
  | poll =>
    cases hop
    obtain ⟨ended, hr, _⟩ := Call.forget_cases h
    rw [poll_eq] at hr
    obtain ⟨x, _, hx, hs⟩ := Errand.moves_order hr (fun _ _ => pollErrand_path) hne
    exact ⟨x, hx, (pollErrand_settles hs hne).imp_right fun hn => ⟨rfl, hn⟩⟩
  | _ => cases hop

/-- A fridge that asks for its confirmed order when its access token is due. The line renews it,
turns the new one down, renews it once more and says that the order is completed. -/
def informed : Fridge :=
  patient.withLine {
    now := 10000000000000
    replies := [⟨⟨200, Wire.FreshToken.toJson ⟨"b"⟩⟩, 0, false⟩, ⟨⟨401, .null⟩, 0, false⟩,
      ⟨⟨200, Wire.FreshToken.toJson ⟨"c"⟩⟩, 0, false⟩,
      ⟨⟨200, .object [("data", .object [("Status", .text "COMPLETED")])]⟩, 0, false⟩] }

theorem order_moves_on_answer_informed :
    Operation.poll.stepPath? = some "/api/client/orders/last" ∧
    ∃ e f', Operation.poll.call.run informed = (e, f') ∧ f'.order ≠ informed.order ∧
      ∃ x, informed.Answered "/api/client/orders/last" x f' ∧ x.isSuccess = true := by
  have hpath : Operation.poll.stepPath? = some "/api/client/orders/last" := rfl
  have hne : (Operation.poll.call.run informed).2.order ≠ informed.order := by decide +kernel
  have hfinal : (Operation.poll.call.run informed).2.order.stateName = "COMPLETED" := by
    decide +kernel
  obtain ⟨x, hx, hs | ⟨_, _, t, _, ho⟩⟩ := order_moves_on_answer hpath
    (Prod.eta (Operation.poll.call.run informed)).symm hne
  · exact ⟨hpath, _, _, rfl, hne, x, hx, hs⟩
  · rw [ho] at hfinal
    simp [Order.stateName, Order.status, OrderStatus.text] at hfinal

/-- A fridge whose service knows nothing yet of the order that it has confirmed. -/
def unlisted : Fridge := patient.withLine { replies := [⟨⟨404, .null⟩, 0, false⟩] }

/-- The order moves, and the answer is no success. -/
theorem order_moves_on_404 : ∃ f' x, Operation.poll.call.run unlisted = (.done (), f') ∧
    unlisted.Answered "/api/client/orders/last" x f' ∧ x.status = 404 ∧ x.isSuccess = false ∧
    unlisted.order.stateName = "CONFIRMING" ∧ f'.order.stateName = "IN_PROGRESS" := by
  have hrun : Operation.poll.call.run unlisted =
      (.done (), (Operation.poll.call.run unlisted).2) := Prod.ext (by decide +kernel) rfl
  have hstatus : (match ((Account.authorizedCall (.get lastOrderPath)).run unlisted.account).1 with
      | .done x => x.status
      | _ => 0) = 404 := by
    decide +kernel
  have hawaits : unlisted.order.isAwaiting = true := by decide +kernel
  have hrequest : pollErrand.request unlisted.order = .ok (.get lastOrderPath) := by
    simp only [pollErrand, checkCanPoll, hawaits, ↓reduceIte]
    rfl
  have hbefore : unlisted.order.stateName = "CONFIRMING" := by decide +kernel
  have hafter : (Operation.poll.call.run unlisted).2.order.stateName = "IN_PROGRESS" := by
    decide +kernel
  generalize (Operation.poll.call.run unlisted).2 = f' at hrun hafter
  obtain ⟨status, hpoll⟩ := Call.forget_done hrun
  rw [poll_eq] at hpoll
  cases Errand.call_cases hpoll with
  | @settled q x _ order account hr hc =>
    rw [hrequest] at hr
    cases hr
    rw [hc] at hstatus
    change x.status = 404 at hstatus
    have hfailed : x.isSuccess = false := by simp [Response.isSuccess, hstatus]
    exact ⟨_, x, hrun, answered_of_done order hc, hstatus, hfailed, hbefore, hafter⟩

end Fridge

end Larder
