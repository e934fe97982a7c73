import Larder.Fridge
import Larder.Proofs.Calls
import Larder.Proofs.Orders

namespace Larder

variable {α β : Type}

namespace Order.Step

/-- Take a step that needs a value, unless getting the value has failed. -/
def given (x : Except Failure α) (step : α → Step β) : Step β := fun o =>
  match x with
  | .ok a => step a o
  | .error e => (.error e, o)

variable {x : Except Failure α} {step : α → Step β}

theorem given_ok {o o' : Order} {b : β} (h : given x step o = (.ok b, o')) :
    ∃ a, x = .ok a ∧ step a o = (.ok b, o') := by
  cases x with
  | error e => cases h
  | ok a => exact ⟨a, rfl, h⟩

theorem given_error {o o' : Order} {e : Failure} (h : given x step o = (.error e, o')) :
    x = .error e ∨ ∃ a, x = .ok a ∧ step a o = (.error e, o') := by
  cases x with
  | error e =>
    cases h
    exact Or.inl rfl
  | ok a => exact Or.inr ⟨a, rfl, h⟩

theorem Restores.given (h : ∀ a, (step a).Restores) : (given x step).Restores := by
  intro o e o' hs
  cases x with
  | error e =>
    cases hs
    rfl
  | ok a => exact h a o e o' hs

end Order.Step

namespace Fridge

/-- One protected call for an order, with a step of the order after it. Six operations of a fridge
are errands. -/
structure Errand (α : Type) where
  /-- What the order calls for, if it allows the errand. -/
  request : Order → Except Failure Request
  /-- The step that a response comes to. -/
  settle : Response → Order.Step α
  restores : ∀ response, (settle response).Restores

def Errand.call (r : Errand α) : Call Fridge α := do
  let request ← Call.ofExcept (r.request (← Call.view Fridge.order))
  let response ← Fridge.call request
  advance (r.settle response)

def previewErrand (cart : List Wire.OrderLine) : Errand Unit where
  request o := do
    o.checkCanPreview
    let lines ← Cart.prepare cart
    return (Request.post previewPath).withBody (Wire.PreviewRequest.mk lines).toJson
  settle response :=
    .given (Cart.prepare cart) fun lines =>
      .given (response.content Wire.Preview.decode) fun preview =>
        Order.reserve preview.orderId (reservedItems lines preview)
  restores _ := .given fun _ => .given fun _ => Order.reserve_restores _ _

/-- Send the id of the reserved order to a path, and take a step when that is accepted. -/
def reservedErrand (path wording : String) (step : Order.Step α) (h : step.Restores) :
    Errand α where
  request o := do
    let orderId ← reservedId wording o
    return (Request.post path).withBody (Wire.OrderRef.mk orderId).toJson
  settle response := .given response.success fun _ => step
  restores _ := .given fun _ => h

def confirmErrand : Errand Unit :=
  reservedErrand confirmPath "Nothing to confirm: order is " Order.confirm Order.confirm_restores

def cancelErrand : Errand String :=
  reservedErrand cancelPath "Only a reserved order can be cancelled: order is " Order.release
    Order.release_restores

def pollErrand : Errand OrderStatus where
  request o := do
    checkCanPoll o
    return Request.get lastOrderPath
  settle response := .given (lastRecord response) Order.applyPoll
  restores _ := .given Order.applyPoll_restores

/-- Ask for something that the order has no part in. -/
def query (path : String) (read : Response → Except Failure α) : Errand α where
  request _ := return Request.get path
  settle response o := (read response, o)
  restores response o x o' h := by
    exact (Prod.mk.inj h).2.symm

def historyErrand : Errand (List Wire.OrderRecord) :=
  query historyPath fun response => do
    let envelope ←
      response.content (Wire.Envelope.decode (Json.Decode.sequence Wire.OrderRecord.decode))
    return envelope.data.getD []

def lastOrderErrand : Errand (Option Wire.OrderRecord) := query lastOrderPath lastRecord

theorem advance_given (x : Except Failure α) (step : α → Order.Step β) :
    (Call.ofExcept x >>= fun a => advance (step a)) = advance (.given x step) := by
  cases x <;> rfl

theorem advance_query (x : Except Failure α) : (advance fun o => (x, o)) = Call.ofExcept x := by
  cases x <;> rfl

theorem preview_eq (cart : List Wire.OrderLine) : preview cart = (previewErrand cart).call := by
  unfold preview previewErrand Errand.call
  simp only [Call.ofExcept_bind, Call.ofExcept_pure, bind_assoc, pure_bind, advance_given]
  cases Cart.prepare cart <;> rfl

theorem confirm_eq : confirm = confirmErrand.call := by
  unfold confirm sendReserved confirmErrand reservedErrand Errand.call
  simp only [Call.ofExcept_bind, Call.ofExcept_pure, bind_assoc, pure_bind, advance_given]

theorem cancel_eq : cancel = cancelErrand.call := by
  unfold cancel sendReserved cancelErrand reservedErrand Errand.call
  simp only [Call.ofExcept_bind, Call.ofExcept_pure, bind_assoc, pure_bind, advance_given]

theorem poll_eq : poll = pollErrand.call := by
  unfold poll pollErrand Errand.call
  simp only [Call.ofExcept_bind, Call.ofExcept_pure, bind_assoc, pure_bind, advance_given]

theorem history_eq : history = historyErrand.call := by
  unfold history historyErrand query Errand.call
  simp only [advance_query, Call.ofExcept_bind, Call.ofExcept_pure, pure_bind]
  rfl

theorem lastOrder_eq : lastOrder = lastOrderErrand.call := by
  unfold lastOrder lastOrderErrand query Errand.call
  simp only [advance_query, Call.ofExcept_pure, pure_bind]
  rfl

section Advance

variable {step : Order.Step α} {f : Fridge}

theorem advance_ok {a : α} {order : Order} (h : step f.order = (.ok a, order)) :
    (advance step).run f = (.done a, { f with order }) := by
  unfold advance
  rw [Call.run_view_bind, h]
  rfl

theorem advance_error {x : Failure} (h : step f.order = (.error x, f.order)) :
    (advance step).run f = (.failed x, f) := by
  unfold advance
  rw [Call.run_view_bind, h]
  rfl

/-- A step of the order is done, or it fails and nothing has changed. -/
theorem advance_cases {f' : Fridge} {e : Ended α} (hs : step.Restores)
    (h : (advance step).run f = (e, f')) :
    (∃ a order, step f.order = (.ok a, order) ∧ e = .done a ∧ f' = { f with order }) ∨
    (∃ x, step f.order = (.error x, f.order) ∧ e = .failed x ∧ f' = f) := by
  cases hstep : step f.order with
  | mk result order =>
    cases result with
    | ok a =>
      cases (advance_ok hstep).symm.trans h
      exact Or.inl ⟨a, order, rfl, rfl, rfl⟩
    | error x =>
      cases hs _ _ _ hstep
      cases (advance_error hstep).symm.trans h
      exact Or.inr ⟨x, rfl, rfl, rfl⟩

theorem advance_finishes {P : Fridge → Prop} (hP : ∀ f order, P f → P { f with order })
    (step : Order.Step α) : Call.Finishes P (advance step) :=
  (Call.Finishes.view _).bind fun _ => (Call.Finishes.modify fun f hf => hP f _ hf).bind fun _ =>
    Call.Finishes.ofExcept _

end Advance

theorem onAccount_cases {c : Call Account α} {f f' : Fridge} {e : Ended α}
    (h : (onAccount c).run f = (e, f')) :
    ∃ account, c.run f.account = (e, account) ∧ f' = { f with account } :=
  Call.within_cases h

/-- How an errand goes. -/
inductive Errand.Goes (r : Errand α) (f : Fridge) : Ended α → Fridge → Prop where
  | refused {x : Failure} (hr : r.request f.order = .error x) : Goes r f (.failed x) f
  | failed {request : Request} {x : Failure} {account : Account}
      (hr : r.request f.order = .ok request)
      (hc : (Account.authorizedCall request).run f.account = (.failed x, account)) :
      Goes r f (.failed x) { f with account }
  | dropped {request : Request} {account : Account} (hr : r.request f.order = .ok request)
      (hc : (Account.authorizedCall request).run f.account = (.dropped, account)) :
      Goes r f .dropped { f with account }
  | unsettled {request : Request} {response : Response} {x : Failure} {account : Account}
      (hr : r.request f.order = .ok request)
      (hc : (Account.authorizedCall request).run f.account = (.done response, account))
      (hs : r.settle response f.order = (.error x, f.order)) :
      Goes r f (.failed x) { f with account }
  | settled {request : Request} {response : Response} {a : α} {order : Order} {account : Account}
      (hr : r.request f.order = .ok request)
      (hc : (Account.authorizedCall request).run f.account = (.done response, account))
      (hs : r.settle response f.order = (.ok a, order)) :
      Goes r f (.done a) { f with account, order }

theorem Errand.call_cases {r : Errand α} {f f' : Fridge} {e : Ended α}
    (h : r.call.run f = (e, f')) : r.Goes f e f' := by
  unfold Errand.call at h
  rw [Call.run_view_bind] at h
  cases hr : r.request f.order with
  | error x =>
    rw [hr] at h
    cases h
    exact .refused hr
  | ok request =>
    rw [hr, Call.ofExcept_ok_bind] at h
    rcases Call.bind_cases h with ⟨response, f₁, hc, h⟩ | ⟨x, hc, rfl⟩ | ⟨hc, rfl⟩
    all_goals obtain ⟨account, ha, rfl⟩ := onAccount_cases hc
    · rcases advance_cases (r.restores response) h with
        ⟨a, order, hs, rfl, rfl⟩ | ⟨x, hs, rfl, rfl⟩
      · exact .settled hr ha hs
      · exact .unsettled hr ha hs
    · exact .failed hr ha
    · exact .dropped hr ha

end Fridge

end Larder
