import Larder.Polling.Watch
import Larder.Restock.Basic
import Larder.Restock.Batch
import Larder.Wire.Envelope

namespace Larder

open Polling (WatchEnd Watch Schedule)

/-- A supplier's truck, which hands deliveries in and follows them one at a time. Its requests
carry no token. -/
structure Supplier where
  settings : Settings
  line : Line
  current : Option Restock

namespace Supplier

def registerPath : String := "/api/truck/register"

def restockPath : String := "/api/truck/restock"

def statusPath : String := "/api/truck/restock/status"

/-- A supplier that follows nothing yet. -/
def new (settings : Settings) (line : Line) : Supplier := ⟨settings, line, none⟩

def send (r : Request) : Call Supplier Response :=
  .wait fun s => let (response, line) := s.line.send r; (response, { s with line })

def track (current : Option Restock) : Call Supplier Unit := .modify fun s => { s with current }

/-- Register a truck. -/
def register (t : Truck) : Call Supplier Unit := do
  Call.ofExcept t.validate
  let response ← send ((Request.post registerPath).withBody t.registration.toJson)
  let _ ← Call.ofExcept response.success

/-- A delivery can be handed in when none is unfinished. -/
def checkCanSubmit : Option Restock → Except Failure Unit
  | none => .ok ()
  | some r =>
    if r.isTerminal then .ok ()
    else .error (.notAllowed ("Restock " ++ r.orderId ++ " is still " ++ r.stateName))

/-- The id under which a delivery has been taken on. -/
def acceptedId (r : Response) : Except Failure String := do
  let receipt ← r.content Wire.RestockReceipt.decode
  if receipt.orderId.isEmpty then throw (.badReply "restock response carries no order id")
  return receipt.orderId

/-- Hand a batch in; gives its id. -/
def submit (b : Batch) : Call Supplier String := do
  Call.ofExcept (checkCanSubmit (← Call.view Supplier.current))
  let request ← Call.ofExcept b.request
  let response ← send ((Request.post restockPath).withBody request.toJson)
  let orderId ← Call.ofExcept (acceptedId response)
  track (some (.submitted orderId))
  return orderId

/-- The restock that is followed. -/
def tracked : Call Supplier Restock := do
  match ← Call.view Supplier.current with
  | some r => return r
  | none => Call.fail (.notAllowed "No restock submitted")

/-- Ask once how the delivery is doing; gives the state that it is in then. -/
def poll : Call Supplier RestockStatus := do
  let restock ← tracked
  let response ← send ((Request.get statusPath).withQuery "order_id" restock.orderId)
  let envelope ← Call.ofExcept (response.content (Wire.Envelope.decode Wire.RestockRecord.decode))
  match envelope.data with
  | some record =>
    let (status, restock) := restock.applyPoll record
    track (some restock)
    return status
  | none => return restock.status

def watch : Watch Supplier RestockOutcome where
  line := Supplier.line
  withLine := fun line s => { s with line }
  poll := poll.forget
  outcome? := fun s => s.current.bind Restock.outcome?
  isFatal := Failure.isNotAllowed

/-- Poll until the delivery is settled, within the limits of the settings. -/
def waitForCompletion : Call Supplier (WatchEnd RestockOutcome) := do
  watch.run (Schedule.ofSettings (← Call.view Supplier.settings))

/-- Follow nothing any more. -/
def clear : Call Supplier Unit := track none

end Supplier

end Larder
