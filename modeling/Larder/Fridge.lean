import Larder.Order.Basic
import Larder.Order.Cart
import Larder.Polling.Watch
import Larder.Session.Account
import Larder.Wire.Envelope

namespace Larder

open Json (Decoder)
open Polling (WatchEnd Watch Schedule)

/-- One device: its account and its one order in flight. -/
structure Fridge where
  settings : Settings
  account : Account
  order : Order

namespace Fridge

def previewPath : String := "/api/client/order/preview"

def confirmPath : String := "/api/client/order/confirm"

def cancelPath : String := "/api/client/order/cancel"

def historyPath : String := "/api/client/orders"

def lastOrderPath : String := "/api/client/orders/last"

/-- A fridge without session and order. -/
def new (settings : Settings) (vault : Storage.Vault) (disk : Storage.Disk) (line : Line) :
    Fridge where
  settings := settings
  account := ⟨line, disk, vault, settings.refreshInterval, none⟩
  order := .idle

def line (f : Fridge) : Line := f.account.line

def withLine (line : Line) (f : Fridge) : Fridge :=
  { f with account := { f.account with line } }

def onAccount {α : Type} (c : Call Account α) : Call Fridge α :=
  c.within Fridge.account fun account f => { f with account }

def call (r : Request) : Call Fridge Response := onAccount (Account.authorizedCall r)

def setOrder (order : Order) : Call Fridge Unit := .modify fun f => { f with order }

/-- Take a step of the order. What the step leaves of the order stays, also when it fails. -/
def advance {α : Type} (step : Order.Step α) : Call Fridge α := do
  let taken := step (← Call.view Fridge.order)
  setOrder taken.2
  Call.ofExcept taken.1

def register (r : Wire.Registration) : Call Fridge Unit := onAccount (Account.register r)

/-- Log in; an order of the session before is forgotten. -/
def login (l : Wire.Login) : Call Fridge Unit := do
  onAccount (Account.login l)
  setOrder .idle

def restore : Call Fridge Bool := onAccount Account.restore

/-- Log out; the order is forgotten. -/
def logout : Call Fridge Unit := do
  setOrder .idle
  onAccount Account.logout

/-- The quantities that a list of lines asks for. -/
def requested (lines : List Wire.OrderLine) : Wire.Quantities :=
  .ofList (lines.map fun l => (l.sku, l.quantity))

/-- What is reserved: what the service echoes of it, or else what was asked for. -/
def reservedItems (lines : List Wire.OrderLine) (preview : Wire.Preview) : Wire.Quantities :=
  let echoed := preview.items.filter fun sku quantity => !sku.isEmpty && 0 < quantity
  if echoed.isEmpty then requested lines else echoed

/-- Reserve what is in a cart. -/
def preview (cart : List Wire.OrderLine) : Call Fridge Unit := do
  Call.ofExcept (← Call.view Fridge.order).checkCanPreview
  let lines ← Call.ofExcept (Cart.prepare cart)
  let response ← call ((Request.post previewPath).withBody (Wire.PreviewRequest.mk lines).toJson)
  let preview ← Call.ofExcept (response.content Wire.Preview.decode)
  advance (Order.reserve preview.orderId (reservedItems lines preview))

/-- The id of a reserved order; in any other state a failure with the given wording. -/
def reservedId (wording : String) : Order → Except Failure String
  | .reserved ticket => .ok ticket.orderId
  | o => .error (.notAllowed (wording ++ o.stateName))

/-- Send the id of the reserved order to a path; the service has to accept it. -/
def sendReserved (path wording : String) : Call Fridge Unit := do
  let orderId ← Call.ofExcept (reservedId wording (← Call.view Fridge.order))
  let response ← call ((Request.post path).withBody (Wire.OrderRef.mk orderId).toJson)
  let _ ← Call.ofExcept response.success

/-- Confirm the reservation. -/
def confirm : Call Fridge Unit := do
  sendReserved confirmPath "Nothing to confirm: order is "
  advance Order.confirm

/-- Give the reservation up; gives the id of the order. -/
def cancel : Call Fridge String := do
  sendReserved cancelPath "Only a reserved order can be cancelled: order is "
  advance Order.release

/-- The last order's record in a reply, if the device has one. -/
def lastRecord (r : Response) : Except Failure (Option Wire.OrderRecord) :=
  if r.isNotFound then .ok none
  else (r.content (Wire.Envelope.decode Wire.OrderRecord.decode)).map Wire.Envelope.data

/-- Polling makes sense only for an order that has been confirmed and not settled. -/
def checkCanPoll (o : Order) : Except Failure Unit :=
  if o.isAwaiting then .ok ()
  else .error (.notAllowed ("Nothing to poll: order is " ++ o.stateName))

/-- Ask once how the order is doing; gives the state that it is in then. -/
def poll : Call Fridge OrderStatus := do
  Call.ofExcept (checkCanPoll (← Call.view Fridge.order))
  let response ← call (Request.get lastOrderPath)
  let record ← Call.ofExcept (lastRecord response)
  advance (Order.applyPoll record)

def watch : Watch Fridge OrderOutcome where
  line := Fridge.line
  withLine := Fridge.withLine
  poll := poll.forget
  outcome? := fun f => f.order.outcome?
  isFatal := fun e => e.isUnauthorized || e.isNotAllowed

/-- Poll until the order is settled, within the limits of the settings. -/
def waitForCompletion : Call Fridge (WatchEnd OrderOutcome) := do
  watch.run (Schedule.ofSettings (← Call.view Fridge.settings))

/-- Forget a settled order; gives its outcome. -/
def acknowledge : Call Fridge OrderOutcome := advance Order.acknowledge

/-- All orders of the device, in the service's order. -/
def history : Call Fridge (List Wire.OrderRecord) := do
  let response ← call (Request.get historyPath)
  let envelope ← Call.ofExcept
    (response.content (Wire.Envelope.decode (Json.Decode.sequence Wire.OrderRecord.decode)))
  return envelope.data.getD []

/-- The device's most recent order, if it has one. -/
def lastOrder : Call Fridge (Option Wire.OrderRecord) := do
  let response ← call (Request.get lastOrderPath)
  Call.ofExcept (lastRecord response)

end Fridge

end Larder
