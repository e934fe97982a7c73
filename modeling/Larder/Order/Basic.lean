import Larder.Failure
import Larder.Polling.Status
import Larder.Wire.Order

namespace Larder

/-- What identifies an order from its reservation on: its id and the reserved quantities. -/
structure Ticket where
  orderId : String
  items : Wire.Quantities
  deriving DecidableEq, Repr

/-- The one order that a device may have in flight: reserved, confirmed, polled until the service
settles it, and forgotten when its outcome is acknowledged. -/
inductive Order where
  | idle
  | reserved (ticket : Ticket)
  | confirming (ticket : Ticket)
  /-- Holds the status that the service reported last. -/
  | inProgress (ticket : Ticket) (status : String)
  | completed (ticket : Ticket) (totalPrice : Decimal)
  | failed (ticket : Ticket) (status : String)
  | cancelled (ticket : Ticket)
  deriving DecidableEq, Repr

/-- The state of an order without its data. -/
inductive OrderStatus where
  | none
  | reserved
  | confirming
  | inProgress
  | completed
  | failed
  | cancelled
  deriving DecidableEq, Repr

def OrderStatus.text : OrderStatus → String
  | none => "NONE"
  | reserved => "RESERVED"
  | confirming => "CONFIRMING"
  | inProgress => "IN_PROGRESS"
  | completed => "COMPLETED"
  | failed => "FAILED"
  | cancelled => "CANCELLED"

/-- What a settled order came to. -/
inductive OrderOutcome where
  | completed (ticket : Ticket) (totalPrice : Decimal)
  | failed (orderId status : String)
  | cancelled (orderId : String)
  deriving DecidableEq, Repr

namespace OrderOutcome

def orderId : OrderOutcome → String
  | completed ticket _ => ticket.orderId
  | failed orderId _ => orderId
  | cancelled orderId => orderId

/-- A failed order counts as a failure of the operation. -/
def settle : OrderOutcome → Except Failure OrderOutcome
  | failed orderId status => .error (.orderFailed orderId status)
  | other => .ok other

end OrderOutcome

namespace Order

def status : Order → OrderStatus
  | idle => .none
  | reserved _ => .reserved
  | confirming _ => .confirming
  | inProgress _ _ => .inProgress
  | completed _ _ => .completed
  | failed _ _ => .failed
  | cancelled _ => .cancelled

def stateName (o : Order) : String := o.status.text

def ticket? : Order → Option Ticket
  | idle => none
  | reserved t | confirming t | inProgress t _ | completed t _ | failed t _ | cancelled t => some t

def orderId? (o : Order) : Option String := o.ticket?.map Ticket.orderId

def items? (o : Order) : Option Wire.Quantities := o.ticket?.map Ticket.items

def serviceStatus? : Order → Option String
  | inProgress _ status | failed _ status => some status
  | _ => none

def totalPrice? : Order → Option Decimal
  | completed _ total => some total
  | _ => none

def isActive (o : Order) : Bool := o.ticket?.isSome

/-- Confirmed and not settled yet. -/
def isAwaiting : Order → Bool
  | confirming _ | inProgress _ _ => true
  | _ => false

def isTerminal : Order → Bool
  | completed _ _ | failed _ _ | cancelled _ => true
  | _ => false

def outcome? : Order → Option OrderOutcome
  | completed ticket total => some (.completed ticket total)
  | failed ticket status => some (.failed ticket.orderId status)
  | cancelled ticket => some (.cancelled ticket.orderId)
  | _ => none

/-- The failure of an operation that the order's state does not allow. -/
def refuse {α : Type} (action : String) (o : Order) : Except Failure α :=
  .error (.notAllowed ("Cannot " ++ action ++ " while order is " ++ o.stateName))

/-- A new order can be previewed only when none is in flight. -/
def checkCanPreview (o : Order) : Except Failure Unit :=
  match o.orderId? with
  | none => .ok ()
  | some orderId =>
    .error (.notAllowed ("Order " ++ orderId ++ " is " ++ o.stateName ++
      "; finish it before starting a new one"))

/-- A step of an order: what it gives or the failure that it ends in, and the order that it
leaves. -/
abbrev Step (α : Type) : Type := Order → Except Failure α × Order

def reserve (orderId : String) (items : Wire.Quantities) : Step Unit := fun o =>
  match o.checkCanPreview with
  | .error e => (.error e, o)
  | .ok () =>
    if orderId.isEmpty then (.error (.badReply "preview response carries no order id"), o)
    else (.ok (), reserved ⟨orderId, items⟩)

def confirm : Step Unit
  | reserved ticket => (.ok (), confirming ticket)
  | o => (o.refuse "confirm", o)

/-- Give a reservation up; gives its id. -/
def release : Step String
  | reserved ticket => (.ok ticket.orderId, idle)
  | o => (o.refuse "cancel", o)

/-- Whether a record is about the order with this id. -/
def concerns (record : Wire.OrderRecord) (orderId : String) : Bool :=
  record.orderId.isEmpty || record.orderId == orderId

/-- The order when a record about it has been seen. -/
def afterRecord (ticket : Ticket) (record : Wire.OrderRecord) : Order :=
  match Polling.classify record.status with
  | .completed => completed ticket record.totalPrice
  | .failed => failed ticket record.status
  | .cancelled => cancelled ticket
  | .pending => inProgress ticket record.status

/-- The order after a poll. A record of another order tells no more than no record. -/
def afterPoll (ticket : Ticket) (lastStatus : String) (record : Option Wire.OrderRecord) : Order :=
  match record.filter (concerns · ticket.orderId) with
  | some r => afterRecord ticket r
  | none => inProgress ticket lastStatus

/-- A poll that has been taken note of gives the state that the order is in then. -/
def told (o : Order) : Except Failure OrderStatus × Order := (.ok o.status, o)

/-- Take note of what a poll brought: a record, or word that there is none yet. -/
def applyPoll (record : Option Wire.OrderRecord) : Step OrderStatus
  | confirming ticket => told (afterPoll ticket "" record)
  | inProgress ticket status => told (afterPoll ticket status record)
  | o => (o.refuse "poll", o)

/-- Forget a settled order; gives its outcome. -/
def acknowledge : Step OrderOutcome := fun o =>
  match o.outcome? with
  | some outcome => (.ok outcome, idle)
  | none => (o.refuse "acknowledge", o)

end Order

end Larder
