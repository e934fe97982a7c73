import Larder.Polling.Status
import Larder.Wire.Restock

namespace Larder

/-- The state of a restock without its data. -/
inductive RestockStatus where
  | submitted
  | inProgress
  | completed
  | failed
  deriving DecidableEq, Repr

namespace RestockStatus

def text : RestockStatus → String
  | submitted => "SUBMITTED"
  | inProgress => "IN_PROGRESS"
  | completed => "COMPLETED"
  | failed => "FAILED"

def isTerminal : RestockStatus → Bool
  | completed | failed => true
  | _ => false

end RestockStatus

/-- A delivery that has been handed in, as it was seen last. -/
inductive Restock where
  | submitted (orderId : String)
  /-- Holds the status that the service reported last. -/
  | inProgress (orderId status : String)
  | completed (orderId : String) (totalCost : Decimal)
  | failed (orderId status : String)
  deriving DecidableEq, Repr

/-- What a settled restock came to. -/
inductive RestockOutcome where
  | completed (orderId : String) (totalCost : Decimal)
  | failed (orderId status : String)
  deriving DecidableEq, Repr

namespace Restock

def status : Restock → RestockStatus
  | submitted _ => .submitted
  | inProgress _ _ => .inProgress
  | completed _ _ => .completed
  | failed _ _ => .failed

def stateName (r : Restock) : String := r.status.text

def orderId : Restock → String
  | submitted orderId | inProgress orderId _ | completed orderId _ | failed orderId _ => orderId

def serviceStatus? : Restock → Option String
  | inProgress _ status | failed _ status => some status
  | _ => none

def isTerminal (r : Restock) : Bool := r.status.isTerminal

def outcome? : Restock → Option RestockOutcome
  | completed orderId total => some (.completed orderId total)
  | failed orderId status => some (.failed orderId status)
  | _ => none

/-- The restock when a record has been seen; a cancelled delivery counts as failed. -/
def afterRecord (orderId : String) (record : Wire.RestockRecord) : Restock :=
  match Polling.classify record.status with
  | .completed => completed orderId record.totalCost
  | .failed | .cancelled => failed orderId record.status
  | .pending => inProgress orderId record.status

/-- The restock after a poll that has brought a record. A settled one never changes again. -/
def afterPoll (record : Wire.RestockRecord) (r : Restock) : Restock :=
  if r.isTerminal then r else afterRecord r.orderId record

/-- Take note of a polled record; gives the state that the restock is in then. -/
def applyPoll (record : Wire.RestockRecord) (r : Restock) : RestockStatus × Restock :=
  let r := r.afterPoll record
  (r.status, r)

end Restock

end Larder
