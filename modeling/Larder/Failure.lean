import Larder.Json.Fault

namespace Larder

/-- The ways in which an operation of a client can fail. -/
inductive Failure where
  /-- The service could not be reached, or did not answer in time. -/
  | unreachable (message : String)
  /-- The credentials are wrong, or the refresh token was turned down. -/
  | unauthorized (message : String)
  /-- The input was turned down before any request was sent. -/
  | invalid (message : String)
  /-- The service answered with a status that is no success. -/
  | refused (status : Nat) (message : String)
  /-- The order was settled in a failing status. -/
  | orderFailed (orderId status : String)
  /-- The operation is not allowed in the present state. -/
  | notAllowed (message : String)
  /-- A success whose body is not what it should be. -/
  | badReply (message : String)
  /-- The local session cache cannot be read or written. -/
  | storage (message : String)
  /-- Data that cannot be read as a document. -/
  | malformed (fault : Json.Fault)
  deriving DecidableEq, Repr

namespace Failure

/-- The wording for a log. -/
def describe : Failure → String
  | unreachable m => "Transport error: " ++ m
  | unauthorized m => "Authentication failed: " ++ m
  | invalid m => "Validation error: " ++ m
  | refused status m => "Service error (" ++ toString status ++ "): " ++ m
  | orderFailed orderId status => "Order " ++ orderId ++ " failed with status " ++ status
  | notAllowed m => "Invalid state: " ++ m
  | badReply m => "Invalid response: " ++ m
  | storage m => "Storage error: " ++ m
  | malformed f => "Serialization error: " ++ f.message

/-- The wording for the person at the terminal. -/
def userMessage : Failure → String
  | unreachable m => m
  | unauthorized m => "Authentication failed: " ++ m
  | invalid m => m
  | refused status m =>
    if m.isEmpty then "Request failed (HTTP " ++ toString status ++ ")" else m
  | orderFailed orderId status => "Order " ++ orderId ++ " failed: " ++ status
  | notAllowed m => m
  | badReply m => "Unexpected response from ordering service: " ++ m
  | storage m => "Could not access local session cache: " ++ m
  | malformed f => "Malformed data: " ++ f.message

def isUnreachable : Failure → Bool
  | unreachable _ => true
  | _ => false

def isUnauthorized : Failure → Bool
  | unauthorized _ => true
  | _ => false

def isNotAllowed : Failure → Bool
  | notAllowed _ => true
  | _ => false

end Failure

end Larder
