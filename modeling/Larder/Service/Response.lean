import Larder.Failure
import Larder.Json.Decode
import Larder.Text.Blank

namespace Larder

/-- What a request comes to. A service that cannot be reached gives a response as well. -/
structure Response where
  status : Nat
  body : Json.Value
  deriving Repr, Inhabited

namespace Response

/-- The status of a response when there was no connection. -/
def noConnection : Nat := 0

def errorBody (message : String) : Json.Value := .object [("error", .text message)]

/-- The response when the service cannot be reached. -/
def connectionFailed (message : String) : Response := ⟨noConnection, errorBody message⟩

/-- A response from the text of its body. No text is an empty object; text that is not JSON is
the message of an error. -/
def ofText (status : Nat) (text : String) : Response :=
  let trimmed := Text.trim text
  if trimmed.isEmpty then ⟨status, .object []⟩
  else
    match Json.Value.ofText trimmed with
    | .ok body => ⟨status, body⟩
    | .error _ => ⟨status, errorBody trimmed⟩

def isSuccess (r : Response) : Bool := 200 ≤ r.status && r.status < 300

def isConnectionFailure (r : Response) : Bool := r.status == noConnection

def isUnauthorized (r : Response) : Bool := r.status == 401

def isNotFound (r : Response) : Bool := r.status == 404

def nonEmpty? (s : String) : Option String := if s.isEmpty then none else some s

/-- The text of a member that is a text and not empty. -/
def memberText? (body : Json.Value) (key : String) : Option String := do
  nonEmpty? (← (← body.member? key).text?)

/-- The error text that the body carries: a text itself, or the first of two members. -/
def errorText? (r : Response) : Option String :=
  match r.body with
  | .text s => nonEmpty? s
  | body => (memberText? body "error").or (memberText? body "message")

/-- What a response means that is no success. -/
def failure (r : Response) : Failure :=
  if r.status = noConnection then
    .unreachable (r.errorText?.getD "Connection to ordering service failed")
  else if r.status = 401 then .unauthorized (r.errorText?.getD "Unauthorized")
  else .refused r.status (r.errorText?.getD "")

def success (r : Response) : Except Failure Response :=
  if r.isSuccess then .ok r else .error r.failure

/-- The content of a success. -/
def content {α : Type} (d : Json.Decoder α) (r : Response) : Except Failure α := do
  let r ← r.success
  (d.ofValue r.body).mapError fun f => .badReply f.message

end Response

end Larder
