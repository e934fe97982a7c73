import Larder.Service.Request
import Larder.Service.Response

namespace Larder

structure Reply where
  response : Response
  delay : Nat := 0
  /-- The caller stops waiting while this reply is on its way. -/
  interrupts : Bool := false
  deriving Repr

/-- What a line does by itself: it may refuse to carry a request, and it may have an answer of its
own when no reply is left. Without one the request stays unanswered. -/
structure Outlet where
  refusal? : Request → Option Response
  whenEmpty? : Option Reply

/-- An outlet that carries every request. -/
def Outlet.direct : Outlet :=
  ⟨fun _ => none, some { response := .connectionFailed "script exhausted" }⟩

/-- The line to the service, with a clock that only waiting moves on. -/
structure Line where
  outlet : Outlet := .direct
  now : Nat := 0
  replies : List Reply := []
  /-- All requests so far, the first one first. -/
  sent : List Request := []
  cancelAt : Option Nat := none
  dropAt : Option Nat := none

namespace Line

/-- Thirty years of 365 days, in milliseconds. -/
def longestWait : Nat := 946080000000

/-- The instant at which a wait that starts now ends. -/
def after (l : Line) (wait : Nat) : Nat := l.now + min wait longestWait

def isCancelled (l : Line) : Bool :=
  match l.cancelAt with
  | some c => c ≤ l.now
  | none => false

/-- The reply to a request, and the replies left after it. -/
def answer (l : Line) (r : Request) : Option Reply × List Reply :=
  match l.outlet.refusal? r, l.replies with
  | some refusal, replies => (some { response := refusal }, replies)
  | none, [] => (l.outlet.whenEmpty?, [])
  | none, reply :: replies => (some reply, replies)

/-- The caller stops waiting now, unless it has before. -/
def interrupted (l : Line) : Line := { l with cancelAt := some ((l.cancelAt.getD l.now).min l.now) }

/-- Wait until an instant, unless the operation is dropped before it. -/
def waitUntil (t : Nat) (l : Line) : Option Unit × Line :=
  match l.dropAt with
  | some d => if d < t then (none, { l with now := d }) else (some (), { l with now := t })
  | none => (some (), { l with now := t })

/-- Send a request and wait for the reply; without one the operation is dropped there. -/
def send (r : Request) (l : Line) : Option Response × Line :=
  let (reply?, replies) := l.answer r
  let l := { l with sent := l.sent ++ [r], replies }
  match reply? with
  | none => (none, l)
  | some reply =>
    let l := if reply.interrupts then l.interrupted else l
    match l.waitUntil (l.after reply.delay) with
    | (some (), l) => (some reply.response, l)
    | (none, l) => (none, l)

/-- Wait for a while; false when the caller stops waiting first. -/
def sleep (interval : Nat) (l : Line) : Option Bool × Line :=
  let target := l.after interval
  match l.cancelAt with
  | some c =>
    if c ≤ target then
      match l.waitUntil (max c l.now) with
      | (some (), l) => (some false, l)
      | (none, l) => (none, l)
    else
      match l.waitUntil target with
      | (some (), l) => (some true, l)
      | (none, l) => (none, l)
  | none =>
    match l.waitUntil target with
    | (some (), l) => (some true, l)
    | (none, l) => (none, l)

end Line

end Larder
