import Larder.Json.Printer
import Larder.Line
import Larder.Network.Relay
import Larder.Settings

namespace Larder.Network

/-- A request as the service sees it. -/
structure Packet where
  method : String
  target : String
  authorization : Option String
  contentType : Option String
  body : String
  deriving DecidableEq, Repr

/-- What the service does with a request that has reached it. -/
inductive Delivery where
  /-- An answer; its body may break off. -/
  | answered (status : Nat) (bytes : List Nat) (isCut : Bool := false)
  /-- The connection is closed without an answer. -/
  | closed
  /-- There is never an answer. -/
  | silent
  deriving DecidableEq, Repr

/-- The part of the network that can be reached. -/
inductive Reach where
  | everything
  /-- One port, at any host that need not be looked up, and nothing that is encrypted. -/
  | port (number : Nat)
  deriving DecidableEq, Repr

/-- Whether a request for an address of a scheme gets to the stop that it is sent to. -/
def Reach.holds : Reach → Scheme → Stop → Bool
  | .everything, _, _ => true
  | .port number, scheme, stop =>
    scheme == .plain && stop.scheme == .plain && stop.port == number && stop.host.isKnown

/-- What requests meet on their way. -/
structure Surroundings where
  spell? : Spelling := .plain
  reach : Reach := .everything
  relays : Relays := {}

/-- The stop that a request for an address is sent to. -/
def Surroundings.next? (s : Surroundings) (a : Address) : Option Stop :=
  match s.relays.between? a with
  | none => some a.stop
  | some (.web stop) => some stop
  | some .foreign => none

/-- Why there was no connection. -/
inductive Trouble where
  | timedOut
  | failed
  deriving DecidableEq, Repr

def Trouble.reason : Trouble → String
  | .timedOut => "request timed out"
  | .failed => "connection failed"

/-- Whatever goes wrong on the way is a response without connection. -/
def unreachable (baseUrl : String) (t : Trouble) : Response :=
  .connectionFailed ("Cannot connect to ordering service at " ++ baseUrl ++ " (" ++ t.reason ++
    "). Make sure it is running.")

def Surroundings.address? (s : Surroundings) (baseUrl : String) (r : Request) : Option Address :=
  (Address.ofText? s.spell? (baseUrl ++ r.path)).map (·.withQuery r.query)

/-- Whether a token can stand in a header: it has no control character but the tab. -/
def fitsHeader (token : String) : Bool :=
  token.toList.all fun c => c == '\t' || (0x20 ≤ c.toNat && c.toNat != 0x7F)

/-- Without the blanks that headers may have around their values. -/
def trimHeader (s : String) : String :=
  let isGap := fun c : Char => c == ' ' || c == '\t'
  String.ofList ((s.toList.dropWhile isGap).reverse.dropWhile isGap).reverse

/-- A request that asks for a connection to the service and not for something there. -/
def asksForConnection (method : String) : Bool := method == "CONNECT"

/-- Who sends a request: a token says so, or else the credentials of the address. -/
def authorization? (a : Address) (bearer : Option String) : Option String :=
  (bearer.map fun token => trimHeader ("Bearer " ++ token)).or (a.credentials.map (·.header))

/-- How a request names what it is for. A relay has to be told the whole address, unless it only
passes on what is encrypted. -/
def Surroundings.target (s : Surroundings) (method : String) (a : Address) : String :=
  if asksForConnection method then a.site
  else if a.scheme == .plain && (s.relays.between? a).isSome then a.text
  else a.target

/-- The most bytes that an address may have. -/
def longestAddress : Nat := 65534

/-- The request as it goes out, unless it cannot. -/
def packet? (s : Surroundings) (baseUrl : String) (r : Request) : Option Packet := do
  let a ← s.address? baseUrl r
  let stop ← s.next? a
  if s.reach.holds a.scheme stop && a.text.utf8ByteSize ≤ longestAddress &&
      (r.bearer.map fitsHeader).getD true then
    some {
      method := r.method
      target := s.target r.method a
      authorization := authorization? a r.bearer
      contentType := r.body.map fun _ => "application/json"
      body := (r.body.map Json.Value.print).getD "" }
  else none

/-- Whether a status ends an exchange; those below 200 only announce an answer, but for the one
that changes protocols. -/
def isFinal (status : Nat) : Bool := status == 101 || (200 ≤ status && status ≤ 999)

/-- Whether an answer has no body whatever the service sends. Behind a connection that is granted
there is none either. -/
def hasNoBody (method : String) (status : Nat) : Bool :=
  method == "HEAD" || status == 101 || status == 204 || status == 304 ||
    (asksForConnection method && 200 ≤ status && status < 300)

/-- The response that a delivery comes to, for a request with this method. -/
def Delivery.response (settings : Settings) (method : String) : Delivery → Response
  | .answered status bytes isCut =>
    if !isFinal status then unreachable settings.baseUrl .failed
    else if hasNoBody method status then .ofText status ""
    else if isCut then unreachable settings.baseUrl .failed
    else .ofText status (Text.Utf8.decodeLenient bytes)
  | .closed => unreachable settings.baseUrl .failed
  | .silent => unreachable settings.baseUrl .timedOut

/-- How long the response is waited for, apart from the way. -/
def Delivery.delay (settings : Settings) : Delivery → Nat
  | .silent => settings.timeout
  | _ => 0

/-- An outlet to the network: requests that cannot go out are answered at once. -/
def outlet (s : Surroundings) (baseUrl : String) (whenEmpty? : Option Reply) : Outlet where
  refusal? := fun r =>
    if (packet? s baseUrl r).isSome then none else some (unreachable baseUrl .failed)
  whenEmpty? := whenEmpty?

/-- The responses to requests sent one after another. Each that goes out meets the service's next
delivery, or the last one given when none is left. -/
def exchange (s : Surroundings) (settings : Settings) (last : Delivery) :
    List Request → List Delivery → List Response
  | [], _ => []
  | r :: rs, ds =>
    if (packet? s settings.baseUrl r).isSome then
      (ds.headD last).response settings r.method :: exchange s settings last rs (ds.drop 1)
    else unreachable settings.baseUrl .failed :: exchange s settings last rs ds

/-- The packets of the requests that went out. -/
def packets (s : Surroundings) (baseUrl : String) (sent : List Request) : List Packet :=
  sent.filterMap (packet? s baseUrl)

end Larder.Network
