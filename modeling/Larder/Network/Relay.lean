import Larder.Network.Address
import Larder.Text.Blank

namespace Larder.Network

/-- What is asked in place of the service that an address leads to. -/
inductive Relay where
  | web (stop : Stop)
  /-- One that speaks another protocol, so that nothing gets through. -/
  | foreign
  deriving DecidableEq, Repr

namespace Relay

/-- Whether a character may stand in the text of a relay's host. -/
def isPart (c : Char) : Bool := isVisible c.toNat && !isOneOf "\"%<>\\^`\x7b|\x7d" c.toNat

def isSchemePart (c : Char) : Bool := c.isAlphanum || c == '+' || c == '-' || c == '.'

/-- The scheme, if one is written, and what follows it. -/
def cutScheme (cs : List Char) : Option (List Char) × List Char :=
  let scheme := cs.takeWhile isSchemePart
  match cs.drop scheme.length with
  | ':' :: '/' :: '/' :: r => (some scheme, r)
  | _ => (none, cs)

/-- The relay at a host and a port. A port that is no number is the usual one. -/
def ofSite? (scheme : Scheme) (site : List Char) : Option Relay :=
  let part := hostPart false site
  let tail := (site.drop part.length).drop 1
  if tail.contains ':' then none
  else
    let port := ((Text.natOfChars? tail).filter (· < UInt16.size)).getD scheme.defaultPort
    some ((Host.ofChars? .plain part).elim foreign fun host => web ⟨scheme, host, port⟩)

/-- Protocols that a relay may speak besides the web protocol. -/
def foreignSchemes : List String := ["socks4", "socks4a", "socks5", "socks5h"]

/-- Read a relay: a host and a port, behind a scheme and credentials if those are written. -/
def ofText? (s : String) : Option Relay := do
  let (scheme?, rest) := cutScheme s.toList
  let authority := rest.takeWhile fun c => c != '/' && c != '?' && c != '#'
  let (user, site) := cutAtSign authority
  if site.isEmpty || !site.all isPart || !user.all (fun c => isPart c || c == '%') then none
  match scheme? with
  | none => if authority.length < rest.length then none else ofSite? .plain site
  | some name =>
    match Scheme.ofChars? name with
    | some scheme => ofSite? scheme site
    | none =>
      let _ ← ofSite? .plain site
      if foreignSchemes.contains (String.ofList (name.map Char.toLower)) then return foreign
      else none

end Relay

/-- Hosts that are reached without a relay. -/
inductive Exemption where
  /-- Those whose number has this width and agrees in the first bits. -/
  | numbers (width number bits : Nat)
  /-- A name and the names below it. An asterisk stands for all names. -/
  | names (name : String)
  deriving DecidableEq, Repr

namespace Exemption

/-- The width and the value of a number that is written in its usual form. -/
def number? (cs : List Char) : Option (Nat × Nat) :=
  ((Host.quad? cs).map fun groups => (32, Host.ofGroups groups)).or
    ((Host.long? cs).bind Host.number?)

/-- Read a number, a number with a count of bits, or a name. -/
def ofText? (s : String) : Option Exemption :=
  let cs := Text.trimChars s.toList
  let number := number? (cs.takeWhile (· != '/'))
  match number, cs.dropWhile (· != '/') with
  | some (width, n), [] => some (numbers width n width)
  | some (width, n), _ :: digits =>
    match (Text.natOfChars? digits).filter (· ≤ width) with
    | some bits => some (numbers width n bits)
    | none => some (names (String.ofList cs))
  | none, _ => if cs.isEmpty then none else some (names (String.ofList cs))

/-- Whether one name is another or below it. -/
def isBelow (name upper : String) : Bool :=
  let bare := if upper.toList.head? == some '.' then upper.toList.drop 1 else upper.toList
  name.toList == bare || ('.' :: bare).isSuffixOf name.toList

def holds (e : Exemption) (h : Host) : Bool :=
  match e, h.number? with
  | numbers width n bits, some (hostWidth, hostNumber) =>
    let rest := Nat.pow 2 (width - bits)
    width == hostWidth && n / rest == hostNumber / rest
  | names name, none => name == "*" || isBelow h.text name
  | _, _ => false

end Exemption

/-- The relays that requests go through, by the scheme of their address, and the hosts that are
reached without them. -/
structure Relays where
  plain? : Option Relay := none
  secure? : Option Relay := none
  exempt : List Exemption := []
  deriving DecidableEq, Repr

namespace Relays

/-- The first of some variables that is set. -/
def firstSet (lookup : String → Option String) (names : List String) : String :=
  (names.findSome? lookup).getD ""

def plainNames : List String := ["HTTP_PROXY", "http_proxy"]

def secureNames : List String := ["HTTPS_PROXY", "https_proxy"]

def anyNames : List String := ["ALL_PROXY", "all_proxy"]

def exemptNames : List String := ["NO_PROXY", "no_proxy"]

/-- Set where the program answers a request itself; the variables come from that request then. -/
def answeringName : String := "REQUEST_METHOD"

def variableNames : List String :=
  answeringName :: plainNames ++ secureNames ++ anyNames ++ exemptNames

/-- The relays that variables name. -/
def ofVariables (lookup : String → Option String) : Relays :=
  let first := firstSet lookup
  if (lookup answeringName).isSome then {}
  else
    { plain? := (Relay.ofText? (first plainNames)).or (Relay.ofText? (first anyNames))
      secure? := (Relay.ofText? (first secureNames)).or (Relay.ofText? (first anyNames))
      exempt := ((first exemptNames).toList.splitOn ',').filterMap fun cs =>
        Exemption.ofText? (String.ofList cs) }

/-- The relay for requests to an address. -/
def between? (rs : Relays) (a : Address) : Option Relay :=
  if rs.exempt.any (·.holds a.host) then none
  else
    match a.scheme with
    | .plain => rs.plain?
    | .secure => rs.secure?

end Relays

end Larder.Network
