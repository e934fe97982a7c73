import Larder.Network.Credentials
import Larder.Network.Host

namespace Larder.Network

/-- How a host is spoken to: openly, or over an encrypted channel. -/
inductive Scheme where
  | plain
  | secure
  deriving DecidableEq, Repr

namespace Scheme

def text : Scheme → String
  | plain => "http"
  | secure => "https"

def defaultPort : Scheme → Nat
  | plain => 80
  | secure => 443

/-- The scheme with a name, however its letters are written. -/
def ofChars? (cs : List Char) : Option Scheme :=
  [plain, secure].find? fun scheme => cs.map Char.toLower == scheme.text.toList

end Scheme

/-- Where a request is sent to, and how. -/
structure Stop where
  scheme : Scheme
  host : Host
  port : Nat
  deriving DecidableEq, Repr

/-- An address of the web protocol. -/
structure Address where
  scheme : Scheme
  credentials : Option Credentials
  host : Host
  port : Nat
  path : String
  query : Option String
  deriving DecidableEq, Repr

/-- Controls and spaces at the ends and tabs and line breaks anywhere are left out. -/
def cleaned (cs : List Char) : List Char :=
  let isOuter := fun c : Char => c.toNat ≤ 0x20
  let inner := ((cs.dropWhile isOuter).reverse.dropWhile isOuter).reverse
  inner.filter fun c => c != '\t' && c != '\n' && c != '\r'

def isSlash (c : Char) : Bool := c == '/' || c == '\\'

/-- The scheme, and what follows it and its slashes. -/
def cutScheme? (cs : List Char) : Option (Scheme × List Char) := do
  let name := cs.takeWhile (· != ':')
  let scheme ← Scheme.ofChars? name
  match cs.drop name.length with
  | ':' :: r => return (scheme, r.dropWhile isSlash)
  | _ => none

/-- The number behind the colon of a host, which may be left out. -/
def port? (scheme : Scheme) : List Char → Option Nat
  | [] | [':'] => some scheme.defaultPort
  | ':' :: r => (Text.natOfChars? r).filter (· < UInt16.size)
  | _ => none

/-- What stands in front of the last at sign, and what stands behind it. -/
def cutAtSign (authority : List Char) : List Char × List Char :=
  let site := (authority.reverse.takeWhile (· != '@')).reverse
  (authority.take (authority.length - site.length - 1), site)

/-- The characters up to the colon of a port. Colons between brackets belong to the host. -/
def hostPart (inBrackets : Bool) : List Char → List Char
  | [] => []
  | c :: r =>
    if c == ':' && !inBrackets then []
    else c :: hostPart (if c == '[' then true else if c == ']' then false else inBrackets) r

/-- Host and port. -/
def hostAndPort? (spell? : Spelling) (scheme : Scheme) (site : List Char) :
    Option (Host × Nat) := do
  let part := hostPart false site
  return (← Host.ofChars? spell? part, ← port? scheme (site.drop part.length))

/-- A step of a path that stays on its level. -/
def isHere (s : String) : Bool := s == "." || s.map Char.toLower == "%2e"

/-- A step of a path to the upper level. -/
def isUp (s : String) : Bool :=
  ["..", ".%2e", "%2e.", "%2e%2e"].contains (s.map Char.toLower)

/-- A step that is named like a drive: a letter and a colon or a bar. -/
def isDrive (s : String) : Bool :=
  match s.toList with
  | [c, d] => c.isAlpha && (d == ':' || d == '|')
  | _ => false

/-- The levels above the last one, which is left for the upper level unless it is a drive. -/
def levelsAbove : List String → List String
  | [] => []
  | s :: r => if isDrive s then s :: r else r

/-- Carry out the steps of a path; `done` holds the levels so far, the last one first. -/
def resolveSteps (done : List String) : List String → List String
  | [] => done.reverse
  | [s] =>
    if isUp s then ("" :: levelsAbove done).reverse
    else if isHere s then ("" :: done).reverse
    else (s :: done).reverse
  | s :: r =>
    if isUp s then resolveSteps (levelsAbove done) r
    else if isHere s then resolveSteps done r
    else resolveSteps (s :: done) r

/-- A text cut at every character that the test accepts. -/
def cutAt (test : Char → Bool) (cs : List Char) : List String :=
  (cs.splitOnP test).map String.ofList

/-- The path behind a host, its steps carried out and encoded. -/
def pathOf (cs : List Char) : String :=
  match cs with
  | [] => "/"
  | _ :: r =>
    let steps := resolveSteps [] (cutAt isSlash r)
    "/" ++ "/".intercalate (steps.map (percentEncode pathKeeps))

/-- Read an address. Blanks around it and line breaks in it do not count, steps to the same or to
the upper level are carried out, and the fragment is dropped. -/
def Address.ofText? (spell? : Spelling) (s : String) : Option Address := do
  let (scheme, rest) ← cutScheme? (cleaned s.toList)
  let rest := rest.takeWhile (· != '#')
  let isEnd := fun c => isSlash c || c == '?'
  let (user, site) := cutAtSign (rest.takeWhile (!isEnd ·))
  let (host, port) ← hostAndPort? spell? scheme site
  let rest := rest.dropWhile (!isEnd ·)
  let query := match rest.dropWhile (· != '?') with
    | [] => none
    | _ :: r => some (percentEncode queryKeeps (String.ofList r))
  let path := pathOf (rest.takeWhile (· != '?'))
  return ⟨scheme, Credentials.ofChars? user, host, port, path, query⟩

/-- The address with parameters after the query it has. -/
def Address.withQuery (a : Address) (parameters : List (String × String)) : Address :=
  if parameters.isEmpty then a
  else
    let added := "&".intercalate (parameters.map fun (k, v) => formPair k v)
    match a.query with
    | none | some "" => { a with query := some added }
    | some q => { a with query := some (q ++ "&" ++ added) }

/-- Path and query as a request names them. -/
def Address.target (a : Address) : String :=
  match a.query with
  | none => a.path
  | some q => a.path ++ "?" ++ q

def Address.stop (a : Address) : Stop := ⟨a.scheme, a.host, a.port⟩

/-- Host and port; the scheme's usual port is left out. -/
def Address.site (a : Address) : String :=
  if a.port == a.scheme.defaultPort then a.host.text else a.host.text ++ ":" ++ toString a.port

/-- The address in full, as a relay is told it. -/
def Address.text (a : Address) : String := a.scheme.text ++ "://" ++ a.site ++ a.target

end Larder.Network
