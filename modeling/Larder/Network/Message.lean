import Larder.Json.StringText
import Larder.Network.Delivery
import Larder.Text.Numeral

namespace Larder.Network

def lineEnd : String := "\r\n"

/-- The lines at the top of a packet. -/
def Packet.head (host : String) (p : Packet) : List String :=
  [p.method ++ " " ++ p.target ++ " HTTP/1.1", "host: " ++ host, "accept: */*"] ++
    (p.authorization.map ("authorization: " ++ ·)).toList ++
    (p.contentType.map ("content-type: " ++ ·)).toList ++
    ["content-length: " ++ toString p.body.utf8ByteSize, "connection: close", ""]

def Packet.bytes (host : String) (p : Packet) : List Nat :=
  Text.Utf8.encode (String.join ((p.head host).map (· ++ lineEnd)) ++ p.body)

/-- The text of a line and the bytes behind it, if the line has an end. -/
def readLine? (bs : List Nat) : Option (String × List Nat) :=
  match bs.dropWhile (· != 0x0A) with
  | [] => none
  | _ :: rest =>
    let line := (bs.takeWhile (· != 0x0A)).filter (· != 0x0D)
    some (String.ofList (line.map Char.ofNat), rest)

/-- The lines up to an empty one and the bytes behind that. -/
def readLines? : Nat → List Nat → Option (List String × List Nat)
  | 0, _ => none
  | fuel + 1, bs => do
    let (line, bs) ← readLine? bs
    if line.isEmpty then return ([], bs)
    let (lines, bs) ← readLines? fuel bs
    return (line :: lines, bs)

/-- The status in the first line of an answer. -/
def statusOfLine (line : String) : Nat :=
  let rest := (line.toList.dropWhile (· != ' ')).drop 1
  (Text.natOfChars? (rest.takeWhile (· != ' '))).getD 0

/-- The value of a header, whose name is given in lower case. -/
def header? (name : String) (lines : List String) : Option String :=
  lines.findSome? fun line =>
    let cs := line.toList
    let key := cs.takeWhile (· != ':')
    if key.map Char.toLower = name.toList then
      some (trimHeader (String.ofList (cs.drop (key.length + 1))))
    else none

/-- The number that the hexadecimal digits at the start of a text stand for. -/
def leadingHex (s : String) : Nat :=
  let digits := (s.toList.map Json.hexDigit?).takeWhile Option.isSome
  digits.foldl (fun n d => 16 * n + d.getD 0) 0

/-- A body in pieces put together, if the last piece has come. -/
def joinPieces? : Nat → List Nat → Option (List Nat)
  | 0, _ => none
  | fuel + 1, bs => do
    let (line, bs) ← readLine? bs
    let size := leadingHex line
    if size = 0 then return []
    if bs.length < size then none
    let (_, rest) ← readLine? (bs.drop size)
    return bs.take size ++ (← joinPieces? fuel rest)

/-- The body behind a head, if all of it has come. -/
def body? (lines : List String) (isOver : Bool) (bs : List Nat) : Option (List Nat) :=
  if header? "transfer-encoding" lines = some "chunked" then joinPieces? (bs.length + 1) bs
  else
    match (header? "content-length" lines).bind (Text.natOfChars? ·.toList) with
    | some n => if n ≤ bs.length then some (bs.take n) else none
    | none => if isOver then some bs else none

/-- What the bytes of an answer come to; none as long as more have to come. Heads that only
announce an answer are passed over. -/
def readAnswer? (isOver : Bool) : Nat → List Nat → Option Delivery
  | 0, _ => some .closed
  | fuel + 1, bs =>
    match readLines? (bs.length + 1) bs with
    | none | some ([], _) => if isOver then some .closed else none
    | some (line :: lines, rest) =>
      let status := statusOfLine line
      if 100 ≤ status && status < 200 && status != 101 then readAnswer? isOver fuel rest
      else if hasNoBody "" status then some (.answered status [])
      else
        match body? lines isOver rest with
        | some body => some (.answered status body)
        | none => if isOver then some (.answered status [] true) else none

/-- What the bytes come to that have been received so far. -/
def Delivery.ofBytes? (isOver : Bool) (bs : List Nat) : Option Delivery :=
  readAnswer? isOver (bs.length + 1) bs

end Larder.Network
