import Larder.Json.StringText
import Larder.Network.Percent
import Larder.Network.PlainForm
import Larder.Text.Numeral

namespace Larder.Network

/-- How the name of a host is spelled in ASCII, if it can be. -/
abbrev Spelling : Type := String → Option String

/-- Every character by its plain form. What is not ASCII then is looked up nowhere. -/
def Spelling.plain : Spelling := fun name => some (String.ofList (name.toList.flatMap plainForm))

inductive Host where
  /-- A number of 32 bits, written in up to four parts of which the last fills what the others
  leave. -/
  | short (n : Nat)
  /-- Eight groups of 16 bits, written in brackets. -/
  | long (groups : List Nat)
  /-- Everything else has to be looked up. -/
  | name (s : String)
  deriving DecidableEq, Repr

namespace Host

/-- The value of a text in a base, if it is made of the base's digits. -/
def inBase? (base : Nat) (cs : List Char) : Option Nat :=
  let digit? := fun c => (Json.hexDigit? c).filter (· < base)
  (cs.mapM digit?).map fun ds => ds.foldl (fun n d => base * n + d) 0

/-- A part of a number: hexadecimal behind `0x`, octal behind another zero. Nothing behind them is
zero. -/
def part? : List Char → Option Nat
  | [] => none
  | '0' :: 'x' :: r | '0' :: 'X' :: r => inBase? 16 r
  | '0' :: r => inBase? 8 r
  | r => inBase? 10 r

/-- The parts between dots; one dot may stand behind the last. -/
def dotted (cs : List Char) : List (List Char) :=
  let parts := cs.splitOn '.'
  if 1 < parts.length && parts.getLast? == some [] then parts.dropLast else parts

/-- Whether a name ends like a number, and so has to be one. -/
def endsInNumber (cs : List Char) : Bool :=
  match (dotted cs).getLast? with
  | none | some [] => false
  | some last => last.all Char.isDigit || (part? last).isSome

/-- The number that parts make up; each but the last is one byte. -/
def joinParts? : Nat → List Nat → Option Nat
  | 0, _ | _, [] => none
  | room, [n] => if n < Nat.pow 256 room then some n else none
  | room + 1, n :: r =>
    if n < 256 then (joinParts? room r).map (n * Nat.pow 256 room + ·) else none

/-- A number of 32 bits. -/
def short? (cs : List Char) : Option Host := do
  let parts ← (dotted cs).mapM part?
  return .short (← joinParts? 4 parts)

/-- One to four hexadecimal digits. -/
def group? (cs : List Char) : Option Nat :=
  if cs.isEmpty || 4 < cs.length then none else inBase? 16 cs

/-- A byte in decimal digits, without leading zeros. -/
def byte? (cs : List Char) : Option Nat :=
  if cs.isEmpty || (cs.head? == some '0' && 1 < cs.length) then none
  else (inBase? 10 cs).filter (· < 256)

/-- Four bytes between dots as two groups. -/
def quad? (cs : List Char) : Option (List Nat) := do
  match ← (cs.splitOn '.').mapM byte? with
  | [a, b, c, d] => return [256 * a + b, 256 * c + d]
  | _ => none

/-- Groups between colons; the last two may be written as four bytes. -/
def groups? (mayEndInQuad : Bool) : List (List Char) → Option (List Nat)
  | [] => some []
  | [last] => if mayEndInQuad && last.contains '.' then quad? last else (group? last).map ([·])
  | g :: r => do return (← group? g) :: (← groups? mayEndInQuad r)

/-- The groups of a text that may be empty. -/
def sideGroups? (mayEndInQuad : Bool) (cs : List Char) : Option (List Nat) :=
  if cs.isEmpty then some [] else groups? mayEndInQuad (cs.splitOn ':')

/-- A text cut at its first two colons in a row. -/
def cutAtGap? : List Char → Option (List Char × List Char)
  | ':' :: ':' :: r => some ([], r)
  | c :: r => (cutAtGap? r).map fun (before, behind) => (c :: before, behind)
  | [] => none

/-- A number of 128 bits. -/
def long? (cs : List Char) : Option Host := do
  match cutAtGap? cs with
  | none =>
    let groups ← sideGroups? true cs
    if groups.length = 8 then return .long groups else none
  | some (before, behind) =>
    let before ← sideGroups? false before
    let behind ← sideGroups? true behind
    let count := before.length + behind.length
    if count < 8 then return .long (before ++ List.replicate (8 - count) 0 ++ behind) else none

/-- Whether a character may stand in a name. -/
def isNamePart (c : Char) : Bool := isVisible c.toNat && !isOneOf "%#/:<>?@[\\]^`\x7b|\x7d" c.toNat

/-- A name, or a number that is written like one. -/
def ofName? (spell? : Spelling) (cs : List Char) : Option Host := do
  let text ← Text.Utf8.decode? (percentDecode (Text.Utf8.encode (String.ofList cs)))
  let plain := (← spell? text).toList
  if plain.isEmpty || !plain.all isNamePart then none
  else if endsInNumber plain then short? plain
  else return .name (String.ofList plain)

/-- Read a host as an address has it. -/
def ofChars? (spell? : Spelling) : List Char → Option Host
  | '[' :: r => if r.getLast? = some ']' then long? r.dropLast else none
  | cs => ofName? spell? cs

/-- The bytes of a number, the first one first. -/
def bytes : Nat → Nat → List Nat
  | 0, _ => []
  | count + 1, n => n / Nat.pow 256 count % 256 :: bytes count n

/-- How many zeros a list of groups starts with. -/
def leadingZeros (groups : List Nat) : Nat := (groups.takeWhile (· == 0)).length

/-- The place and the length of the first of the longest runs of zeros, from a place on. -/
def longestGap (place : Nat) : List Nat → Nat × Nat
  | [] => (place, 0)
  | g :: r =>
    let here := leadingZeros (g :: r)
    let later := longestGap (place + 1) r
    if later.2 ≤ here then (place, here) else later

def groupsText (groups : List Nat) : String :=
  ":".intercalate (groups.map fun g => String.ofList (Nat.toDigits 16 g))

/-- Groups with the longest run of two zeros or more left out. -/
def shortenedText (groups : List Nat) : String :=
  let (place, length) := longestGap 0 groups
  if length < 2 then groupsText groups
  else groupsText (groups.take place) ++ "::" ++ groupsText (groups.drop (place + length))

/-- The host without brackets. -/
def bareText : Host → String
  | short n => ".".intercalate ((bytes 4 n).map toString)
  | long groups => shortenedText groups
  | name s => s

/-- The host as an address writes it. -/
def text : Host → String
  | long groups => "[" ++ shortenedText groups ++ "]"
  | h => h.bareText

/-- The name that every machine has for itself. -/
def ownName : String := "localhost"

/-- Whether the host is known without being looked up. -/
def isKnown : Host → Bool
  | name s => s == ownName
  | _ => true

/-- The number that groups of 16 bits make up. -/
def ofGroups (groups : List Nat) : Nat := groups.foldl (fun n g => UInt16.size * n + g) 0

/-- How many bits the host's number has, and the number. -/
def number? : Host → Option (Nat × Nat)
  | short n => some (32, n)
  | long groups => some (128, ofGroups groups)
  | name _ => none

end Host

end Larder.Network
