import Larder.Json.Node
import Larder.Text.Numeral

namespace Larder.Json

inductive StringPart where
  | char (c : Char)
  | escapedUnit (u : Nat)
  deriving DecidableEq, Repr

/-- What stops the scan of a string. -/
inductive StringEnd where
  | closed (rest : List Char)
  | endOfText
  | badEscape
  | badHex
  | control

/-- The character that a one-letter escape stands for. -/
def escaped? : Char → Option Char
  | '"' => some '"'
  | '\\' => some '\\'
  | '/' => some '/'
  | 'b' => some '\x08'
  | 'f' => some '\x0c'
  | 'n' => some '\n'
  | 'r' => some '\r'
  | 't' => some '\t'
  | _ => none

def hexDigit? (c : Char) : Option Nat :=
  let n := c.toNat
  if '0' ≤ c ∧ c ≤ '9' then some (n - 48)
  else if 'a' ≤ c ∧ c ≤ 'f' then some (n - 87)
  else if 'A' ≤ c ∧ c ≤ 'F' then some (n - 55)
  else none

/-- The value of hexadecimal digits. -/
def hexUnit? (cs : List Char) : Option Nat :=
  (cs.mapM hexDigit?).map fun ds => ds.foldl (fun n d => 16 * n + d) 0

/-- Whether the text goes on for at least four bytes. -/
def hasFourBytes (cs : List Char) : Bool :=
  4 ≤ (String.ofList (cs.take 4)).utf8ByteSize

/-- Scan a string from behind its opening quote. -/
def scanString : List Char → List StringPart × StringEnd
  | [] | ['\\'] => ([], .endOfText)
  | '"' :: r => ([], .closed r)
  | '\\' :: 'u' :: a :: b :: c :: d :: r =>
    match hexUnit? [a, b, c, d] with
    | some u =>
      let (parts, ending) := scanString r
      (.escapedUnit u :: parts, ending)
    | none => ([], .badHex)
  | '\\' :: 'u' :: r => ([], if hasFourBytes r then .badHex else .endOfText)
  | '\\' :: e :: r =>
    match escaped? e with
    | some c =>
      let (parts, ending) := scanString r
      (.char c :: parts, ending)
    | none => ([], .badEscape)
  | c :: r =>
    if c.toNat < 0x20 then ([], .control)
    else
      let (parts, ending) := scanString r
      (.char c :: parts, ending)

def StringEnd.fault? : StringEnd → Option Fault
  | .closed _ => none
  | .endOfText => some .endOfString
  | .badEscape | .badHex => some .invalidEscape
  | .control => some .controlCharacter

/-- What a surrogate meets when the string stops right behind it. -/
def StringEnd.pairFault : StringEnd → Fault
  | .endOfText => .endOfString
  | .badHex => .invalidEscape
  | .closed _ | .badEscape | .control => .cutSurrogate

def isLead (u : Nat) : Bool := 0xD800 ≤ u && u ≤ 0xDBFF

def isTrail (u : Nat) : Bool := 0xDC00 ≤ u && u ≤ 0xDFFF

def pairChar (lead trail : Nat) : Char :=
  Char.ofNat (0x10000 + (lead - 0xD800) * 0x400 + (trail - 0xDC00))

/-- The characters that the parts of a string spell. Two units that are a surrogate pair make one
character, and one that stands alone is a fault. -/
def readParts (ending : StringEnd) : List StringPart → Except Fault (List Char)
  | [] => do failIf ending.fault?; .ok []
  | .char c :: r => do .ok (c :: (← readParts ending r))
  | .escapedUnit u :: r =>
    if isTrail u then .error .loneSurrogate
    else if isLead u then
      match r with
      | .escapedUnit v :: r =>
        if isTrail v then do .ok (pairChar u v :: (← readParts ending r))
        else .error .loneSurrogate
      | .char _ :: _ => .error .cutSurrogate
      | [] => .error ending.pairFault
    else do .ok (Char.ofNat u :: (← readParts ending r))

/-- The string token behind an opening quote, and what follows it if it is closed. -/
def stringToken (cs : List Char) : Token String × Option (List Char) :=
  let (parts, ending) := scanString cs
  let token := ⟨(readParts ending parts).map String.ofList, failIf ending.fault?⟩
  match ending with
  | .closed rest => (token, some rest)
  | _ => (token, none)

end Larder.Json
