import Larder.Json.Fault
import Larder.Json.Value

namespace Larder.Json

/-- A string or a number of a text: what it reads as, and whether it can be passed over. -/
structure Token (α : Type) where
  read : Except Fault α
  pass : Except Fault Unit

/-- A token without fault. -/
def Token.ofValue {α : Type} (a : α) : Token α := ⟨.ok a, .ok ()⟩

/-- How a sequence or an object ends. -/
inductive Ending where
  | closed
  /-- The text ends where a comma or the closing bracket should be. -/
  | endOfText
  /-- The text ends after a comma. -/
  | endAfterComma
  /-- The closing bracket follows a comma. -/
  | closedAfterComma
  /-- Something else stands where a comma or the closing bracket should be. -/
  | stray
  /-- What stands where a key should be is no string. -/
  | badKey
  deriving DecidableEq, Repr

/-- The tree that a text spells, with every fault left where it stands: which of them is reported
depends on what a reader asks for. -/
inductive Node where
  | null
  | boolean (b : Bool)
  | number (n : Token Number)
  | text (s : Token String)
  | sequence (items : List Node) (ending : Ending)
  | object (members : List (Token String × Node)) (ending : Ending)
  | broken (f : Fault)
  /-- The text ends before the node. -/
  | absent

instance : Inhabited Node := ⟨.null⟩

/-- The fault met when the next item is asked for and there is none. -/
def Ending.listFault? : Ending → Option Fault
  | .closed => none
  | .endOfText => some .endOfList
  | .endAfterComma => some .endOfValue
  | .closedAfterComma => some .trailingComma
  | .stray | .badKey => some .expectedListComma

/-- The fault met when the sequence has to end after the items that were asked for. -/
def Ending.closingFault? : Ending → Option Fault
  | .closed => none
  | .endOfText => some .endOfList
  | .closedAfterComma => some .trailingComma
  | .endAfterComma | .stray | .badKey => some .trailingCharacters

/-- The fault met when the next member is asked for and there is none. -/
def Ending.objectFault? : Ending → Option Fault
  | .closed => none
  | .endOfText => some .endOfObject
  | .endAfterComma => some .endOfValue
  | .closedAfterComma => some .trailingComma
  | .stray => some .expectedObjectComma
  | .badKey => some .keyNotString

def Ending.listPassFault? : Ending → Option Fault
  | .closed => none
  | .endOfText => some .endOfList
  | .endAfterComma => some .endOfValue
  | .closedAfterComma => some .expectedValue
  | .stray | .badKey => some .expectedListComma

def Ending.objectPassFault? : Ending → Option Fault
  | .closed => none
  | .endOfText | .endAfterComma => some .endOfObject
  | .closedAfterComma | .badKey => some .keyNotString
  | .stray => some .expectedObjectComma

/-- Success unless there is a fault. -/
def failIf : Option Fault → Except Fault Unit
  | none => .ok ()
  | some f => .error f

mutual

/-- Go past a node whose content nobody asked for. -/
def Node.pass : Node → Except Fault Unit
  | .null | .boolean _ => .ok ()
  | .number n => n.pass
  | .text s => s.pass
  | .sequence items ending => do passItems items; failIf ending.listPassFault?
  | .object members ending => do passMembers members; failIf ending.objectPassFault?
  | .broken f => .error f
  | .absent => .error .endOfValue

def passItems : List Node → Except Fault Unit
  | [] => .ok ()
  | n :: r => do n.pass; passItems r

def passMembers : List (Token String × Node) → Except Fault Unit
  | [] => .ok ()
  | (key, n) :: r => do key.pass; n.pass; passMembers r

end

def Number.found : Number → Found
  | .integer i => .integer i
  | .float x => .float x

/-- What a node is, when it is not what was asked for. -/
def Node.found : Node → Except Fault Found
  | .null => .ok .null
  | .boolean b => .ok (.boolean b)
  | .number n => n.read.map Number.found
  | .text s => s.read.map .text
  | .sequence _ _ => .ok .sequence
  | .object _ _ => .ok .map
  | .broken f => .error f
  | .absent => .error .endOfValue

mutual

/-- A value as a tree without faults. -/
def Node.ofValue : Value → Node
  | .null => .null
  | .boolean b => .boolean b
  | .number n => .number (.ofValue n)
  | .text s => .text (.ofValue s)
  | .sequence items => .sequence (ofItems items) .closed
  | .object members => .object (ofMembers members) .closed

def Node.ofItems : List Value → List Node
  | [] => []
  | v :: r => .ofValue v :: ofItems r

def Node.ofMembers : List (String × Value) → List (Token String × Node)
  | [] => []
  | (k, v) :: r => (.ofValue k, .ofValue v) :: ofMembers r

end

/-- The deepest nesting of sequences and objects in a value that is read from text. -/
def nestingLimit : Nat := 127

mutual

/-- The value that a node spells, `room` more levels of nesting being allowed. -/
def Node.value : Nat → Node → Except Fault Value
  | _, .null => .ok .null
  | _, .boolean b => .ok (.boolean b)
  | _, .number n => n.read.map .number
  | _, .text s => s.read.map .text
  | 0, .sequence _ _ | 0, .object _ _ => .error .tooDeep
  | room + 1, .sequence items ending => do
    let values ← itemValues room items
    failIf ending.listFault?
    .ok (.sequence values)
  | room + 1, .object members ending => do
    let values ← memberValues room members
    failIf ending.objectFault?
    .ok (.ofMembers values)
  | _, .broken f => .error f
  | _, .absent => .error .endOfValue

def itemValues : Nat → List Node → Except Fault (List Value)
  | _, [] => .ok []
  | room, n :: r => do
    let v ← n.value room
    let vs ← itemValues room r
    .ok (v :: vs)

def memberValues : Nat → List (Token String × Node) → Except Fault (List (String × Value))
  | _, [] => .ok []
  | room, (key, n) :: r => do
    let k ← key.read
    let v ← n.value room
    let vs ← memberValues room r
    .ok ((k, v) :: vs)

end

/-- A whole text: its root, and whether something but blanks follows it. -/
structure Document where
  root : Node
  hasRest : Bool

/-- What the text holds when its root is read in the given way. -/
def Document.read {α : Type} (d : Document) (f : Node → Except Fault α) : Except Fault α := do
  let a ← f d.root
  if d.hasRest then .error .trailingCharacters else .ok a

def Document.value (d : Document) : Except Fault Value :=
  d.read (Node.value nestingLimit)

end Larder.Json
