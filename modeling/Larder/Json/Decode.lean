import Larder.Json.Reader
import Larder.Decimal.Binary64
import Larder.Calendar.Reading

namespace Larder.Json

/-- Where a document comes from. -/
inductive Origin where
  | value
  | text
  deriving DecidableEq, Repr

/-- A decoder takes what it wants out of a document or says what it found instead. -/
abbrev Decoder (α : Type) := Origin → Node → Except Fault α

/-- The fault of a node that is not of the expected kind. -/
def Node.wrongKind {α : Type} (n : Node) (expected : String) : Except Fault α := do
  throw (.wrongKind (← n.found) expected)

def wrongValue {α : Type} (found : Found) (expected : String) : Except Fault α :=
  .error (.wrongValue found expected)

/-- Decode a value. -/
def Decoder.ofValue {α : Type} (d : Decoder α) (v : Value) : Except Fault α :=
  d .value (.ofValue v)

/-- Decode a text. -/
def Decoder.ofText {α : Type} (d : Decoder α) (s : String) : Except Fault α :=
  (Document.ofText s).read (d .text)

namespace Decode

def text : Decoder String
  | _, .text s => s.read
  | _, n => n.wrongKind "a string"

/-- A count of 32 bits. -/
def count : Decoder UInt32
  | _, .number n => do
    match ← n.read with
    | .integer i =>
      if 0 ≤ i ∧ i < UInt32.size then .ok (.ofNat i.toNat) else wrongValue (.integer i) "u32"
    | .float x => throw (.wrongKind (.float x) "u32")
  | _, n => n.wrongKind "u32"

def unit : Decoder Unit
  | _, .null => .ok ()
  | _, n => n.wrongKind "unit"

def amountName : String := "a Decimal type representing a fixed-point number"

def amount : Decoder Decimal
  | _, .number n => do
    let n ← n.read
    let amount? := match n with
      | .integer i => Decimal.ofInt? i
      | .float x => Decimal.ofFloat? x
    match amount? with
    | some d => .ok d
    | none => wrongValue n.found amountName
  | _, .text s => do
    let s ← s.read
    match Decimal.ofText? s with
    | some d => .ok d
    | none => wrongValue (.text s) amountName
  | _, n => n.wrongKind amountName

def timestamp : Decoder Calendar.Timestamp
  | _, .text s => do
    (Calendar.Timestamp.read (← s.read)).mapError fun f => .other f.message
  | _, n => n.wrongKind "an RFC 3339 formatted date and time string"

def date : Decoder Calendar.Date
  | _, .text s => do
    (Calendar.Date.read (← s.read)).mapError fun f => .other f.message
  | _, n => n.wrongKind "a formatted date string"

/-- Null stands for absence. -/
def optional {α : Type} (d : Decoder α) : Decoder (Option α)
  | _, .null => .ok none
  | origin, n => (d origin n).map some

def items {α : Type} (d : Decoder α) (origin : Origin) : List Node → Except Fault (List α)
  | [] => .ok []
  | n :: r => do
    let a ← d origin n
    let as ← items d origin r
    .ok (a :: as)

def sequence {α : Type} (d : Decoder α) : Decoder (List α)
  | origin, .sequence nodes ending => do
    let as ← items d origin nodes
    failIf ending.listFault?
    .ok as
  | _, n => n.wrongKind "a sequence"

def entries {α : Type} (d : Decoder α) (origin : Origin) :
    List (Token String × Node) → Except Fault (List (String × α))
  | [] => .ok []
  | (key, n) :: r => do
    let k ← key.read
    let a ← d origin n
    let rest ← entries d origin r
    .ok ((k, a) :: rest)

/-- A table; of two entries with one key the later stays. -/
def table {α : Type} (d : Decoder α) : Decoder (Table α)
  | origin, .object members ending => do
    let found ← entries d origin members
    failIf ending.objectFault?
    .ok (.ofList found)
  | _, n => n.wrongKind "a map"

end Decode

end Larder.Json
