import Larder.Json.Decode

namespace Larder.Json

/-- A field of a record: the name it is known by, the other names it may have, and what it is when
it is absent from an object or from the end of a sequence. -/
structure RecordField (α : Type) where
  name : String
  otherNames : List String
  decode : Decoder α
  missing : Option α
  cut : Option α

namespace RecordField

/-- A field that has to be there. -/
def required {α : Type} (name : String) (decode : Decoder α) (otherNames : List String := []) :
    RecordField α :=
  ⟨name, otherNames, decode, none, none⟩

/-- A field with a value of its own when it is absent. -/
def withDefault {α : Type} (name : String) (decode : Decoder α) (value : α)
    (otherNames : List String := []) : RecordField α :=
  ⟨name, otherNames, decode, some value, some value⟩

end RecordField

/-- A field without the type of its content. -/
structure Slot where
  name : String
  otherNames : List String
  check : Origin → Node → Except Fault Unit
  mayBeMissing : Bool
  mayBeCut : Bool

def RecordField.slot {α : Type} (f : RecordField α) : Slot :=
  ⟨f.name, f.otherNames, fun origin n => (f.decode origin n).map fun _ => (),
    f.missing.isSome, f.cut.isSome⟩

def Slot.hasName (s : Slot) (key : String) : Bool :=
  key == s.name || s.otherNames.contains key

/-- The content of a record, by the names its fields are known by. -/
abbrev Contents := List (String × Node)

namespace Contents

def node? (c : Contents) (name : String) : Option Node :=
  (c.find? (·.1 = name)).map (·.2)

/-- Take the members in turn. Keys that no field has are passed over; of the names of a field only
one may occur, and once. -/
def ofMembers (slots : List Slot) (origin : Origin) :
    List (Token String × Node) → Contents → Except Fault Contents
  | [], c => .ok c
  | (key, n) :: r, c => do
    let k ← key.read
    match slots.find? (·.hasName k) with
    | none =>
      n.pass
      ofMembers slots origin r c
    | some s =>
      if (c.node? s.name).isSome then throw (.duplicate s.name)
      s.check origin n
      ofMembers slots origin r (c ++ [(s.name, n)])

/-- The first field that has to be there and is not. -/
def firstMissing? (slots : List Slot) (c : Contents) : Option Fault :=
  (slots.find? fun s => !s.mayBeMissing && (c.node? s.name).isNone).map fun s => .missing s.name

/-- Take the items for the fields in order of declaration; gives what is left of the items too. -/
def ofItems (origin : Origin) (ending : Ending) (expected : String) :
    List Slot → List Node → Nat → Except Fault (Contents × List Node)
  | [], nodes, _ => .ok ([], nodes)
  | s :: slots, n :: nodes, i => do
    s.check origin n
    let (c, left) ← ofItems origin ending expected slots nodes (i + 1)
    .ok ((s.name, n) :: c, left)
  | s :: slots, [], i => do
    failIf ending.listFault?
    if s.mayBeCut then ofItems origin ending expected slots [] (i + 1)
    else throw (.wrongLength i expected)

end Contents

/-- How a record is named in faults about its length. -/
def recordName (name : String) (slots : List Slot) : String :=
  "struct " ++ name ++ " with " ++ toString slots.length ++
    if slots.length = 1 then " element" else " elements"

/-- What is wrong when items are left after the last field. -/
def leftOver (origin : Origin) (length : Nat) (left : List Node) (ending : Ending) :
    Except Fault Unit :=
  match origin with
  | .value =>
    if left.isEmpty then .ok () else .error (.wrongLength length "fewer elements in array")
  | .text =>
    if left.isEmpty then failIf ending.closingFault? else .error .trailingCharacters

/-- The fields of a record, each with what it decodes to. -/
structure Fields where
  origin : Origin
  contents : Contents
  isCut : Bool

/-- The content of a field. -/
def Fields.get {α : Type} (fs : Fields) (f : RecordField α) : Except Fault α :=
  match fs.contents.node? f.name, if fs.isCut then f.cut else f.missing with
  | some n, _ => f.decode fs.origin n
  | none, some a => .ok a
  | none, none => .error (.missing f.name)

/-- Decode a record from its fields. -/
def record {α : Type} (name : String) (slots : List Slot) (build : Fields → Except Fault α) :
    Decoder α
  | origin, .object members ending => do
    let c ← Contents.ofMembers slots origin members []
    failIf ending.objectFault?
    failIf (c.firstMissing? slots)
    build ⟨origin, c, false⟩
  | origin, .sequence nodes ending => do
    let (c, left) ← Contents.ofItems origin ending (recordName name slots) slots nodes 0
    let r ← build ⟨origin, c, true⟩
    leftOver origin nodes.length left ending
    .ok r
  | _, n => n.wrongKind ("struct " ++ name)

end Larder.Json
