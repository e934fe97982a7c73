import Larder.Text.Blank
import Larder.Json.Decode

namespace Larder

/-- The aisle an item is shelved in. -/
inductive Aisle where
  | bread
  | dairy
  | produce
  | meat
  | party
  deriving DecidableEq, Repr

namespace Aisle

def all : List Aisle := [bread, dairy, produce, meat, party]

def name : Aisle → String
  | bread => "bread"
  | dairy => "dairy"
  | produce => "produce"
  | meat => "meat"
  | party => "party"

instance : ToString Aisle := ⟨name⟩

def named? (s : String) : Option Aisle := all.find? (·.name = s)

/-- Read an aisle as people write it, in any case and with blanks around it. -/
def ofText (s : String) : Except String Aisle :=
  match named? (String.ofList ((Text.trimChars s.toList).map Char.toLower)) with
  | some a => .ok a
  | none => .error ("unknown aisle '" ++ s ++ "'")

def toJson (a : Aisle) : Json.Value := .text a.name

def ofName (s : String) : Except Json.Fault Aisle :=
  match named? s with
  | some a => .ok a
  | none => .error (.unknownVariant s (all.map name))

/-- The aisle that a single member names; its value has to be null. -/
def ofMembers (origin : Json.Origin) (members : List (Json.Token String × Json.Node))
    (ending : Json.Ending) : Except Json.Fault Aisle :=
  match origin, members with
  | _, [(key, n)] => do
    let a ← ofName (← key.read)
    Json.Decode.unit origin n
    match ending with
    | .closed => .ok a
    | .endOfText => .error .endOfObject
    | _ => .error .expectedValue
  | .value, _ => .error (.wrongValue .map "map with a single key")
  | .text, (key, n) :: _ => do
    let _ ← ofName (← key.read)
    Json.Decode.unit origin n
    .error .expectedValue
  | .text, [] =>
    match ending with
    | .endOfText => .error .endOfObject
    | .badKey => .error .keyNotString
    | _ => .error .expectedValue

def decode : Json.Decoder Aisle
  | _, .text s => do ofName (← s.read)
  | origin, .object members ending => ofMembers origin members ending
  | .value, n => n.wrongKind "string or map"
  | .text, .absent => .error .endOfValue
  | .text, _ => .error .expectedValue

end Aisle

end Larder
