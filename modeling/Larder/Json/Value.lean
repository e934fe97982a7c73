import Larder.Table

namespace Larder.Json

inductive Number where
  | integer (i : Int)
  | float (x : Float)
  deriving DecidableEq, Repr

/-- A JSON value. The members of an object stand in the order of their keys. -/
inductive Value where
  | null
  | boolean (b : Bool)
  | number (n : Number)
  | text (s : String)
  | sequence (items : List Value)
  | object (members : List (String × Value))
  deriving Inhabited, Repr

namespace Value

def integer (i : Int) : Value := .number (.integer i)

def float (x : Float) : Value := .number (.float x)

def ofNat (n : Nat) : Value := integer n

/-- An object from members in any order. -/
def ofMembers (members : List (String × Value)) : Value :=
  .object (sortByKey members)

/-- An object of the members that are present. -/
def ofPresent (members : List (String × Option Value)) : Value :=
  ofMembers (members.filterMap fun (k, v) => v.map (k, ·))

def member? (v : Value) (key : String) : Option Value :=
  match v with
  | .object members => (members.find? (·.1 = key)).map (·.2)
  | _ => none

def text? : Value → Option String
  | .text s => some s
  | _ => none

end Value

end Larder.Json
