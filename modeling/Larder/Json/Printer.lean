import Larder.Json.Value
import Larder.Binary64.Text
import Larder.Text.Quoted

namespace Larder.Json

/-- The quote, the backslash and the controls are escaped, and nothing else. -/
def escapedChar (c : Char) : List Char :=
  match c with
  | '"' => ['\\', '"']
  | '\\' => ['\\', '\\']
  | '\x08' => ['\\', 'b']
  | '\x0c' => ['\\', 'f']
  | '\n' => ['\\', 'n']
  | '\r' => ['\\', 'r']
  | '\t' => ['\\', 't']
  | c =>
    if c.toNat < 0x20 then
      ['\\', 'u', '0', '0', Text.hexDigit (c.toNat / 16), Text.hexDigit (c.toNat % 16)]
    else [c]

def stringText (s : String) : String :=
  String.ofList ('"' :: s.toList.flatMap escapedChar ++ ['"'])

def Number.text : Number → String
  | .integer i => toString i
  | .float x => Binary64.text x

mutual

/-- The text of a value on one line. -/
def Value.print : Value → String
  | .null => "null"
  | .boolean b => toString b
  | .number n => n.text
  | .text s => stringText s
  | .sequence items => "[" ++ ",".intercalate (printItems items) ++ "]"
  | .object members => "\x7b" ++ ",".intercalate (printMembers members) ++ "\x7d"

def printItems : List Value → List String
  | [] => []
  | v :: r => v.print :: printItems r

def printMembers : List (String × Value) → List String
  | [] => []
  | (k, v) :: r => (stringText k ++ ":" ++ v.print) :: printMembers r

end

/-- Two blanks for each level. -/
def indent (depth : Nat) : String := String.ofList (List.replicate (2 * depth) ' ')

/-- Parts between brackets, each on a line of its own. -/
def layOut (depth : Nat) (opening closing : String) (parts : List String) : String :=
  if parts.isEmpty then opening ++ closing
  else
    let lines := parts.map fun p => indent (depth + 1) ++ p
    opening ++ "\n" ++ ",\n".intercalate lines ++ "\n" ++ indent depth ++ closing

mutual

/-- The text of a value over several lines, at a depth of nesting. -/
def Value.printLines (depth : Nat) : Value → String
  | .null => "null"
  | .boolean b => toString b
  | .number n => n.text
  | .text s => stringText s
  | .sequence items => layOut depth "[" "]" (printLinesItems (depth + 1) items)
  | .object members => layOut depth "\x7b" "\x7d" (printLinesMembers (depth + 1) members)

def printLinesItems (depth : Nat) : List Value → List String
  | [] => []
  | v :: r => v.printLines depth :: printLinesItems depth r

def printLinesMembers (depth : Nat) : List (String × Value) → List String
  | [] => []
  | (k, v) :: r => (stringText k ++ ": " ++ v.printLines depth) :: printLinesMembers depth r

end

end Larder.Json
