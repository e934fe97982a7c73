import Larder.Json.NumberText
import Larder.Json.StringText

namespace Larder.Json

/-- The four characters that may stand between the parts of a document. -/
def isSpace (c : Char) : Bool := c == ' ' || c == '\t' || c == '\n' || c == '\r'

def skipSpace (cs : List Char) : List Char := cs.dropWhile isSpace

/-- A node and, unless the text cannot be read any further, what follows it. -/
abbrev Scanned := Node × Option (List Char)

/-- The rest of a word whose first letter has been seen. -/
def word (node : Node) : List Char → List Char → Scanned
  | [], cs => (node, some cs)
  | _, [] => (.broken .endOfValue, none)
  | w :: ws, c :: cs => if w = c then word node ws cs else (.broken .expectedWord, none)

/-- The digits in front of a text. -/
def takeDigits (cs : List Char) : List Nat × List Char :=
  ((cs.takeWhile Char.isDigit).filterMap Text.digit?, cs.dropWhile Char.isDigit)

/-- A number that stops short of a digit: at the end of the text the fault depends on whether the
number is asked for. -/
def brokenNumber (rest : List Char) : Scanned :=
  match rest with
  | [] => (.number ⟨.error .endOfValue, .error .invalidNumber⟩, none)
  | _ => (.broken .invalidNumber, none)

/-- The sign and digits behind the letter of an exponent. -/
def scanExponent (cs : List Char) : (Bool × List Nat) × List Char :=
  let (negative, cs) := match cs with
    | '+' :: r => (false, r)
    | '-' :: r => (true, r)
    | r => (false, r)
  let (digits, rest) := takeDigits cs
  ((negative, digits), rest)

def numeralNode (n : Numeral) : Node := .number ⟨n.number, .ok ()⟩

/-- A number behind its sign. -/
def scanNumber (negative : Bool) (cs : List Char) : Scanned :=
  let (whole, rest) := takeDigits cs
  if whole.isEmpty then brokenNumber rest
  else if whole.head? = some 0 ∧ 1 < whole.length then (.broken .invalidNumber, none)
  else
    let (fraction, rest, short) := match rest with
      | '.' :: r => let (ds, r) := takeDigits r; (ds, r, ds.isEmpty)
      | r => ([], r, false)
    if short then brokenNumber rest
    else
      match rest with
      | c :: r =>
        if c = 'e' ∨ c = 'E' then
          let (exponent, rest) := scanExponent r
          if exponent.2.isEmpty then brokenNumber rest
          else (numeralNode ⟨negative, whole, fraction, some exponent⟩, some rest)
        else (numeralNode ⟨negative, whole, fraction, none⟩, some (c :: r))
      | [] => (numeralNode ⟨negative, whole, fraction, none⟩, some [])

mutual

/-- The node in front of a text. -/
def scanNode : Nat → List Char → Scanned
  | 0, _ => (.absent, none)
  | fuel + 1, cs =>
    match skipSpace cs with
    | [] => (.absent, none)
    | c :: r =>
      match c with
      | 'n' => word .null ['u', 'l', 'l'] r
      | 't' => word (.boolean true) ['r', 'u', 'e'] r
      | 'f' => word (.boolean false) ['a', 'l', 's', 'e'] r
      | '-' => scanNumber true r
      | '"' =>
        let (token, rest) := stringToken r
        (.text token, rest)
      | '[' =>
        match skipSpace r with
        | ']' :: rest => (.sequence [] .closed, some rest)
        | [] => (.sequence [] .endOfText, none)
        | r =>
          let (items, ending, rest) := scanItems fuel r
          (.sequence items ending, rest)
      | '\x7b' =>
        match skipSpace r with
        | '\x7d' :: rest => (.object [] .closed, some rest)
        | [] => (.object [] .endOfText, none)
        | r =>
          let (members, ending, rest) := scanMembers fuel r
          (.object members ending, rest)
      | c => if c.isDigit then scanNumber false (c :: r) else (.broken .expectedValue, none)

/-- The items from one that has to be there on. -/
def scanItems : Nat → List Char → List Node × Ending × Option (List Char)
  | 0, _ => ([], .endOfText, none)
  | fuel + 1, cs =>
    let (node, rest) := scanNode fuel cs
    match rest.map skipSpace with
    | none => ([node], .closed, none)
    | some [] => ([node], .endOfText, none)
    | some (c :: r) =>
      if c = ']' then ([node], .closed, some r)
      else if c = ',' then
        match skipSpace r with
        | [] => ([node], .endAfterComma, none)
        | ']' :: _ => ([node], .closedAfterComma, none)
        | r =>
          let (nodes, ending, rest) := scanItems fuel r
          (node :: nodes, ending, rest)
      else ([node], .stray, none)

/-- The members from one that has to be there on. -/
def scanMembers : Nat → List Char → List (Token String × Node) × Ending × Option (List Char)
  | 0, _ => ([], .endOfText, none)
  | fuel + 1, cs =>
    match cs with
    | '"' :: r =>
      let (key, rest) := stringToken r
      match rest.map skipSpace with
      | none => ([(key, .broken .endOfObject)], .closed, none)
      | some (':' :: r) =>
        let (node, rest) := scanNode fuel r
        match rest.map skipSpace with
        | none => ([(key, node)], .closed, none)
        | some [] => ([(key, node)], .endOfText, none)
        | some (c :: r) =>
          if c = '\x7d' then ([(key, node)], .closed, some r)
          else if c = ',' then
            match skipSpace r with
            | [] => ([(key, node)], .endAfterComma, none)
            | '\x7d' :: _ => ([(key, node)], .closedAfterComma, none)
            | r =>
              let (members, ending, rest) := scanMembers fuel r
              ((key, node) :: members, ending, rest)
          else ([(key, node)], .stray, none)
      | some [] => ([(key, .broken .endOfObject)], .closed, none)
      | some _ => ([(key, .broken .expectedColon)], .closed, none)
    | _ => ([], .badKey, none)

end

/-- Read a whole text. Every level of the tree takes at most two steps for each character. -/
def Document.ofText (s : String) : Document :=
  let cs := s.toList
  let (root, rest) := scanNode (2 * cs.length + 2) cs
  ⟨root, !(skipSpace (rest.getD [])).isEmpty⟩

/-- The value that a text spells. -/
def Value.ofText (s : String) : Except Fault Value :=
  (Document.ofText s).value

end Larder.Json
