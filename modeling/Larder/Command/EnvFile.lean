import Larder.Text.Alphanumeric
import Larder.Text.Blank

namespace Larder.Command

abbrev Variables := List (String × String)

namespace EnvFile

/-- Where a character stands while assignments are told apart. -/
inductive Place where
  | plain
  | blank
  | escape
  | double
  | doubleEscape
  | single
  | singleEscape
  deriving DecidableEq, Repr

/-- The place behind a character outside of quotes. -/
def openPlace (c : Char) : Place :=
  if c == '\\' then .escape
  else if c == '"' then .double
  else if c == '\'' then .single
  else .plain

/-- The place behind a character; none where a comment begins. -/
def Place.next? (p : Place) (c : Char) : Option Place :=
  match p with
  | .blank => if c == '#' then none else some (openPlace c)
  | .escape => some .plain
  | .plain =>
    if Text.isBlank c && c != '\n' && c != '\r' then some .blank else some (openPlace c)
  | .double => some (if c == '\\' then .doubleEscape else if c == '"' then .plain else .double)
  | .doubleEscape => some .double
  | .single => some (if c == '\\' then .singleEscape else if c == '\'' then .plain else .single)
  | .singleEscape => some .single

/-- The place at the end of a line and, if a comment begins in it, the line up to there. -/
def scanLine (p : Place) (before : List Char) : List Char → Place × Option (List Char)
  | [] => (p, none)
  | c :: r =>
    match p.next? c with
    | none => (p, some before.reverse)
    | some q => scanLine q (c :: before) r

/-- A line with its line break, and what follows it. -/
def cutLine (cs : List Char) : List Char × List Char :=
  let line := cs.takeWhile (· != '\n')
  match cs.drop line.length with
  | [] => (line, [])
  | c :: r => (line ++ [c], r)

def withoutBreak (cs : List Char) : List Char :=
  match cs.reverse with
  | '\n' :: '\r' :: r => r.reverse
  | '\n' :: r => r.reverse
  | _ => cs

/-- The next assignment's text, with the lines that belong to it, and what follows it. None at
the end of the file, and an error where the file ends inside of quotes. -/
def nextText (p : Place) (taken : List Char) :
    Nat → List Char → Except Unit (Option (List Char × List Char))
  | 0, _ => .ok none
  | _, [] => if p = .plain then .ok none else .error ()
  | fuel + 1, cs =>
    let (line, rest) := cutLine cs
    let text := taken ++ line
    if (Text.dropBlanks text).head? = some '#' then .ok (some ([], rest))
    else
      match scanLine p [] line with
      | (_, some before) => .ok (some (taken ++ before, rest))
      | (.plain, none) => .ok (some (withoutBreak text, rest))
      | (q, none) => nextText q text fuel rest

def isKeyStart (c : Char) : Bool := c.isAlpha || c == '_'

def isKeyPart (c : Char) : Bool := c.isAlphanum || c == '_' || c == '.'

/-- A name in front of a text. -/
def key? (cs : List Char) : Option (String × List Char) :=
  match cs with
  | [] => none
  | c :: _ =>
    if isKeyStart c then some (String.ofList (cs.takeWhile isKeyPart), cs.dropWhile isKeyPart)
    else none

def afterEquals? : List Char → Option (List Char)
  | '=' :: r => some r
  | _ => none

/-- How far a reference to a variable has been read. -/
inductive Reference where
  | none
  | bare (name : List Char)
  | braced (name : List Char)
  deriving DecidableEq, Repr

structure ValueReading where
  inSingle : Bool := false
  inDouble : Bool := false
  isEscaped : Bool := false
  /-- A blank has ended a bare value; only a comment may follow. -/
  isOver : Bool := false
  reference : Reference := .none
  /-- The value so far, the last character first. -/
  value : List Char := []

/-- The characters that may follow a backslash, and what they stand for. -/
def escape? : Char → Option Char
  | 'n' => some '\n'
  | c => if c == '\\' || c == '\'' || c == '"' || c == '$' || c == ' ' then some c else none

namespace ValueReading

def push (r : ValueReading) (c : Char) : ValueReading := { r with value := c :: r.value }

/-- The value of a variable put in the place of the reference to it. -/
def resolve (lookup : String → String) (name : List Char) (r : ValueReading) : ValueReading :=
  { r with
    reference := .none
    value := (lookup (String.ofList name.reverse)).toList.reverse ++ r.value }

/-- Read a character outside of references, escapes and single quotes. -/
def stepPlain (r : ValueReading) (c : Char) : ValueReading :=
  if c == '$' then { r with reference := .bare [] }
  else if r.inDouble then
    if c == '"' then { r with inDouble := false }
    else if c == '\\' then { r with isEscaped := true }
    else r.push c
  else if c == '\'' then { r with inSingle := true }
  else if c == '"' then { r with inDouble := true }
  else if c == '\\' then { r with isEscaped := true }
  else if c == ' ' || c == '\t' then { r with isOver := true }
  else r.push c

/-- Read a character of a reference. -/
def stepReference (lookup : String → String) (r : ValueReading) (c : Char) : ValueReading :=
  match r.reference with
  | .none => r.stepPlain c
  | .bare name =>
    if Text.isAlphanumeric c then { r with reference := .bare (c :: name) }
    else if c == '\x7b' && name.isEmpty then { r with reference := .braced [] }
    else
      let r := r.resolve lookup name
      if c == '$' then { r with reference := .bare [] } else r.push c
  | .braced name =>
    if c == '\x7d' then r.resolve lookup name else { r with reference := .braced (c :: name) }

end ValueReading

/-- Read a value; none where it is badly written. -/
def readValue (lookup : String → String) : ValueReading → List Char → Option ValueReading
  | r, [] => some r
  | r, c :: cs =>
    if r.isOver then
      if c == ' ' || c == '\t' then readValue lookup r cs
      else if c == '#' then some r
      else none
    else if r.isEscaped then
      match escape? c with
      | some e => readValue lookup { r.push e with isEscaped := false } cs
      | none => none
    else if r.inSingle then
      readValue lookup (if c == '\'' then { r with inSingle := false } else r.push c) cs
    else readValue lookup (r.stepReference lookup c) cs

def value? (lookup : String → String) (cs : List Char) : Option String := do
  let r ← readValue lookup {} cs
  let isOpen := r.inSingle || r.inDouble || match r.reference with
    | .braced _ => true
    | _ => false
  if isOpen then none
  else
    let r := match r.reference with
      | .bare name => r.resolve lookup name
      | _ => r
    some (String.ofList r.value.reverse)

/-- What an assignment's text says: nothing, or a name and a value. -/
inductive Line where
  | nothing
  | assignment (name value : String)
  deriving DecidableEq, Repr

/-- The name and what follows its equals sign, behind the word that marks it for export. -/
def exported? (word : String) (cs : List Char) : Option (String × List Char) := do
  if word != "export" then none
  let (key, cs) ← key? cs
  return (key, ← afterEquals? (Text.dropBlanks cs))

/-- Read an assignment; none where it is badly written. -/
def line? (lookup : String → String) (cs : List Char) : Option Line := do
  let cs := Text.dropBlanks (Text.dropBlanks cs.reverse).reverse
  if cs.isEmpty || cs.head? == some '#' then return .nothing
  let (key, cs) ← key? cs
  let cs := Text.dropBlanks cs
  let (key, cs) ← (afterEquals? cs).elim (exported? key cs) fun r => some (key, r)
  let cs := Text.dropBlanks cs
  if cs.isEmpty || cs.head? == some '#' then return .assignment key ""
  return .assignment key (← value? lookup cs)

/-- Add a file's variables to those there are; `seen` holds what the file has said so far. -/
def load (fuel : Nat) (seen : Variables) (known : Variables) (cs : List Char) : Variables :=
  match fuel with
  | 0 => known
  | fuel + 1 =>
    match nextText .plain [] (cs.length + 1) cs with
    | .error () | .ok none => known
    | .ok (some (text, rest)) =>
      let lookup := fun name => ((known.lookup name).or (seen.lookup name)).getD ""
      match line? lookup text with
      | none => known
      | some .nothing => load fuel seen known rest
      | some (.assignment name value) =>
        let known :=
          if (known.lookup name).isSome then known else (name, value) :: known
        load fuel ((name, value) :: seen) known rest

end EnvFile

/-- The environment with what a file of variables adds to it. What is set already stays as it is,
and reading stops at the first line that is no assignment. -/
def Variables.withFile (known : Variables) (text : String) : Variables :=
  let cs := match text.toList with
    | c :: r => if c.toNat = 0xFEFF then r else c :: r
    | [] => []
  EnvFile.load (cs.length + 1) [] known cs

end Larder.Command
