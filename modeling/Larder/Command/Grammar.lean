import Larder.Text.Styled

namespace Larder.Command

/-- What is wrong with a command line. -/
inductive Complaint where
  | nothingGiven (about : String)
  | commandMissing (program : String)
  | unknownCommand (name : String)
  | unexpectedArgument (argument : String)
  | valueMissing (usage : String)
  | repeated (usage : String)
  | unexpectedValue (value usage : String)
  | invalidValue (value usage reason : String)
  | requiredMissing
  deriving DecidableEq, Repr

/-- What is wrong with a value or with the place where it stands. -/
def wrong (part : String) : String := Text.styledQuote .wrong part

def Complaint.reason : Complaint → String
  | .nothingGiven _ => ""
  | .commandMissing program => wrong program ++ " requires a subcommand but one was not provided"
  | .unknownCommand name => "unrecognized subcommand " ++ wrong name
  | .unexpectedArgument argument => "unexpected argument " ++ wrong argument ++ " found"
  | .valueMissing usage => "a value is required for " ++ wrong usage ++ " but none was supplied"
  | .repeated usage => "the argument " ++ wrong usage ++ " cannot be used multiple times"
  | .unexpectedValue value usage =>
    "unexpected value " ++ wrong value ++ " for " ++ Text.styledQuote .literal usage ++
      " found; no more were expected"
  | .invalidValue value usage reason =>
    "invalid value " ++ wrong value ++ " for " ++ Text.styledQuote .literal usage ++ ": " ++ reason
  | .requiredMissing => "the following required arguments were not provided:"

/-- Where to find out more. -/
def helpHint : String :=
  "\n\nFor more information, try " ++ Text.styledQuote .literal "--help" ++ ".\n"

/-- What the person at a terminal sees. -/
def Complaint.styledMessage : Complaint → String
  | .nothingGiven about => about ++ "\n"
  | c => Text.styled .alarm "error:" ++ " " ++ c.reason ++ helpHint

/-- What is written elsewhere: nothing in it is an order to a terminal. -/
def Complaint.message (c : Complaint) : String := Text.withoutControls c.styledMessage

/-- Whether variables ask for styles where nobody is at a terminal. -/
def wantsStyles (lookup : String → Option String) : Bool :=
  ((lookup "NO_COLOR").getD "").isEmpty && (lookup "CLICOLOR_FORCE").any (· != "0")

def styleVariableNames : List String := ["NO_COLOR", "CLICOLOR_FORCE"]

/-- What is written of a complaint. -/
def Complaint.shown (lookup : String → Option String) (c : Complaint) : String :=
  if wantsStyles lookup then c.styledMessage else c.message

inductive OptionKind where
  /-- Takes one value, once. -/
  | single
  /-- Takes one value each time it occurs. -/
  | repeatable
  /-- Takes no value, and may occur once. -/
  | switch
  /-- Takes no value, and ends the reading. -/
  | version
  | help
  deriving DecidableEq, Repr

/-- An option or an operand: how it is called, how messages show it, and what is wrong with a
value. An empty path counts as no value. -/
structure Rule where
  name : String
  usage : String
  kind : OptionKind := .single
  isRequired : Bool := false
  isPath : Bool := false
  complaint? : String → Option String := fun _ => none

/-- The options and the operand that a command has, and the commands that may follow. -/
structure Grammar where
  options : List Rule
  operand : Option Rule := none
  commands : List String := []

/-- An option or operand that waits for the end of its value. -/
structure Pending where
  rule : Rule
  value : Option String

structure Reading where
  /-- Names and values in order; a switch has an empty value. -/
  taken : List (String × String) := []
  pending : Option Pending := none
  /-- The next argument is the value of the pending option. -/
  wantsValue : Bool := false
  /-- Two dashes alone have been seen. -/
  onlyOperands : Bool := false
  hasOperand : Bool := false

namespace Reading

def has (r : Reading) (name : String) : Bool := r.taken.any (·.1 == name)

/-- Take a value, if the rule allows it. -/
def take (rule : Rule) (value : String) (r : Reading) : Except Complaint Reading :=
  if rule.kind != .repeatable && r.has rule.name then .error (.repeated rule.usage)
  else if rule.isPath && value.isEmpty then .error (.valueMissing rule.usage)
  else
    match rule.complaint? value with
    | some reason => .error (.invalidValue value rule.usage reason)
    | none => .ok { r with taken := r.taken ++ [(rule.name, value)] }

/-- Take what is pending. -/
def settle (r : Reading) : Except Complaint Reading :=
  match r.pending with
  | none => .ok r
  | some ⟨rule, none⟩ => .error (.valueMissing rule.usage)
  | some ⟨rule, some value⟩ => ({ r with pending := none, wantsValue := false }).take rule value

end Reading

/-- Where reading goes after an argument. -/
inductive Step where
  | go (r : Reading)
  | version
  | help

namespace Grammar

def option? (g : Grammar) (name : String) : Option Rule := g.options.find? (·.name == name)

/-- An option by its long name, with the value behind its equals sign if there is one. -/
def readLong (g : Grammar) (name : String) (attached : Option String) (r : Reading) :
    Except Complaint Step := do
  match g.option? name with
  | none => throw (.unexpectedArgument ("--" ++ name))
  | some rule =>
    match rule.kind, attached with
    | .single, some value | .repeatable, some value =>
      return .go { (← (← r.settle).take rule value) with wantsValue := false }
    | .single, none | .repeatable, none =>
      return .go { (← r.settle) with pending := some ⟨rule, none⟩, wantsValue := true }
    | _, some value => throw (.unexpectedValue value rule.usage)
    | .switch, none =>
      return .go { (← (← r.settle).take rule "") with wantsValue := false }
    | .version, none => let _ ← r.settle; return .version
    | .help, none => let _ ← r.settle; return .help

/-- An option by its letter; only the version and the help have one. -/
def readShort (g : Grammar) (letter : Char) (r : Reading) : Except Complaint Step := do
  let isThere (kind : OptionKind) : Bool := g.options.any (·.kind == kind)
  if letter == 'V' && isThere .version then let _ ← r.settle; return .version
  else if letter == 'h' && isThere .help then let _ ← r.settle; return .help
  else throw (.unexpectedArgument (String.ofList ['-', letter]))

/-- An argument that is no option. -/
def readOperand (g : Grammar) (argument : String) (r : Reading) : Except Complaint Step := do
  match g.operand, r.hasOperand with
  | some rule, false =>
    let r ← r.settle
    return .go { r with pending := some ⟨rule, some argument⟩, hasOperand := true }
  | _, _ =>
    if g.commands.isEmpty || (r.onlyOperands && g.commands.contains argument) then
      throw (.unexpectedArgument argument)
    else throw (.unknownCommand argument)

/-- Read one argument. A value that stands apart is looked at only when the next option or operand
comes, or the end. -/
def read (g : Grammar) (argument : String) (r : Reading) : Except Complaint Step :=
  if r.onlyOperands then g.readOperand argument r
  else
    match argument.toList with
    | ['-', '-'] => .ok (.go { r with onlyOperands := true })
    | '-' :: '-' :: cs =>
      let attached := match cs.dropWhile (· != '=') with
        | [] => none
        | _ :: value => some (String.ofList value)
      g.readLong (String.ofList (cs.takeWhile (· != '='))) attached r
    | '-' :: letter :: _ => g.readShort letter r
    | _ =>
      match r.wantsValue, r.pending with
      | true, some p =>
        .ok (.go { r with pending := some { p with value := some argument }, wantsValue := false })
      | _, _ => g.readOperand argument r

/-- Whether an argument names the command to go on with. -/
def isCommand (g : Grammar) (argument : String) (r : Reading) : Bool :=
  !r.onlyOperands && !r.wantsValue && g.commands.contains argument

/-- How the reading of a list of arguments ends. -/
inductive Stop where
  | finished (r : Reading)
  /-- A command has been named, and these arguments follow it. -/
  | command (r : Reading) (name : String) (rest : List String)
  | version
  | help

/-- Read arguments up to the end or to the name of a command. -/
def readAll (g : Grammar) : List String → Reading → Except Complaint Stop
  | [], r => return .finished (← r.settle)
  | argument :: rest, r =>
    if g.isCommand argument r then .ok (.command r argument rest)
    else do
      match ← g.read argument r with
      | .go r => g.readAll rest r
      | .version => return .version
      | .help => return .help

/-- Whether everything is there that has to be. -/
def checkRequired (g : Grammar) (r : Reading) : Except Complaint Unit :=
  let rules := g.options ++ g.operand.toList
  if rules.all fun rule => !rule.isRequired || r.has rule.name then .ok ()
  else .error .requiredMissing

end Grammar

end Larder.Command
