import Larder.Command.CartLine
import Larder.Command.Grammar
import Larder.Wire.Account
import Larder.Restock.Batch

namespace Larder.Command

/-- What the program is asked to do. -/
inductive Task where
  | register (registration : Wire.Registration)
  | login (login : Wire.Login)
  | logout
  | whoami
  | order (items : List Wire.OrderLine) (cancel : Bool)
  | history
  | last
  | truckRegister (truck : Truck)
  | restock (manifest : String)
  deriving DecidableEq, Repr

/-- A task with what overrides the settings. -/
structure Invocation where
  baseUrl : Option String
  cacheDirectory : Option String
  task : Task
  deriving DecidableEq, Repr

/-- What a command line asks for. -/
inductive Asked where
  | run (i : Invocation)
  | version
  | help
  deriving DecidableEq, Repr

def programName : String := "grocery"

def programVersion : String := "0.1.0"

def about : String := "Smart-fridge and supplier-truck client for the grocery ordering service"

/-- An option that takes one value. -/
def valueOption (name placeholder : String) (isRequired : Bool := false) : Rule :=
  { name, usage := "--" ++ name ++ " <" ++ placeholder ++ ">", isRequired }

/-- An operand that has to be there. -/
def operand (placeholder : String) (isPath : Bool := false) : Rule :=
  { name := placeholder, usage := "<" ++ placeholder ++ ">", isRequired := true, isPath }

def baseUrlOption : Rule := valueOption "base-url" "BASE_URL"

def cacheDirOption : Rule := { valueOption "cache-dir" "CACHE_DIR" with isPath := true }

def helpOption : Rule := { name := "help", usage := "--help", kind := .help }

/-- What is wrong with the text of a cart line. -/
def cartLineComplaint? (s : String) : Option String :=
  match cartLine s with
  | .ok _ => none
  | .error reason => some reason

def itemOption : Rule :=
  { name := "item", usage := "--item <ITEMS>", kind := .repeatable, isRequired := true,
    complaint? := cartLineComplaint? }

def globalOptions : List Rule := [baseUrlOption, cacheDirOption, helpOption]

def commandGrammar (options : List Rule) (operand : Option Rule := none) : Grammar :=
  { options := options ++ globalOptions, operand }

/-- The commands and how they are written. -/
def commandGrammars : List (String × Grammar) := [
  ("register", commandGrammar
    [valueOption "password" "PASSWORD" true, valueOption "email" "EMAIL",
      valueOption "phone" "PHONE"] (operand "DEVICE_ID")),
  ("login", commandGrammar [valueOption "password" "PASSWORD" true] (operand "DEVICE_ID")),
  ("logout", commandGrammar []),
  ("whoami", commandGrammar []),
  ("order", commandGrammar
    [itemOption, { name := "cancel", usage := "--cancel", kind := .switch }]),
  ("history", commandGrammar []),
  ("last", commandGrammar []),
  ("truck-register", commandGrammar
    [valueOption "plate" "PLATE" true, valueOption "driver" "DRIVER" true]
    (operand "TRUCK_ID")),
  ("restock", commandGrammar [] (operand "MANIFEST" true))]

def helpCommand : String := "help"

def topGrammar : Grammar where
  options := globalOptions ++ [{ name := "version", usage := "--version", kind := .version }]
  commands := commandGrammars.map (·.1) ++ [helpCommand]

/-- The value of an option or operand. -/
def Reading.value? (r : Reading) (name : String) : Option String :=
  (r.taken.find? (·.1 == name)).map (·.2)

def Reading.value (r : Reading) (name : String) : String := (r.value? name).getD ""

/-- The values of an option that can be repeated. -/
def Reading.values (r : Reading) (name : String) : List String :=
  (r.taken.filter (·.1 == name)).map (·.2)

/-- The task of a command whose arguments have been read. -/
def task (command : String) (r : Reading) : Task :=
  match command with
  | "register" =>
    .register ⟨r.value "DEVICE_ID", r.value "password", r.value "email", r.value "phone"⟩
  | "login" => .login ⟨r.value "DEVICE_ID", r.value "password"⟩
  | "logout" => .logout
  | "whoami" => .whoami
  | "order" =>
    .order ((r.values "item").filterMap fun s => (cartLine s).toOption) (r.has "cancel")
  | "history" => .history
  | "last" => .last
  | "truck-register" =>
    .truckRegister { truckId := r.value "TRUCK_ID", plateNumber := r.value "plate",
                     driverName := r.value "driver" }
  | _ => .restock (r.value "MANIFEST")

/-- Read the arguments behind a command. -/
def readCommand (top : Reading) (command : String) (g : Grammar) (arguments : List String) :
    Except Complaint Asked := do
  match ← g.readAll arguments {} with
  | .version => return .version
  | .help => return .help
  | .command _ _ _ => throw (.unknownCommand command)
  | .finished r =>
    g.checkRequired r
    let top ← top.settle
    let later (name : String) : Option String := (r.value? name).or (top.value? name)
    return .run ⟨later "base-url", later "cache-dir", task command r⟩

/-- Ask for help, in general or about one command. -/
def readHelp : List String → Except Complaint Asked
  | [] => .ok .help
  | name :: rest =>
    if topGrammar.commands.contains name then
      match rest with
      | [] => .ok .help
      | other :: _ => .error (.unknownCommand other)
    else .error (.unknownCommand name)

/-- Read a command line. -/
def readArguments (arguments : List String) : Except Complaint Asked := do
  match ← topGrammar.readAll arguments {} with
  | .version => return .version
  | .help => return .help
  | .finished r =>
    if r.taken.isEmpty then throw (.nothingGiven about) else throw (.commandMissing programName)
  | .command top name rest =>
    match commandGrammars.lookup name with
    | some g => readCommand top name g rest
    | none => readHelp rest

end Larder.Command
