import Larder.Storage.Route

namespace Larder.Storage

inductive Entry where
  | directory
  /-- A file; one whose bytes are no text holds none. -/
  | file (text : Option String)
  deriving DecidableEq, Repr

/-- Why an operation is refused. -/
inductive Refusal where
  | notFound
  | alreadyThere
  | notADirectory
  | isADirectory
  | nameTooLong
  | tooManyLinks
  /-- A name holds the character that ends names. -/
  | unusableName
  | notText
  deriving DecidableEq, Repr

def Refusal.message : Refusal → String
  | .notFound => "No such file or directory (os error 2)"
  | .alreadyThere => "File exists (os error 17)"
  | .notADirectory => "Not a directory (os error 20)"
  | .isADirectory => "Is a directory (os error 21)"
  | .nameTooLong => "File name too long (os error 36)"
  | .tooManyLinks => "Too many levels of symbolic links (os error 40)"
  | .unusableName => "file name contained an unexpected NUL byte"
  | .notText => "stream did not contain valid UTF-8"

/-- The text of a file. -/
def Entry.text : Entry → Except Refusal String
  | .directory => .error .isADirectory
  | .file none => .error .notText
  | .file (some text) => .ok text

/-- What a vault asks of the place where it keeps its file. -/
class FileSystem (D : Type) where
  /-- Make a directory and all those above it. Those that have been made stay when a later name is
  refused. -/
  makeDirectories : D → Route → Except Refusal Unit × D
  /-- Write a file that is there, or a new one. -/
  put : D → Route → Option String → Except Refusal D
  /-- Move a file to another place, whatever file is there. -/
  rename : D → Route → Route → Except Refusal D
  removeFile : D → Route → Except Refusal D
  /-- What is at the end of a route. -/
  entry : D → Route → Except Refusal Entry

/-- Files and directories under their paths. The root directory is always there. -/
structure Disk where
  entries : List (Path × Entry)
  deriving DecidableEq, Repr

namespace Disk

def empty : Disk := ⟨[]⟩

instance : Inhabited Disk := ⟨empty⟩

def entry? (d : Disk) (p : Path) : Option Entry :=
  if p = [] then some .directory else d.entries.lookup p

def erase (d : Disk) (p : Path) : Disk := ⟨d.entries.filter (·.1 ≠ p)⟩

def set (d : Disk) (p : Path) (e : Entry) : Disk := ⟨(p, e) :: (d.erase p).entries⟩

def isDirectory (d : Disk) (p : Path) : Bool := d.entry? p == some .directory

/-- The paths of all entries. -/
def paths (d : Disk) : List Path := d.entries.map (·.1)

/-- The most bytes that a name may have. -/
def longestName : Nat := 255

/-- The most bytes that the text of a route may have. -/
def longestRoute : Nat := 4095

/-- The place that a name leads to from a directory. -/
def step (p : Path) (name : String) : Except Refusal Path :=
  if name = upName then .ok p.dropLast
  else if longestName < name.utf8ByteSize then .error .nameTooLong
  else .ok (p ++ [name])

/-- The place that names lead to from a directory. Each but the last has to lead to a directory. -/
def walk (d : Disk) (p : Path) : List String → Except Refusal Path
  | [] => .ok p
  | [name] => step p name
  | name :: names => do
    let p ← step p name
    match d.entry? p with
    | some .directory => d.walk p names
    | some (.file _) => throw .notADirectory
    | none => throw .notFound

/-- What is wrong with a route before it is followed. -/
def complaint? (r : Route) : Option Refusal :=
  if r.names.any fun name => name.toList.contains (Char.ofNat 0) then some .unusableName
  else if longestRoute < r.text.utf8ByteSize then some .nameTooLong
  else none

/-- The place that a route leads to; nothing has to be there yet. -/
def place (d : Disk) (r : Route) : Except Refusal Path :=
  match complaint? r with
  | some e => .error e
  | none => d.walk [] r.names

/-- What is at the end of a route. -/
def entry (d : Disk) (r : Route) : Except Refusal Entry := do
  match d.entry? (← d.place r) with
  | none => throw .notFound
  | some (.file text) => if r.asksForDirectory then throw .notADirectory else return .file text
  | some .directory => return .directory

def isThere (d : Disk) (r : Route) : Bool := (d.entry r).toBool

/-- The text of a file. -/
def read (d : Disk) (r : Route) : Except Refusal String := do (← d.entry r).text

/-- The text of a file that can be read. -/
def text? (d : Disk) (r : Route) : Option String := (d.read r).toOption

/-- Make the directories that are missing on the way from one that is there. Those that have been
made stay when a later name is refused. -/
def makeBelow (d : Disk) (p : Path) : List String → Except Refusal Unit × Disk
  | [] => (.ok (), d)
  | name :: names =>
    match step p name with
    | .error e => (.error e, d)
    | .ok p =>
      match d.entry? p with
      | some .directory => d.makeBelow p names
      | some (.file _) => (.error (if names.isEmpty then .alreadyThere else .notADirectory), d)
      | none => (d.set p .directory).makeBelow p names

/-- Make a directory and all those above it. -/
def makeDirectories (d : Disk) (r : Route) : Except Refusal Unit × Disk :=
  match complaint? r with
  | some e => (.error e, d)
  | none => d.makeBelow [] r.names

/-- Make one directory, in one that is there. -/
def makeDirectory (d : Disk) (r : Route) : Except Refusal Disk := do
  let p ← d.place r
  if (d.entry? p).isSome then throw .alreadyThere
  else if r.endsHere then throw .notFound
  else return d.set p .directory

/-- Put a file at a place where no directory stands. -/
def put (d : Disk) (r : Route) (text : Option String) : Except Refusal Disk := do
  let p ← d.place r
  if d.isDirectory p || r.asksForDirectory then throw .isADirectory
  else return d.set p (.file text)

/-- Move a file to another place, whatever file is there. -/
def rename (d : Disk) (source target : Route) : Except Refusal Disk := do
  match ← d.entry source with
  | .directory => throw .isADirectory
  | .file text =>
    let q ← d.place target
    if d.isDirectory q || target.asksForDirectory then throw .isADirectory
    else return (d.erase (← d.place source)).set q (.file text)

def removeFile (d : Disk) (r : Route) : Except Refusal Disk := do
  match ← d.entry r with
  | .directory => throw .isADirectory
  | .file _ => return d.erase (← d.place r)

instance : FileSystem Disk where
  makeDirectories := makeDirectories
  put := put
  rename := rename
  removeFile := removeFile
  entry := entry

end Disk

end Larder.Storage
