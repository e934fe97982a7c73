import Larder.Storage.Disk

namespace Larder.Storage

/-- What stands under a name of a volume. -/
inductive Node where
  | directory
  /-- A file. One that has several names has the same number under each of them. -/
  | file (text : Option String) (number : Option Nat)
  /-- A symbolic link, with the text of the route that is followed in its place. -/
  | link (target : String)
  deriving DecidableEq, Repr

def Node.ofEntry : Entry → Node
  | .directory => .directory
  | .file text => .file text none

/-- What stands under a name when the file with a number has a new text. -/
def Node.rewrite (number : Nat) (text : Option String) : Node → Node
  | .file old (some other) => .file (if other = number then text else old) (some other)
  | n => n

/-- A disk on which files may have several names, and names may be symbolic links. -/
structure Volume where
  nodes : List (Path × Node)
  deriving DecidableEq, Repr

namespace Volume

def ofDisk (d : Disk) : Volume := ⟨d.entries.map fun (p, e) => (p, .ofEntry e)⟩

def node? (d : Volume) (p : Path) : Option Node :=
  if p = [] then some .directory else d.nodes.lookup p

def erase (d : Volume) (p : Path) : Volume := ⟨d.nodes.filter (·.1 ≠ p)⟩

def set (d : Volume) (p : Path) (n : Node) : Volume := ⟨(p, n) :: (d.erase p).nodes⟩

def isDirectory (d : Volume) (p : Path) : Bool := d.node? p == some .directory

/-- The place that a part of a route leads to from a directory. -/
def step (p : Path) (part : String) : Except Refusal Path :=
  if leads part then Disk.step p part else .ok p

/-- The directory that the target of a link is followed from, for a link in another directory. -/
def start (p : Path) (target : String) : Path :=
  if target.toList.head? = some '/' then [] else p

/-- Follow parts from a directory, as `Disk.walk` does, and whatever is behind a link with
`follow`. The last part is followed as a link only where the way goes on `toEnd`. -/
def walkWith (d : Volume) (toEnd : Bool) (follow : Path → List String → Except Refusal Path)
    (p : Path) : List String → Except Refusal Path
  | [] => .ok p
  | part :: parts => do
    let q ← step p part
    match d.node? q with
    | some .directory => d.walkWith toEnd follow q parts
    | some (.link target) =>
      if parts.isEmpty && !toEnd then return q
      else follow (start p target) (partsOf target ++ parts)
    | some (.file ..) => if parts.isEmpty then return q else throw .notADirectory
    | none => if parts.isEmpty then return q else throw .notFound

/-- The place that parts lead to from a directory, through so many links at most. -/
def walk (d : Volume) (toEnd : Bool) : Nat → Path → List String → Except Refusal Path
  | 0 => d.walkWith toEnd fun _ _ => .error .tooManyLinks
  | links + 1 => d.walkWith toEnd (d.walk toEnd links)

/-- The most links that are followed for one route. -/
def mostLinks : Nat := 40

/-- The place where the last name of a route is, whatever stands there. -/
def place (d : Volume) (r : Route) : Except Refusal Path :=
  match Disk.complaint? r with
  | some e => .error e
  | none => d.walk false mostLinks [] r.names

/-- The place that a route leads to when its last name is followed as well. -/
def goal (d : Volume) (r : Route) : Except Refusal Path :=
  match Disk.complaint? r with
  | some e => .error e
  | none => d.walk true mostLinks [] r.names

/-- What a route leads to. -/
def entry (d : Volume) (r : Route) : Except Refusal Entry := do
  match d.node? (← d.goal r) with
  | none => throw .notFound
  | some (.link _) => throw .tooManyLinks
  | some (.file text _) => if r.asksForDirectory then throw .notADirectory else return .file text
  | some .directory => return .directory

/-- Whether names lead to a directory that is there. -/
def leadsToDirectory (d : Volume) (names : List String) : Bool :=
  match d.walk true mostLinks [] names with
  | .ok p => d.isDirectory p
  | .error _ => false

/-- Why there is no directory behind names of which the last is taken by something else. -/
def obstacle (d : Volume) (names : List String) (isLast : Bool) : Refusal :=
  if isLast then .alreadyThere
  else
    match d.walk true mostLinks [] names with
    | .ok p => if (d.node? p).isSome then .notADirectory else .alreadyThere
    | .error .notFound => .alreadyThere
    | .error e => e

/-- Make the directories that are missing behind names that lead to one. -/
def makeBelow (d : Volume) (done : List String) : List String → Except Refusal Unit × Volume
  | [] => (.ok (), d)
  | name :: names =>
    let names' := done ++ [name]
    if d.leadsToDirectory names' then d.makeBelow names' names
    else
      match d.walk false mostLinks [] names' with
      | .error e => (.error e, d)
      | .ok p =>
        match d.node? p with
        | none => (d.set p .directory).makeBelow names' names
        | some _ => (.error (d.obstacle names' names.isEmpty), d)

/-- Make a directory and all those above it, except where a link stands in the way. -/
def makeDirectories (d : Volume) (r : Route) : Except Refusal Unit × Volume :=
  match Disk.complaint? r with
  | some e => (.error e, d)
  | none => d.makeBelow [] r.names

/-- Write the file at a place, under all the names that it has. -/
def write (d : Volume) (p : Path) (text : Option String) : Volume :=
  match d.node? p with
  | some (.file _ (some number)) => ⟨d.nodes.map fun (q, n) => (q, n.rewrite number text)⟩
  | _ => d.set p (.file text none)

/-- Write the file that a route leads to, or a new one there. -/
def put (d : Volume) (r : Route) (text : Option String) : Except Refusal Volume := do
  let p ← d.goal r
  if d.isDirectory p || r.asksForDirectory then throw .isADirectory
  else return d.write p text

/-- Whether two places are names of one file. -/
def isSameFile (d : Volume) (p q : Path) : Bool :=
  match d.node? p, d.node? q with
  | some (.file _ (some m)), some (.file _ (some n)) => m == n
  | _, _ => false

/-- Give a file or a link another name, whatever file or link had that. Between two names of one
file there is nothing to do. -/
def rename (d : Volume) (source target : Route) : Except Refusal Volume := do
  let p ← d.place source
  match d.node? p with
  | none => throw .notFound
  | some .directory => throw .isADirectory
  | some n =>
    if source.asksForDirectory then throw .notADirectory
    else
      let q ← d.place target
      if d.isDirectory q || target.asksForDirectory then throw .isADirectory
      else if d.isSameFile p q then return d
      else return (d.erase p).set q n

/-- Take away a name of a file, or a link. -/
def removeFile (d : Volume) (r : Route) : Except Refusal Volume := do
  let p ← d.place r
  match d.node? p with
  | none => throw .notFound
  | some .directory => throw .isADirectory
  | some _ => if r.asksForDirectory then throw .notADirectory else return d.erase p

instance : FileSystem Volume where
  makeDirectories := makeDirectories
  put := put
  rename := rename
  removeFile := removeFile
  entry := entry

end Volume

end Larder.Storage
