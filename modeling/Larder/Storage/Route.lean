namespace Larder.Storage

/-- Names from the root directory down, none of which leads up. -/
abbrev Path := List String

/-- A text's parts between slashes, seen from the root directory. Empty parts and single points at
its end ask for a directory. -/
structure Route where
  parts : List String
  deriving DecidableEq, Repr

/-- The name that leads up. -/
def upName : String := ".."

/-- A text's parts between slashes. -/
def partsOf (s : String) : List String := (s.toList.splitOn '/').map String.ofList

/-- Whether a part of a route leads somewhere. -/
def leads (part : String) : Bool := part != "" && part != "."

/-- The parts of a text that lead somewhere. -/
def namesOf (s : String) : List String := (partsOf s).filter leads

/-- A file name without what follows its last point; a point in front belongs to the name. -/
def stem (name : String) : String :=
  let front := (name.toList.reverse.dropWhile (· != '.')).drop 1
  if front.isEmpty then name else String.ofList front.reverse

/-- Whether a name is two points and an extension. -/
def isUpWithExtension (name : String) : Bool :=
  match name.toList with
  | '.' :: '.' :: c :: r => !(c :: r).contains '.'
  | _ => false

namespace Route

def ofPath (p : Path) : Route := ⟨p⟩

/-- A route's text, as seen from a working directory. -/
def ofText (workingDirectory : Path) (s : String) : Route :=
  ⟨(if s.toList.head? = some '/' then [] else workingDirectory) ++ partsOf s⟩

/-- The parts in front of another text: a slash at their end is that text's own. -/
def front (r : Route) : List String :=
  if r.parts.getLast? = some "" then r.parts.dropLast else r.parts

/-- A route with another text behind it, unless that starts at the root directory itself. -/
def join (r : Route) (s : String) : Route :=
  ⟨(if s.toList.head? = some '/' then [] else r.front) ++ partsOf s⟩

/-- The names on the way. -/
def names (r : Route) : List String := r.parts.filter leads

/-- Whether the end of the route has to be a directory. -/
def asksForDirectory (r : Route) : Bool := (r.parts.getLast?.map (!leads ·)).getD true

/-- Whether the last part that is written is a single point. -/
def endsHere (r : Route) : Bool := (r.parts.filter (· != "")).getLast? == some "."

/-- The route to where the last name is. -/
def parent (r : Route) : Route := ⟨r.names.dropLast⟩

/-- The route without parts that lead nowhere at its ends. -/
def trim (r : Route) : Route :=
  let front := r.parts.dropWhile (!leads ·)
  ⟨(front.reverse.dropWhile (!leads ·)).reverse⟩

/-- The text of a route that starts where the reader is. -/
def text (r : Route) : String := "/".intercalate r.parts

/-- The route to a file with another extension. A name that is only two points with an extension
gives up the extension, and one that leads up stays as it is. -/
def withExtension (extension : String) (r : Route) : Route :=
  match r.names.getLast? with
  | none => r
  | some name =>
    if name = upName then r
    else if isUpWithExtension name && !r.asksForDirectory then ⟨r.names.dropLast ++ [upName]⟩
    else ⟨r.names.dropLast ++ [stem name ++ "." ++ extension]⟩

end Route

end Larder.Storage
