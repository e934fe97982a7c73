import Larder.Network.Percent
import Larder.Text.Base64

namespace Larder.Network

/-- A user and a password in front of a host. A request shows them in a header. -/
structure Credentials where
  user : String
  password : String
  deriving DecidableEq, Repr

namespace Credentials

/-- A part as it is meant, if its bytes are text. -/
def part? (cs : List Char) : Option String :=
  Text.Utf8.decode? (percentDecode (Text.Utf8.encode (String.ofList cs)))

/-- The credentials that stand in front of a host, the password behind the first colon. There are
none where the user's name is no text, or where both are left out. -/
def ofChars? (cs : List Char) : Option Credentials := do
  let user ← part? (cs.takeWhile (· != ':'))
  let password? := match (cs.dropWhile (· != ':')).drop 1 with
    | [] => none
    | r => part? r
  if user.isEmpty && password?.isNone then none else return ⟨user, password?.getD ""⟩

/-- The header for a user who is known by name and password. -/
def header (c : Credentials) : String :=
  "Basic " ++ Text.Base64.encode (Text.Utf8.encode (c.user ++ ":" ++ c.password))

end Credentials

end Larder.Network
