import Larder.Json.Value

namespace Larder

/-- One request to the service, with its path from the root. -/
structure Request where
  method : String
  path : String
  query : List (String × String) := []
  body : Option Json.Value := none
  bearer : Option String := none
  deriving Repr

namespace Request

def get (path : String) : Request := { method := "GET", path }

def post (path : String) : Request := { method := "POST", path }

def withBody (r : Request) (body : Json.Value) : Request := { r with body := some body }

def withQuery (r : Request) (key value : String) : Request :=
  { r with query := r.query ++ [(key, value)] }

/-- The request with this bearer token, whatever it had before. -/
def withBearer (r : Request) (token : String) : Request := { r with bearer := some token }

end Request

end Larder
