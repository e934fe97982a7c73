import Larder.Storage.Vault
import Larder.Text.Quoted
import Larder.Wire.Account

namespace Larder

/-- A device that is logged in. A session that has been read back has no access token at first. -/
structure Session where
  deviceId : String
  accessToken : Option String
  refreshToken : Option String
  /-- When the access token was obtained. -/
  refreshedAt : Option Nat
  deriving DecidableEq, Repr

/-- What a session can do at present. -/
inductive AuthState where
  | authenticated
  | recoverable
  | unauthenticated
  deriving DecidableEq, Repr

namespace Session

def nonEmpty? (token : String) : Option String := if token.isEmpty then none else some token

def ofLogin (deviceId : String) (tokens : Wire.Tokens) (now : Nat) : Session :=
  ⟨deviceId, some tokens.access, nonEmpty? tokens.refresh, some now⟩

def ofCredential (c : Storage.Credential) : Session :=
  ⟨c.deviceId, none, nonEmpty? c.refreshToken, none⟩

def authState (s : Session) : AuthState :=
  match s.accessToken, s.refreshToken with
  | some _, _ => .authenticated
  | none, some _ => .recoverable
  | none, none => .unauthenticated

/-- The session with an access token obtained now. -/
def withAccessToken (s : Session) (token : String) (now : Nat) : Session :=
  { s with accessToken := some token, refreshedAt := some now }

/-- Whether a new access token is due and a refresh token is there to get it. -/
def needsRefresh (s : Session) (interval now : Nat) : Bool :=
  s.refreshToken.isSome &&
    match s.accessToken, s.refreshedAt with
    | some _, some obtained => decide (interval ≤ now - obtained)
    | _, _ => true

def credential? (s : Session) : Option Storage.Credential :=
  s.refreshToken.map fun token => ⟨s.deviceId, token⟩

/-- How diagnostics show a token: that it is there, and no more. -/
def redacted : Option String → String
  | some _ => "Some(\"<redacted>\")"
  | none => "None"

/-- The session in diagnostics, up to its tokens. -/
def diagnosticText (s : Session) : String :=
  "Session \x7b device_id: " ++ Text.quoted s.deviceId ++ ", access_token: " ++
    redacted s.accessToken ++ ", refresh_token: " ++ redacted s.refreshToken

end Session

end Larder
