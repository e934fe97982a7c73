import Larder.Call
import Larder.Line
import Larder.Session.Basic

namespace Larder

/-- What a device has with the service: the line to it, at most one session, and the vault that
keeps the refresh token of that. -/
structure Account where
  line : Line
  disk : Storage.Disk
  vault : Storage.Vault
  refreshInterval : Nat
  session : Option Session

namespace Account

def registerPath : String := "/api/client/register"

def loginPath : String := "/api/client/login"

def refreshPath : String := "/api/client/refresh"

def sessionExpired : Failure := .unauthorized "Session expired, please log in again"

/-- What came of an attempt to renew the access token. -/
inductive RefreshResult where
  | refreshed
  /-- The service turned the refresh token down. -/
  | rejected (message : String)
  /-- The network or the service is in trouble; the refresh token may still be good. -/
  | unavailable (f : Failure)
  | noRefreshToken
  deriving DecidableEq, Repr

def send (r : Request) : Call Account Response :=
  .wait fun a => let (response, line) := a.line.send r; (response, { a with line })

def accessToken? (a : Account) : Option String := a.session.bind Session.accessToken

def refreshToken? (a : Account) : Option String := a.session.bind Session.refreshToken

/-- Save what outlives a session. When the disk refuses, only the next restore is lost. -/
def keep (s : Session) (a : Account) : Account :=
  match s.credential? with
  | some c => { a with disk := (a.vault.save c a.disk).2 }
  | none => a

/-- Hold a session, and keep it on disk. -/
def hold (s : Session) (a : Account) : Account := { a.keep s with session := some s }

/-- End the session and delete what is kept of it, as far as the disk allows. -/
def discard (a : Account) : Account :=
  { a with session := none, disk := (a.vault.delete a.disk).toOption.getD a.disk }

/-- Credentials have to have a device and a password. -/
def checkCredentials (deviceId password : String) : Except Failure Unit :=
  if Text.isBlankText deviceId || password.isEmpty then
    .error (.invalid "Device ID and password are required")
  else .ok ()

/-- Register a device; that does not log it in. -/
def register (r : Wire.Registration) : Call Account Unit := do
  .ofExcept (checkCredentials r.deviceId r.password)
  let response ← send ((Request.post registerPath).withBody r.toJson)
  let _ ← Call.ofExcept response.success

/-- The tokens of a login reply. -/
def loginTokens (r : Response) : Except Failure Wire.Tokens := do
  let tokens ← r.content Wire.Tokens.decode
  if tokens.access.isEmpty then throw (.badReply "login response carries no access token")
  return tokens

/-- Log in. The new session takes the place of any other. -/
def login (l : Wire.Login) : Call Account Unit := do
  .ofExcept (checkCredentials l.deviceId l.password)
  let response ← send ((Request.post loginPath).withBody l.toJson)
  let tokens ← Call.ofExcept (loginTokens response)
  Call.modify fun a => a.hold (.ofLogin l.deviceId tokens a.line.now)

/-- What a refresh reply says: a new access token, or why there is none. -/
def freshToken (r : Response) : Except RefreshResult String :=
  if r.status = 401 ∨ r.status = 403 then
    .error (.rejected (r.errorText?.getD "refresh rejected"))
  else
    match r.content Wire.FreshToken.decode with
    | .error e => .error (.unavailable e)
    | .ok t =>
      if t.access.isEmpty then
        .error (.unavailable (.badReply "refresh response carries no access token"))
      else .ok t.access

/-- The account with a new access token for its session. -/
def withAccessToken (token : String) (a : Account) : Account :=
  match a.session with
  | some s => a.hold (s.withAccessToken token a.line.now)
  | none => a

/-- Exchange the refresh token for a new access token. -/
def renew : Call Account RefreshResult := do
  match ← Call.view refreshToken? with
  | none => return .noRefreshToken
  | some token =>
    let response ← send ((Request.post refreshPath).withBearer token)
    match freshToken response with
    | .error result => return result
    | .ok access =>
      Call.modify (withAccessToken access)
      return .refreshed

/-- Read the session back from disk and get an access token for it. A session that the service
turns down is discarded; when the service is in trouble the disk keeps it for another time. Tells
whether there is a session now. -/
def restore : Call Account Bool := do
  match ← Call.view fun a => a.vault.load a.disk with
  | none => return false
  | some credential =>
    Call.modify fun a => { a with session := some (.ofCredential credential) }
    match ← renew with
    | .refreshed => return true
    | .unavailable e =>
      Call.modify fun a => { a with session := none }
      Call.fail e
    | .rejected _ | .noRefreshToken =>
      Call.modify discard
      return false

/-- Whether a new access token was got. -/
def refresh : Call Account Bool := do
  match ← renew with
  | .refreshed => return true
  | _ => return false

def refreshDue (a : Account) : Bool :=
  match a.session with
  | some s => s.needsRefresh a.refreshInterval a.line.now
  | none => false

/-- Renew the access token if that is due. -/
def renewIfDue : Call Account (Option RefreshResult) := do
  if ← Call.view refreshDue then return some (← renew) else return none

/-- Renew the access token if that is due; false when it was due and failed. -/
def ensureFresh : Call Account Bool := do
  match ← renewIfDue with
  | none | some .refreshed => return true
  | some _ => return false

/-- End a session that can get no access token any more. -/
def expire {α : Type} : Call Account α := do
  Call.modify discard
  Call.fail sessionExpired

/-- The access token for a protected request, or the failure that there is none. -/
def token (proactive : Option RefreshResult) : Call Account String := do
  match ← Call.view accessToken?, proactive with
  | some token, _ => return token
  | none, some (.unavailable e) => Call.fail e
  | none, some (.rejected _) => expire
  | none, _ => Call.fail sessionExpired

/-- Repeat a request that was answered 401, with a new access token. -/
def retry (r : Request) (refused : Response) : Call Account Response := do
  match ← renew with
  | .rejected _ => expire
  | .unavailable e => Call.fail e
  | .noRefreshToken => Call.fail refused.failure
  | .refreshed =>
    match ← Call.view accessToken? with
    | none => Call.fail sessionExpired
    | some token =>
      let response ← send (r.withBearer token)
      if response.isUnauthorized then Call.fail response.failure else return response

/-- Send a protected request. -/
def authorizedCall (r : Request) : Call Account Response := do
  if (← Call.view Account.session).isNone then
    Call.fail (.unauthorized "Not logged in")
  else
    let token ← token (← renewIfDue)
    let response ← send (r.withBearer token)
    if response.isUnauthorized then retry r response else return response

/-- End the session and delete what is kept of it; the service is not told. -/
def logout : Call Account Unit := do
  Call.modify fun a => { a with session := none }
  match ← Call.view fun a => a.vault.delete a.disk with
  | .ok disk => Call.modify fun a => { a with disk }
  | .error e => Call.fail (.storage e.message)

end Account

end Larder
