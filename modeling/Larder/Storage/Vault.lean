import Larder.Json.Printer
import Larder.Json.Record
import Larder.Storage.Disk

namespace Larder.Storage

open Json (Value Decoder RecordField record)

/-- What outlives the program: the device and its refresh token, never an access token. -/
structure Credential where
  deviceId : String
  refreshToken : String
  deriving DecidableEq, Repr

namespace Credential

def deviceIdField : RecordField String := .required "device_id" Json.Decode.text
def refreshTokenField : RecordField String := .required "refresh_token" Json.Decode.text

def toJson (c : Credential) : Value :=
  .ofMembers [("device_id", .text c.deviceId), ("refresh_token", .text c.refreshToken)]

def decode : Decoder Credential :=
  record "Credential" [deviceIdField.slot, refreshTokenField.slot] fun fs => do
    return ⟨← fs.get deviceIdField, ← fs.get refreshTokenField⟩

def fileText (c : Credential) : String := c.toJson.printLines 0

end Credential

/-- Where the credential's file is. -/
structure Vault where
  route : Route
  deriving DecidableEq, Repr

namespace Vault

variable {D : Type} [FileSystem D]

/-- The vault whose file has this name in this directory. -/
def under (directory : Route) (name : String) : Vault := ⟨directory.join name⟩

/-- Where a credential is written before it is put in its place. -/
def draft (v : Vault) : Route := v.route.withExtension "json.tmp"

def ensureDirectory (v : Vault) (d : D) : Except Refusal Unit × D :=
  FileSystem.makeDirectories d v.route.parent

/-- Save a credential: write it beside the file and then put it in its place. What was done before a
step is refused stays done. -/
def save (v : Vault) (c : Credential) (d : D) : Except Refusal Unit × D :=
  match v.ensureDirectory d with
  | (.error e, d) => (.error e, d)
  | (.ok (), d) =>
    match FileSystem.put d v.draft (some c.fileText) with
    | .error e => (.error e, d)
    | .ok d =>
      match FileSystem.rename d v.draft v.route with
      | .error e => (.error e, d)
      | .ok d => (.ok (), d)

/-- A file that cannot be read, or that holds no refresh token, counts as no credential. -/
def load (v : Vault) (d : D) : Option Credential := do
  let text ← (FileSystem.entry d v.route >>= Entry.text).toOption
  let c ← (Credential.decode.ofText text).toOption
  if c.refreshToken.isEmpty then none else some c

def isThere (v : Vault) (d : D) : Bool := (FileSystem.entry d v.route).toBool

/-- Delete the credential's file; it is no error if there is none. -/
def delete (v : Vault) (d : D) : Except Refusal D :=
  if v.isThere d then FileSystem.removeFile d v.route else .ok d

end Vault

/-- The file of the credential in a cache directory. -/
def sessionFile : String := "session.json"

def Vault.ofDirectory (directory : Route) : Vault := .under directory sessionFile

end Larder.Storage
