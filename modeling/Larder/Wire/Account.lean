import Larder.Json.Record

namespace Larder.Wire

open Json (Value Decoder RecordField record)

/-- Registration of a device. -/
structure Registration where
  deviceId : String
  password : String
  email : String
  phone : String
  deriving DecidableEq, Repr

namespace Registration

def deviceIdField : RecordField String := .required "device_id" Json.Decode.text
def passwordField : RecordField String := .required "password" Json.Decode.text
def emailField : RecordField String := .withDefault "email" Json.Decode.text ""
def phoneField : RecordField String := .withDefault "phone" Json.Decode.text ""

def toJson (r : Registration) : Value :=
  .ofMembers [("device_id", .text r.deviceId), ("password", .text r.password),
    ("email", .text r.email), ("phone", .text r.phone)]

def decode : Decoder Registration :=
  record "RegisterClientRequest"
    [deviceIdField.slot, passwordField.slot, emailField.slot, phoneField.slot] fun fs => do
      return ⟨← fs.get deviceIdField, ← fs.get passwordField, ← fs.get emailField,
        ← fs.get phoneField⟩

end Registration

/-- A device and its password. -/
structure Login where
  deviceId : String
  password : String
  deriving DecidableEq, Repr

namespace Login

def deviceIdField : RecordField String := .required "device_id" Json.Decode.text
def passwordField : RecordField String := .required "password" Json.Decode.text

def toJson (l : Login) : Value :=
  .ofMembers [("device_id", .text l.deviceId), ("password", .text l.password)]

def decode : Decoder Login :=
  record "LoginRequest" [deviceIdField.slot, passwordField.slot] fun fs => do
    return ⟨← fs.get deviceIdField, ← fs.get passwordField⟩

end Login

/-- The answer to a login. -/
structure Tokens where
  access : String
  refresh : String
  deriving DecidableEq, Repr

namespace Tokens

def accessField : RecordField String := .required "access_token" Json.Decode.text
def refreshField : RecordField String := .required "refresh_token" Json.Decode.text

def toJson (t : Tokens) : Value :=
  .ofMembers [("access_token", .text t.access), ("refresh_token", .text t.refresh)]

def decode : Decoder Tokens :=
  record "LoginResponse" [accessField.slot, refreshField.slot] fun fs => do
    return ⟨← fs.get accessField, ← fs.get refreshField⟩

end Tokens

/-- The answer to a refresh. -/
structure FreshToken where
  access : String
  deriving DecidableEq, Repr

namespace FreshToken

def accessField : RecordField String := .required "access_token" Json.Decode.text

def toJson (t : FreshToken) : Value :=
  .ofMembers [("access_token", .text t.access)]

def decode : Decoder FreshToken :=
  record "RefreshResponse" [accessField.slot] fun fs => do
    return ⟨← fs.get accessField⟩

end FreshToken

end Larder.Wire
