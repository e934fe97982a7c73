import Larder.Json.Record

namespace Larder.Wire

open Json (Value Decoder RecordField record)

/-- The answer to a query; its payload is null when there is nothing yet. -/
structure Envelope (α : Type) where
  status : Option String
  message : Option String
  data : Option α
  deriving DecidableEq, Repr

namespace Envelope

/-- The envelope of a success. -/
def ok {α : Type} (data : α) : Envelope α := ⟨some "success", none, some data⟩

def statusField : RecordField (Option String) :=
  .withDefault "status" (Json.Decode.optional Json.Decode.text) none

def messageField : RecordField (Option String) :=
  .withDefault "message" (Json.Decode.optional Json.Decode.text) none

/-- The payload may be missing from an object; a sequence has to have it. -/
def dataField {α : Type} (d : Decoder α) : RecordField (Option α) :=
  ⟨"data", [], Json.Decode.optional d, some none, none⟩

def toJson {α : Type} (payload : α → Value) (e : Envelope α) : Value :=
  .ofPresent [("status", e.status.map .text), ("message", e.message.map .text),
    ("data", some ((e.data.map payload).getD .null))]

def decode {α : Type} (d : Decoder α) : Decoder (Envelope α) :=
  record "ApiResponse" [statusField.slot, messageField.slot, (dataField d).slot] fun fs => do
    return ⟨← fs.get statusField, ← fs.get messageField, ← fs.get (dataField d)⟩

end Envelope

/-- The body of a refusal. -/
structure Refusal where
  error : String
  deriving DecidableEq, Repr

namespace Refusal

def errorField : RecordField String := .required "error" Json.Decode.text

def toJson (r : Refusal) : Value := .ofMembers [("error", .text r.error)]

def decode : Decoder Refusal :=
  record "ErrorBody" [errorField.slot] fun fs => do return ⟨← fs.get errorField⟩

end Refusal

end Larder.Wire
