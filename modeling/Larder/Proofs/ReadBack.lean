import Mathlib.Algebra.Group.Int.Defs
import Larder.Proofs.CredentialTexts
import Larder.Proofs.Formats

namespace Larder

open Json

/-- The types that are written: what goes over the wire, and what is kept in files. -/
inductive Kind where
  | registration
  | login
  | tokens
  | freshToken
  | orderLine
  | previewRequest
  | preview
  | orderRef
  | orderRecord
  | truckRegistration
  | restockItem
  | restockRequest
  | restockReceipt
  | restockRecord
  | refusal
  | truck
  | manifestLine
  | batch
  | credential
  | list (k : Kind)
  | envelope (k : Kind)

namespace Kind

def Content : Kind → Type
  | registration => Wire.Registration
  | login => Wire.Login
  | tokens => Wire.Tokens
  | freshToken => Wire.FreshToken
  | orderLine => Wire.OrderLine
  | previewRequest => Wire.PreviewRequest
  | preview => Wire.Preview
  | orderRef => Wire.OrderRef
  | orderRecord => Wire.OrderRecord
  | truckRegistration => Wire.TruckRegistration
  | restockItem => Wire.RestockItem
  | restockRequest => Wire.RestockRequest
  | restockReceipt => Wire.RestockReceipt
  | restockRecord => Wire.RestockRecord
  | refusal => Wire.Refusal
  | truck => Truck
  | manifestLine => ManifestLine
  | batch => Batch
  | credential => Storage.Credential
  | list k => List k.Content
  | envelope k => Wire.Envelope k.Content

open Format Wire

def format : (k : Kind) → Format k.Content
  | registration => plain Registration.toJson Registration.decode
  | login => plain Login.toJson Login.decode
  | tokens => plain Tokens.toJson Tokens.decode
  | freshToken => plain FreshToken.toJson FreshToken.decode
  | orderLine => plain OrderLine.toJson OrderLine.decode
  | previewRequest => plain PreviewRequest.toJson PreviewRequest.decode
  | preview => plain Preview.toJson Preview.decode
  | orderRef => plain OrderRef.toJson OrderRef.decode
  | orderRecord => OrderRecord.format
  | truckRegistration => plain TruckRegistration.toJson TruckRegistration.decode
  | restockItem => RestockItem.format
  | restockRequest => RestockRequest.format
  | restockReceipt => plain RestockReceipt.toJson RestockReceipt.decode
  | restockRecord => RestockRecord.format
  | refusal => plain Refusal.toJson Refusal.decode
  | truck => plain Truck.toJson Truck.decode
  | manifestLine => ManifestLine.format
  | batch => Batch.format
  | credential => plain Storage.Credential.toJson Storage.Credential.decode
  | list k => k.format.list
  | envelope k => k.format.envelope

end Kind

namespace Decimal

/-- The same amount, with however many places. -/
def Equals (a b : Decimal) : Prop := a.coefficient * 10 ^ b.scale = b.coefficient * 10 ^ a.scale

instance (a b : Decimal) : Decidable (a.Equals b) :=
  inferInstanceAs (Decidable (_ = _))

theorem Equals.refl (a : Decimal) : a.Equals a := rfl

end Decimal

/-- The same content, but for the places that its amounts have. -/
def Format.Equals {α : Type} (f : Format α) (a b : α) : Prop :=
  ∃ change : Decimal → Decimal, (∀ d, (change d).Equals d) ∧ a = f.withAmounts change b

/-- How a document gets to its reader: as a value, or written on one line or several. -/
inductive Carrier where
  | value
  | line
  | lines

namespace Carrier

def source (v : Value) : Carrier → Source
  | value => .value v
  | line => .text v.print
  | lines => .text (v.printLines 0)

/-- What the reader makes of the document. -/
def read {α : Type} (c : Carrier) (d : Decoder α) (v : Value) : Except Fault α :=
  (c.source v).decode d

end Carrier

section Kinds

variable {k : Kind} {c : Carrier} {a : k.Content} {v : Value}

end Kinds

end Larder
