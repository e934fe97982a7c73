import Larder.Failure
import Larder.Text.Blank
import Larder.Wire.Restock

namespace Larder

open Json (Value Decoder RecordField record)

/-- The delivering truck. -/
structure Truck where
  truckId : String
  plateNumber : String
  driverName : String
  contactInfo : String := ""
  location : String := ""
  deriving DecidableEq, Repr

/-- A text that may not be blank. -/
def require (field value : String) : Except Failure Unit :=
  if Text.isBlankText value then .error (.invalid (field ++ " is required")) else .ok ()

namespace Truck

def truckIdField : RecordField String := .required "truck_id" Json.Decode.text
def plateNumberField : RecordField String := .required "plate_number" Json.Decode.text
def driverNameField : RecordField String := .required "driver_name" Json.Decode.text
def contactInfoField : RecordField String := .withDefault "contact_info" Json.Decode.text ""
def locationField : RecordField String := .withDefault "location" Json.Decode.text ""

def toJson (t : Truck) : Value :=
  .ofMembers [("truck_id", .text t.truckId), ("plate_number", .text t.plateNumber),
    ("driver_name", .text t.driverName), ("contact_info", .text t.contactInfo),
    ("location", .text t.location)]

def decode : Decoder Truck :=
  record "TruckIdentity"
    [truckIdField.slot, plateNumberField.slot, driverNameField.slot, contactInfoField.slot,
      locationField.slot] fun fs => do
      return ⟨← fs.get truckIdField, ← fs.get plateNumberField, ← fs.get driverNameField,
        ← fs.get contactInfoField, ← fs.get locationField⟩

def validate (t : Truck) : Except Failure Unit := do
  require "truck_id" t.truckId
  require "plate_number" t.plateNumber
  require "driver_name" t.driverName

def registration (t : Truck) : Wire.TruckRegistration :=
  ⟨t.truckId, t.plateNumber, t.driverName⟩

end Truck

/-- One line of a manifest. -/
structure ManifestLine where
  sku : String
  name : String
  aisle : Aisle
  quantity : UInt32
  unitCost : Decimal
  made : Calendar.Date
  expires : Calendar.Date
  deriving DecidableEq, Repr

namespace ManifestLine

def skuField : RecordField String := .required "sku" Json.Decode.text
def nameField : RecordField String := .required "name" Json.Decode.text
def aisleField : RecordField Aisle := .required "aisle" Aisle.decode ["aisle_type"]
def quantityField : RecordField UInt32 := .required "quantity" Json.Decode.count
def unitCostField : RecordField Decimal := .required "unit_cost" Json.Decode.amount
def madeField : RecordField Calendar.Date := .required "mfd_date" Json.Decode.date
def expiresField : RecordField Calendar.Date := .required "expiry_date" Json.Decode.date

def toJson (l : ManifestLine) : Value :=
  .ofMembers [("sku", .text l.sku), ("name", .text l.name), ("aisle", l.aisle.toJson),
    ("quantity", .ofNat l.quantity.toNat), ("unit_cost", .float l.unitCost.toFloat),
    ("mfd_date", .text l.made.text), ("expiry_date", .text l.expires.text)]

def decode : Decoder ManifestLine :=
  record "ManifestLine"
    [skuField.slot, nameField.slot, aisleField.slot, quantityField.slot, unitCostField.slot,
      madeField.slot, expiresField.slot] fun fs => do
      return ⟨← fs.get skuField, ← fs.get nameField, ← fs.get aisleField, ← fs.get quantityField,
        ← fs.get unitCostField, ← fs.get madeField, ← fs.get expiresField⟩

/-- Quantity times unit cost, if an amount can hold it. -/
def cost? (l : ManifestLine) : Option Decimal := do
  l.unitCost.mul? (← Decimal.ofInt? l.quantity.toNat)

/-- The first rule that the line breaks. -/
def complaint? (l : ManifestLine) : Option String :=
  if Text.isBlankText l.sku then some "SKU is required"
  else if Text.isBlankText l.name then some "name is required"
  else if l.quantity = 0 then some "quantity must be positive"
  else if l.unitCost.isNegative then some "unit cost must not be negative"
  else if l.expires.before l.made then some "expiry date precedes manufacture date"
  else if l.cost?.isNone then some "line cost is out of range"
  else none

/-- Check a line; lines are counted from one. -/
def validate (number : Nat) (l : ManifestLine) : Except Failure Unit :=
  match l.complaint? with
  | none => .ok ()
  | some reason =>
    .error (.invalid ("Manifest line " ++ toString number ++ " (" ++ Text.trim l.sku ++ "): " ++
      reason))

/-- The line as it is handed in: both dates stand for the first moment of their day. -/
def item (l : ManifestLine) : Wire.RestockItem where
  sku := Text.trim l.sku
  name := Text.trim l.name
  aisle := l.aisle
  quantity := l.quantity
  made := l.made.midnightText
  expires := l.expires.midnightText
  unitCost := l.unitCost

end ManifestLine

/-- Who supplies, which truck delivers, and what. -/
structure Batch where
  supplierId : String
  supplierName : String
  truck : Truck
  manifest : List ManifestLine
  deriving DecidableEq, Repr

namespace Batch

def supplierIdField : RecordField String := .required "supplier_id" Json.Decode.text
def supplierNameField : RecordField String := .withDefault "supplier_name" Json.Decode.text ""
def truckField : RecordField Truck := .required "truck" Truck.decode

def manifestField : RecordField (List ManifestLine) :=
  .withDefault "manifest" (Json.Decode.sequence ManifestLine.decode) []

def toJson (b : Batch) : Value :=
  .ofMembers [("supplier_id", .text b.supplierId), ("supplier_name", .text b.supplierName),
    ("truck", b.truck.toJson), ("manifest", .sequence (b.manifest.map ManifestLine.toJson))]

def decode : Decoder Batch :=
  record "RestockBatch"
    [supplierIdField.slot, supplierNameField.slot, truckField.slot, manifestField.slot] fun fs => do
      return ⟨← fs.get supplierIdField, ← fs.get supplierNameField, ← fs.get truckField,
        ← fs.get manifestField⟩

/-- A batch without lines. -/
def new (supplierId supplierName : String) (truck : Truck) : Batch :=
  ⟨supplierId, supplierName, truck, []⟩

def withLine (b : Batch) (l : ManifestLine) : Batch := { b with manifest := b.manifest ++ [l] }

/-- The running total of the lines, as long as an amount can hold it. -/
def addCosts? (total : Decimal) : List ManifestLine → Option Decimal
  | [] => some total
  | l :: r => do addCosts? (← total.add? (← l.cost?)) r

/-- What the lines come to by the supplier's own prices. -/
def estimatedCost? (b : Batch) : Option Decimal := addCosts? .zero b.manifest

/-- Check lines from the one with this number on. -/
def validateLines : Nat → List ManifestLine → Except Failure Unit
  | _, [] => .ok ()
  | number, l :: r => do
    l.validate number
    validateLines (number + 1) r

def validate (b : Batch) : Except Failure Unit := do
  require "supplier_id" b.supplierId
  b.truck.validate
  if b.manifest.isEmpty then throw (.invalid "Manifest is empty: add at least one item")
  validateLines 1 b.manifest
  if b.estimatedCost?.isNone then throw (.invalid "Manifest total cost is out of range")

/-- The batch as it is handed in, if nothing is wrong with it. -/
def request (b : Batch) : Except Failure Wire.RestockRequest := do
  b.validate
  return {
    truckId := b.truck.truckId
    plateNumber := b.truck.plateNumber
    driverName := b.truck.driverName
    contactInfo := b.truck.contactInfo
    location := b.truck.location
    supplierId := Text.trim b.supplierId
    supplierName := b.supplierName
    items := b.manifest.map ManifestLine.item }

end Batch

end Larder
