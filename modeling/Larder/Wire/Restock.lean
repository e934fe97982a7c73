import Larder.Aisle
import Larder.Json.Record

namespace Larder.Wire

open Json (Value Decoder RecordField record)

/-- Registration of a truck. -/
structure TruckRegistration where
  truckId : String
  plateNumber : String
  driverName : String
  deriving DecidableEq, Repr

namespace TruckRegistration

def truckIdField : RecordField String := .required "truck_id" Json.Decode.text
def plateNumberField : RecordField String := .required "plate_number" Json.Decode.text
def driverNameField : RecordField String := .required "driver_name" Json.Decode.text

def toJson (r : TruckRegistration) : Value :=
  .ofMembers [("truck_id", .text r.truckId), ("plate_number", .text r.plateNumber),
    ("driver_name", .text r.driverName)]

def decode : Decoder TruckRegistration :=
  record "RegisterTruckRequest"
    [truckIdField.slot, plateNumberField.slot, driverNameField.slot] fun fs => do
      return ⟨← fs.get truckIdField, ← fs.get plateNumberField, ← fs.get driverNameField⟩

end TruckRegistration

/-- One delivered item. Its dates are timestamps in text. -/
structure RestockItem where
  sku : String
  name : String
  aisle : Aisle
  quantity : UInt32
  made : String
  expires : String
  unitCost : Decimal
  deriving DecidableEq, Repr

namespace RestockItem

def skuField : RecordField String := .required "sku" Json.Decode.text
def nameField : RecordField String := .required "name" Json.Decode.text
def aisleField : RecordField Aisle := .required "aisle_type" Aisle.decode
def quantityField : RecordField UInt32 := .required "quantity" Json.Decode.count
def madeField : RecordField String := .required "mfd_date" Json.Decode.text
def expiresField : RecordField String := .required "expiry_date" Json.Decode.text
def unitCostField : RecordField Decimal := .required "unit_cost" Json.Decode.amount

def toJson (i : RestockItem) : Value :=
  .ofMembers [("sku", .text i.sku), ("name", .text i.name), ("aisle_type", i.aisle.toJson),
    ("quantity", .ofNat i.quantity.toNat), ("mfd_date", .text i.made),
    ("expiry_date", .text i.expires), ("unit_cost", .float i.unitCost.toFloat)]

def decode : Decoder RestockItem :=
  record "RestockItem"
    [skuField.slot, nameField.slot, aisleField.slot, quantityField.slot, madeField.slot,
      expiresField.slot, unitCostField.slot] fun fs => do
      return ⟨← fs.get skuField, ← fs.get nameField, ← fs.get aisleField, ← fs.get quantityField,
        ← fs.get madeField, ← fs.get expiresField, ← fs.get unitCostField⟩

end RestockItem

/-- A delivery as it is handed in. -/
structure RestockRequest where
  truckId : String
  plateNumber : String
  driverName : String
  contactInfo : String
  location : String
  supplierId : String
  supplierName : String
  items : List RestockItem
  deriving DecidableEq, Repr

namespace RestockRequest

def truckIdField : RecordField String := .required "truck_id" Json.Decode.text
def plateNumberField : RecordField String := .required "plate_number" Json.Decode.text
def driverNameField : RecordField String := .required "driver_name" Json.Decode.text
def contactInfoField : RecordField String := .withDefault "contact_info" Json.Decode.text ""
def locationField : RecordField String := .withDefault "location" Json.Decode.text ""
def supplierIdField : RecordField String := .required "supplier_id" Json.Decode.text
def supplierNameField : RecordField String := .withDefault "supplier_name" Json.Decode.text ""

def itemsField : RecordField (List RestockItem) :=
  .required "items" (Json.Decode.sequence RestockItem.decode)

def toJson (r : RestockRequest) : Value :=
  .ofMembers [("truck_id", .text r.truckId), ("plate_number", .text r.plateNumber),
    ("driver_name", .text r.driverName), ("contact_info", .text r.contactInfo),
    ("location", .text r.location), ("supplier_id", .text r.supplierId),
    ("supplier_name", .text r.supplierName),
    ("items", .sequence (r.items.map RestockItem.toJson))]

def decode : Decoder RestockRequest :=
  record "RestockRequest"
    [truckIdField.slot, plateNumberField.slot, driverNameField.slot, contactInfoField.slot,
      locationField.slot, supplierIdField.slot, supplierNameField.slot, itemsField.slot]
    fun fs => do
      return ⟨← fs.get truckIdField, ← fs.get plateNumberField, ← fs.get driverNameField,
        ← fs.get contactInfoField, ← fs.get locationField, ← fs.get supplierIdField,
        ← fs.get supplierNameField, ← fs.get itemsField⟩

end RestockRequest

/-- The service's word that a delivery has been taken on. -/
structure RestockReceipt where
  orderId : String
  status : Option String
  message : Option String
  deriving DecidableEq, Repr

namespace RestockReceipt

def orderIdField : RecordField String := .required "order_id" Json.Decode.text

def statusField : RecordField (Option String) :=
  .withDefault "status" (Json.Decode.optional Json.Decode.text) none

def messageField : RecordField (Option String) :=
  .withDefault "message" (Json.Decode.optional Json.Decode.text) none

def toJson (r : RestockReceipt) : Value :=
  .ofPresent [("order_id", some (.text r.orderId)), ("status", r.status.map .text),
    ("message", r.message.map .text)]

def decode : Decoder RestockReceipt :=
  record "RestockSubmitted" [orderIdField.slot, statusField.slot, messageField.slot] fun fs => do
    return ⟨← fs.get orderIdField, ← fs.get statusField, ← fs.get messageField⟩

end RestockReceipt

/-- A delivery as the service keeps it. -/
structure RestockRecord where
  orderId : String
  status : String
  totalCost : Decimal
  createdAt : Option Calendar.Timestamp
  deriving DecidableEq, Repr

namespace RestockRecord

def orderIdField : RecordField String := .withDefault "OrderID" Json.Decode.text "" ["order_id"]

def statusField : RecordField String := .withDefault "Status" Json.Decode.text "" ["status"]

def totalCostField : RecordField Decimal :=
  .withDefault "TotalCost" Json.Decode.amount .zero ["total_cost"]

def createdAtField : RecordField (Option Calendar.Timestamp) :=
  .withDefault "CreatedAt" (Json.Decode.optional Json.Decode.timestamp) none ["created_at"]

def toJson (r : RestockRecord) : Value :=
  .ofPresent [("OrderID", some (.text r.orderId)), ("Status", some (.text r.status)),
    ("TotalCost", some (.float r.totalCost.toFloat)),
    ("CreatedAt", r.createdAt.map fun t => .text t.text)]

def decode : Decoder RestockRecord :=
  record "RestockRecord"
    [orderIdField.slot, statusField.slot, totalCostField.slot, createdAtField.slot] fun fs => do
      return ⟨← fs.get orderIdField, ← fs.get statusField, ← fs.get totalCostField,
        ← fs.get createdAtField⟩

end RestockRecord

end Larder.Wire
