import Larder.Json.Record

namespace Larder.Wire

open Json (Value Decoder RecordField record)

/-- One line of a cart. -/
structure OrderLine where
  sku : String
  quantity : UInt32
  deriving DecidableEq, Repr

namespace OrderLine

def skuField : RecordField String := .required "sku" Json.Decode.text
def quantityField : RecordField UInt32 := .required "quantity" Json.Decode.count

def toJson (l : OrderLine) : Value :=
  .ofMembers [("sku", .text l.sku), ("quantity", .ofNat l.quantity.toNat)]

def decode : Decoder OrderLine :=
  record "OrderLine" [skuField.slot, quantityField.slot] fun fs => do
    return ⟨← fs.get skuField, ← fs.get quantityField⟩

end OrderLine

/-- A cart that is to be reserved. -/
structure PreviewRequest where
  items : List OrderLine
  deriving DecidableEq, Repr

namespace PreviewRequest

def itemsField : RecordField (List OrderLine) :=
  .required "items" (Json.Decode.sequence OrderLine.decode)

def toJson (r : PreviewRequest) : Value :=
  .ofMembers [("items", .sequence (r.items.map OrderLine.toJson))]

def decode : Decoder PreviewRequest :=
  record "PreviewRequest" [itemsField.slot] fun fs => do return ⟨← fs.get itemsField⟩

end PreviewRequest

/-- Quantities by SKU. -/
abbrev Quantities := Table UInt32

def quantitiesToJson (q : Quantities) : Value :=
  .object (q.entries.map fun (sku, n) => (sku, .ofNat n.toNat))

/-- What the service has reserved. -/
structure Preview where
  orderId : String
  items : Quantities
  status : Option String
  message : Option String
  deriving DecidableEq, Repr

namespace Preview

def orderIdField : RecordField String :=
  .required "order_id" Json.Decode.text ["OrderId", "OrderID"]

def itemsField : RecordField Quantities :=
  .withDefault "items" (Json.Decode.table Json.Decode.count) .empty

def statusField : RecordField (Option String) :=
  .withDefault "status" (Json.Decode.optional Json.Decode.text) none

def messageField : RecordField (Option String) :=
  .withDefault "message" (Json.Decode.optional Json.Decode.text) none

def toJson (p : Preview) : Value :=
  .ofPresent [("order_id", some (.text p.orderId)), ("items", some (quantitiesToJson p.items)),
    ("status", p.status.map .text), ("message", p.message.map .text)]

def decode : Decoder Preview :=
  record "PreviewResponse"
    [orderIdField.slot, itemsField.slot, statusField.slot, messageField.slot] fun fs => do
      return ⟨← fs.get orderIdField, ← fs.get itemsField, ← fs.get statusField,
        ← fs.get messageField⟩

end Preview

/-- The order that is confirmed or cancelled. -/
structure OrderRef where
  orderId : String
  deriving DecidableEq, Repr

namespace OrderRef

def orderIdField : RecordField String := .required "order_id" Json.Decode.text

def toJson (r : OrderRef) : Value := .ofMembers [("order_id", .text r.orderId)]

def decode : Decoder OrderRef :=
  record "OrderRef" [orderIdField.slot] fun fs => do return ⟨← fs.get orderIdField⟩

end OrderRef

/-- An order as the service keeps it. -/
structure OrderRecord where
  orderId : String
  status : String
  totalPrice : Decimal
  createdAt : Option Calendar.Timestamp
  deriving DecidableEq, Repr

namespace OrderRecord

def orderIdField : RecordField String := .withDefault "OrderID" Json.Decode.text "" ["order_id"]

def statusField : RecordField String := .withDefault "Status" Json.Decode.text "" ["status"]

def totalPriceField : RecordField Decimal :=
  .withDefault "TotalPrice" Json.Decode.amount .zero ["total_price"]

def createdAtField : RecordField (Option Calendar.Timestamp) :=
  .withDefault "CreatedAt" (Json.Decode.optional Json.Decode.timestamp) none ["created_at"]

def toJson (r : OrderRecord) : Value :=
  .ofPresent [("OrderID", some (.text r.orderId)), ("Status", some (.text r.status)),
    ("TotalPrice", some (.float r.totalPrice.toFloat)),
    ("CreatedAt", r.createdAt.map fun t => .text t.text)]

def decode : Decoder OrderRecord :=
  record "OrderRecord"
    [orderIdField.slot, statusField.slot, totalPriceField.slot, createdAtField.slot] fun fs => do
      return ⟨← fs.get orderIdField, ← fs.get statusField, ← fs.get totalPriceField,
        ← fs.get createdAtField⟩

end OrderRecord

end Larder.Wire
