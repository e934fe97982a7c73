import Larder.Proofs.WrittenRecords
import Larder.Restock.Batch
import Larder.Wire.Account
import Larder.Wire.Envelope
import Larder.Wire.Order
import Larder.Wire.Restock

namespace Larder

open Json

/-- How a type is written and read, and the amounts in it. -/
structure Format (α : Type) where
  toJson : α → Value
  decode : Decoder α
  amounts : α → List Decimal
  /-- The same with other amounts. -/
  withAmounts : (Decimal → Decimal) → α → α

namespace Format

variable {α β : Type}

/-- What is written is read back, with its amounts as they read. -/
structure Faithful (f : Format α) : Prop where
  reads : ∀ (p : Passage) (back : Decimal → Decimal) (a : α),
    (∀ d ∈ f.amounts a, p.amount d = .ok (back d)) →
      f.decode.Reads p (f.toJson a) (f.withAmounts back a)
  same : ∀ (back : Decimal → Decimal) (a : α), (∀ d ∈ f.amounts a, back d = d) →
    f.withAmounts back a = a
  present : ∀ a, f.toJson a ≠ .null

/-- An amount is written as a double. -/
def amount : Format Decimal where
  toJson d := .float d.toFloat
  decode := Decode.amount
  amounts d := [d]
  withAmounts back d := back d

theorem amount_faithful : amount.Faithful where
  reads _ _ d hback := reads_amount (hback d List.mem_cons_self)
  same _ d hback := hback d List.mem_cons_self
  present _ := nofun

/-- A type without amounts. -/
def plain (toJson : α → Value) (decode : Decoder α) : Format α :=
  ⟨toJson, decode, fun _ => [], fun _ a => a⟩

/-- A type with amounts in one of its parts. -/
def around (toJson : α → Value) (decode : Decoder α) (inner : Format β) (get : α → β)
    (set : α → β → α) : Format α where
  toJson := toJson
  decode := decode
  amounts a := inner.amounts (get a)
  withAmounts back a := set a (inner.withAmounts back (get a))

theorem around_faithful {toJson : α → Value} {decode : Decoder α} {inner : Format β} {get : α → β}
    {set : α → β → α} (h : inner.Faithful)
    (reads : ∀ {p : Passage} a {b}, inner.decode.Reads p (inner.toJson (get a)) b →
      decode.Reads p (toJson a) (set a b))
    (same : ∀ a, set a (get a) = a) (present : ∀ a, toJson a ≠ .null) :
    (around toJson decode inner get set).Faithful where
  reads p back a hback := reads a (h.reads p back (get a) hback)
  same back a hback := (congrArg (set a) (h.same back (get a) hback)).trans (same a)
  present := present

/-- A list is written item by item. -/
def list (f : Format α) : Format (List α) where
  toJson as := .sequence (as.map f.toJson)
  decode := Decode.sequence f.decode
  amounts as := as.flatMap f.amounts
  withAmounts back as := as.map (f.withAmounts back)

theorem Faithful.list {f : Format α} (h : f.Faithful) : f.list.Faithful where
  reads p back as hback := reads_sequence fun a ha =>
    h.reads p back a fun d hd => hback d (List.mem_flatMap_of_mem ha hd)
  same back as hback := by
    have hitems : ∀ a ∈ as, f.withAmounts back a = a := fun a ha =>
      h.same back a fun d hd => hback d (List.mem_flatMap_of_mem ha hd)
    exact (List.map_congr_left hitems).trans (List.map_id as)
  present _ := nofun

/-- An answer with a payload or without. -/
def envelope (f : Format α) : Format (Wire.Envelope α) where
  toJson := Wire.Envelope.toJson f.toJson
  decode := Wire.Envelope.decode f.decode
  amounts e := e.data.toList.flatMap f.amounts
  withAmounts back e := { e with data := e.data.map (f.withAmounts back) }

theorem Faithful.envelope {f : Format α} (h : f.Faithful) : f.envelope.Faithful where
  reads p back e hback := by
    obtain ⟨status, message, data⟩ := e
    have hdata : (Decode.optional f.decode).Reads p ((data.map f.toJson).getD .null)
        (data.map (f.withAmounts back)) := by
      cases data with
      | none => exact reads_none f.decode
      | some a =>
        refine reads_some (h.reads p back a fun d hmem => hback d ?_) (h.present a)
        simpa [Format.envelope] using hmem
    change (Wire.Envelope.decode f.decode).Reads p (Wire.Envelope.toJson f.toJson _)
      ⟨status, message, data.map (f.withAmounts back)⟩
    refine reads_record _
      [.optional Wire.Envelope.statusField rfl status fun s => reads_some (reads_text s) nofun,
        .optional Wire.Envelope.messageField rfl message fun s => reads_some (reads_text s) nofun,
        .always (Wire.Envelope.dataField f.decode) hdata]
      rfl ?_ fun fs ⟨hstatus, hmessage, hpayload⟩ => ?_
    · change ["status", "message", "data"].Nodup
      decide
    · simp only [bind_ok]
      exact ⟨_, hstatus, _, hmessage, _, hpayload, rfl⟩
  same back e hback := by
    obtain ⟨status, message, data⟩ := e
    cases data with
    | none => rfl
    | some a =>
      have hsame := h.same back a fun d hd => hback d (by simpa [Format.envelope] using hd)
      simp [Format.envelope, hsame]
  present _ := nofun

end Format

namespace Wire

section Plain

variable (p : Passage)

theorem Registration.reads (r : Registration) : Registration.decode.Reads p r.toJson r := by
  refine reads_record _
    [.always deviceIdField (reads_text r.deviceId), .always passwordField (reads_text r.password),
      .always emailField (reads_text r.email), .always phoneField (reads_text r.phone)]
    rfl (by decide) fun fs ⟨h₁, h₂, h₃, h₄⟩ => ?_
  simp only [bind_ok]
  exact ⟨_, h₁, _, h₂, _, h₃, _, h₄, rfl⟩

theorem Login.reads (l : Login) : Login.decode.Reads p l.toJson l := by
  refine reads_record _
    [.always deviceIdField (reads_text l.deviceId), .always passwordField (reads_text l.password)]
    rfl (by decide) fun fs ⟨h₁, h₂⟩ => ?_
  simp only [bind_ok]
  exact ⟨_, h₁, _, h₂, rfl⟩

theorem Tokens.reads (t : Tokens) : Tokens.decode.Reads p t.toJson t := by
  refine reads_record _
    [.always accessField (reads_text t.access), .always refreshField (reads_text t.refresh)]
    rfl (by decide) fun fs ⟨h₁, h₂⟩ => ?_
  simp only [bind_ok]
  exact ⟨_, h₁, _, h₂, rfl⟩

theorem FreshToken.reads (t : FreshToken) : FreshToken.decode.Reads p t.toJson t :=
  reads_record _ [.always accessField (reads_text t.access)] rfl (by decide)
    fun _ h => bind_ok.mpr ⟨_, h, rfl⟩

theorem OrderLine.reads (l : OrderLine) : OrderLine.decode.Reads p l.toJson l := by
  refine reads_record _
    [.always skuField (reads_text l.sku), .always quantityField (reads_count l.quantity)]
    rfl (by decide) fun fs ⟨h₁, h₂⟩ => ?_
  simp only [bind_ok]
  exact ⟨_, h₁, _, h₂, rfl⟩

theorem PreviewRequest.reads (r : PreviewRequest) :
    PreviewRequest.decode.Reads p r.toJson r := by
  have hitems : (Decode.sequence OrderLine.decode).Reads p
      (.sequence (r.items.map OrderLine.toJson)) (r.items.map id) :=
    reads_sequence fun l _ => OrderLine.reads p l
  rw [List.map_id] at hitems
  exact reads_record _ [.always itemsField hitems] rfl (by decide)
    fun _ h => bind_ok.mpr ⟨_, h, rfl⟩

theorem Preview.reads (r : Preview) : Preview.decode.Reads p r.toJson r := by
  refine reads_record _
    [.always orderIdField (reads_text r.orderId),
      .always itemsField (reads_table r.items fun n => reads_count n),
      .optional statusField rfl r.status fun s => reads_some (reads_text s) nofun,
      .optional messageField rfl r.message fun s => reads_some (reads_text s) nofun]
    rfl (by decide) fun fs ⟨h₁, h₂, h₃, h₄⟩ => ?_
  simp only [bind_ok]
  exact ⟨_, h₁, _, h₂, _, h₃, _, h₄, rfl⟩

theorem OrderRef.reads (r : OrderRef) : OrderRef.decode.Reads p r.toJson r :=
  reads_record _ [.always orderIdField (reads_text r.orderId)] rfl (by decide)
    fun _ h => bind_ok.mpr ⟨_, h, rfl⟩

theorem TruckRegistration.reads (r : TruckRegistration) :
    TruckRegistration.decode.Reads p r.toJson r := by
  refine reads_record _
    [.always truckIdField (reads_text r.truckId),
      .always plateNumberField (reads_text r.plateNumber),
      .always driverNameField (reads_text r.driverName)]
    rfl (by decide) fun fs ⟨h₁, h₂, h₃⟩ => ?_
  simp only [bind_ok]
  exact ⟨_, h₁, _, h₂, _, h₃, rfl⟩

theorem RestockReceipt.reads (r : RestockReceipt) :
    RestockReceipt.decode.Reads p r.toJson r := by
  refine reads_record _
    [.always orderIdField (reads_text r.orderId),
      .optional statusField rfl r.status fun s => reads_some (reads_text s) nofun,
      .optional messageField rfl r.message fun s => reads_some (reads_text s) nofun]
    rfl (by decide) fun fs ⟨h₁, h₂, h₃⟩ => ?_
  simp only [bind_ok]
  exact ⟨_, h₁, _, h₂, _, h₃, rfl⟩

theorem Refusal.reads (r : Refusal) : Refusal.decode.Reads p r.toJson r :=
  reads_record _ [.always errorField (reads_text r.error)] rfl (by decide)
    fun _ h => bind_ok.mpr ⟨_, h, rfl⟩

end Plain

section Priced

variable {p : Passage}

theorem OrderRecord.reads (r : OrderRecord) {d : Decimal}
    (h : Decode.amount.Reads p (.float r.totalPrice.toFloat) d) :
    OrderRecord.decode.Reads p r.toJson { r with totalPrice := d } := by
  refine reads_record _
    [.always orderIdField (reads_text r.orderId), .always statusField (reads_text r.status),
      .always totalPriceField h,
      .optional createdAtField rfl r.createdAt fun t => reads_some (reads_timestamp t) nofun]
    rfl (by decide) fun fs ⟨h₁, h₂, h₃, h₄⟩ => ?_
  simp only [bind_ok]
  exact ⟨_, h₁, _, h₂, _, h₃, _, h₄, rfl⟩

def OrderRecord.format : Format OrderRecord :=
  .around OrderRecord.toJson OrderRecord.decode .amount OrderRecord.totalPrice
    fun r d => { r with totalPrice := d }

theorem OrderRecord.format_faithful : OrderRecord.format.Faithful :=
  Format.around_faithful Format.amount_faithful OrderRecord.reads (fun _ => rfl) fun _ => nofun

theorem RestockItem.reads (i : RestockItem) {d : Decimal}
    (h : Decode.amount.Reads p (.float i.unitCost.toFloat) d) :
    RestockItem.decode.Reads p i.toJson { i with unitCost := d } := by
  refine reads_record _
    [.always skuField (reads_text i.sku), .always nameField (reads_text i.name),
      .always aisleField (reads_aisle i.aisle), .always quantityField (reads_count i.quantity),
      .always madeField (reads_text i.made), .always expiresField (reads_text i.expires),
      .always unitCostField h]
    rfl (by decide) fun fs ⟨h₁, h₂, h₃, h₄, h₅, h₆, h₇⟩ => ?_
  simp only [bind_ok]
  exact ⟨_, h₁, _, h₂, _, h₃, _, h₄, _, h₅, _, h₆, _, h₇, rfl⟩

def RestockItem.format : Format RestockItem :=
  .around RestockItem.toJson RestockItem.decode .amount RestockItem.unitCost
    fun i d => { i with unitCost := d }

theorem RestockItem.format_faithful : RestockItem.format.Faithful :=
  Format.around_faithful Format.amount_faithful RestockItem.reads (fun _ => rfl) fun _ => nofun

theorem RestockRequest.reads (r : RestockRequest) {items : List RestockItem}
    (h : (Decode.sequence RestockItem.decode).Reads p
      (.sequence (r.items.map RestockItem.toJson)) items) :
    RestockRequest.decode.Reads p r.toJson { r with items := items } := by
  refine reads_record _
    [.always truckIdField (reads_text r.truckId),
      .always plateNumberField (reads_text r.plateNumber),
      .always driverNameField (reads_text r.driverName),
      .always contactInfoField (reads_text r.contactInfo),
      .always locationField (reads_text r.location),
      .always supplierIdField (reads_text r.supplierId),
      .always supplierNameField (reads_text r.supplierName), .always itemsField h]
    rfl (by decide) fun fs ⟨h₁, h₂, h₃, h₄, h₅, h₆, h₇, h₈⟩ => ?_
  simp only [bind_ok]
  exact ⟨_, h₁, _, h₂, _, h₃, _, h₄, _, h₅, _, h₆, _, h₇, _, h₈, rfl⟩

def RestockRequest.format : Format RestockRequest :=
  .around RestockRequest.toJson RestockRequest.decode RestockItem.format.list RestockRequest.items
    fun r items => { r with items := items }

theorem RestockRequest.format_faithful : RestockRequest.format.Faithful :=
  Format.around_faithful RestockItem.format_faithful.list RestockRequest.reads (fun _ => rfl)
    fun _ => nofun

theorem RestockRecord.reads (r : RestockRecord) {d : Decimal}
    (h : Decode.amount.Reads p (.float r.totalCost.toFloat) d) :
    RestockRecord.decode.Reads p r.toJson { r with totalCost := d } := by
  refine reads_record _
    [.always orderIdField (reads_text r.orderId), .always statusField (reads_text r.status),
      .always totalCostField h,
      .optional createdAtField rfl r.createdAt fun t => reads_some (reads_timestamp t) nofun]
    rfl (by decide) fun fs ⟨h₁, h₂, h₃, h₄⟩ => ?_
  simp only [bind_ok]
  exact ⟨_, h₁, _, h₂, _, h₃, _, h₄, rfl⟩

def RestockRecord.format : Format RestockRecord :=
  .around RestockRecord.toJson RestockRecord.decode .amount RestockRecord.totalCost
    fun r d => { r with totalCost := d }

theorem RestockRecord.format_faithful : RestockRecord.format.Faithful :=
  Format.around_faithful Format.amount_faithful RestockRecord.reads (fun _ => rfl) fun _ => nofun

end Priced

end Wire

theorem Truck.reads (p : Passage) (t : Truck) : Truck.decode.Reads p t.toJson t := by
  refine reads_record _
    [.always truckIdField (reads_text t.truckId),
      .always plateNumberField (reads_text t.plateNumber),
      .always driverNameField (reads_text t.driverName),
      .always contactInfoField (reads_text t.contactInfo),
      .always locationField (reads_text t.location)]
    rfl (by decide) fun fs ⟨h₁, h₂, h₃, h₄, h₅⟩ => ?_
  simp only [bind_ok]
  exact ⟨_, h₁, _, h₂, _, h₃, _, h₄, _, h₅, rfl⟩

theorem ManifestLine.reads {p : Passage} (l : ManifestLine) {d : Decimal}
    (h : Decode.amount.Reads p (.float l.unitCost.toFloat) d) :
    ManifestLine.decode.Reads p l.toJson { l with unitCost := d } := by
  refine reads_record _
    [.always skuField (reads_text l.sku), .always nameField (reads_text l.name),
      .always aisleField (reads_aisle l.aisle), .always quantityField (reads_count l.quantity),
      .always unitCostField h, .always madeField (reads_date l.made),
      .always expiresField (reads_date l.expires)]
    rfl (by decide) fun fs ⟨h₁, h₂, h₃, h₄, h₅, h₆, h₇⟩ => ?_
  simp only [bind_ok]
  exact ⟨_, h₁, _, h₂, _, h₃, _, h₄, _, h₅, _, h₆, _, h₇, rfl⟩

def ManifestLine.format : Format ManifestLine :=
  .around ManifestLine.toJson ManifestLine.decode .amount ManifestLine.unitCost
    fun l d => { l with unitCost := d }

theorem ManifestLine.format_faithful : ManifestLine.format.Faithful :=
  Format.around_faithful Format.amount_faithful ManifestLine.reads (fun _ => rfl) fun _ => nofun

theorem Batch.reads {p : Passage} (b : Batch) {lines : List ManifestLine}
    (h : (Decode.sequence ManifestLine.decode).Reads p
      (.sequence (b.manifest.map ManifestLine.toJson)) lines) :
    Batch.decode.Reads p b.toJson { b with manifest := lines } := by
  refine reads_record _
    [.always supplierIdField (reads_text b.supplierId),
      .always supplierNameField (reads_text b.supplierName),
      .always truckField (Truck.reads p b.truck), .always manifestField h]
    rfl (by decide) fun fs ⟨h₁, h₂, h₃, h₄⟩ => ?_
  simp only [bind_ok]
  exact ⟨_, h₁, _, h₂, _, h₃, _, h₄, rfl⟩

def Batch.format : Format Batch :=
  .around Batch.toJson Batch.decode ManifestLine.format.list Batch.manifest
    fun b lines => { b with manifest := lines }

theorem Batch.format_faithful : Batch.format.Faithful :=
  Format.around_faithful ManifestLine.format_faithful.list Batch.reads (fun _ => rfl) fun _ => nofun

end Larder
