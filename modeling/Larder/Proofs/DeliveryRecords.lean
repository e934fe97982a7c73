import Larder.Fridge
import Larder.Proofs.RenamedRecords
import Larder.Proofs.SupplierOperations

namespace Larder

open Json (Value Fields RecordField Slot)

namespace Wire

/-- The key in the record of a restock for the one in the record of an order. The keys of the two
amounts change places, so that different keys stay different; a record of an order has no use for
those of the other amount. -/
def restockKey (key : String) : String :=
  if key = "TotalPrice" then "TotalCost"
  else if key = "TotalCost" then "TotalPrice"
  else if key = "total_price" then "total_cost"
  else if key = "total_cost" then "total_price"
  else key

theorem restockKey_involutive : Function.Involutive restockKey := by
  intro key
  by_cases h₁ : key = "TotalPrice"
  · subst h₁
    rfl
  by_cases h₂ : key = "TotalCost"
  · subst h₂
    rfl
  by_cases h₃ : key = "total_price"
  · subst h₃
    rfl
  by_cases h₄ : key = "total_cost"
  · subst h₄
    rfl
  simp [restockKey, h₁, h₂, h₃, h₄]

/-- The same as a record of a restock. -/
def OrderRecord.asRestock (r : OrderRecord) : RestockRecord :=
  ⟨r.orderId, r.status, r.totalPrice, r.createdAt⟩

theorem restockRecord_follows {v w : Value} (h : v.Renamed restockKey w) :
    Follows OrderRecord.asRestock (OrderRecord.decode.ofValue v)
      (RestockRecord.decode.ofValue w) := by
  refine Json.record_follows restockKey_involutive.injective (by decide) ?_ h
  intro c d isCut hnode
  refine (Json.get_follows hnode OrderRecord.orderIdField).bind fun orderId => ?_
  refine (Json.get_follows hnode OrderRecord.statusField).bind fun status => ?_
  refine (Json.get_follows hnode OrderRecord.totalPriceField).bind fun total => ?_
  refine (Json.get_follows hnode OrderRecord.createdAtField).bind fun createdAt => ?_
  exact Follows.ok OrderRecord.asRestock ⟨orderId, status, total, createdAt⟩

/-- The same for a record that may be absent. -/
theorem optional_follows {v w : Value} (h : v.Renamed restockKey w) :
    Follows (Option.map OrderRecord.asRestock)
      ((Json.Decode.optional OrderRecord.decode).ofValue v)
      ((Json.Decode.optional RestockRecord.decode).ofValue w) := by
  have hsome : Follows (Option.map OrderRecord.asRestock)
      ((OrderRecord.decode.ofValue v).map some) ((RestockRecord.decode.ofValue w).map some) :=
    (restockRecord_follows h).both_map fun _ => rfl
  cases h with
  | object h => exact hsome
  | @other v h =>
    cases v with
    | null => exact .ok _ none
    | _ => exact hsome

/-- The member of an envelope is the same, but that the record in it has other keys. -/
inductive RenamedMember : String × Value → String × Value → Prop where
  | data {v w : Value} (h : v.Renamed restockKey w) : RenamedMember ("data", v) ("data", w)
  | other {m : String × Value} (h : m.1 ≠ "data") : RenamedMember m m

/-- The envelope is the same, but that the record in it has other keys. -/
inductive RenamedBody : Value → Value → Prop where
  | object {ms ns : List (String × Value)} (h : List.Forall₂ RenamedMember ms ns) :
      RenamedBody (.object ms) (.object ns)
  | sequence {status message v w : Value} {rest : List Value} (h : v.Renamed restockKey w) :
      RenamedBody (.sequence (status :: message :: v :: rest))
        (.sequence (status :: message :: w :: rest))
  /-- There is no place for a record. -/
  | short {vs : List Value} (h : vs.length < 3) : RenamedBody (.sequence vs) (.sequence vs)
  | other {v : Value} (ho : ∀ ms, v ≠ .object ms) (hs : ∀ vs, v ≠ .sequence vs) : RenamedBody v v

/-- The same for what an envelope has got. -/
inductive RenamedContent : String × Json.Node → String × Json.Node → Prop where
  | data {v w : Value} (h : v.Renamed restockKey w) :
      RenamedContent ("data", .ofValue v) ("data", .ofValue w)
  | other {p : String × Json.Node} (h : p.1 ≠ "data") : RenamedContent p p

namespace Envelope

variable {α β : Type}

/-- The same envelope with another content. -/
def map (g : α → β) (e : Envelope α) : Envelope β := ⟨e.status, e.message, e.data.map g⟩

def slots (d : Json.Decoder α) : List Slot :=
  [statusField.slot, messageField.slot, (dataField d).slot]

def build (d : Json.Decoder α) (fs : Fields) : Except Json.Fault (Envelope α) := do
  return ⟨← fs.get statusField, ← fs.get messageField, ← fs.get (dataField d)⟩

theorem decode_eq (d : Json.Decoder α) : decode d = Json.record "ApiResponse" (slots d) (build d) :=
  rfl

end Envelope

theorem status_ne_data : ¬ "status" = "data" := by decide

theorem message_ne_data : ¬ "message" = "data" := by decide

section Envelope

variable {c d : Json.Contents} {ms ns : List (String × Value)} {isCut : Bool}

theorem node?_other (h : List.Forall₂ RenamedContent c d) {name : String} (hn : name ≠ "data") :
    c.node? name = d.node? name := by
  induction h with
  | nil => rfl
  | @cons p q c d hp _ ih =>
    cases hp with
    | data => simpa [Json.Contents.node?, hn.symm] using ih
    | other h =>
      by_cases hp : p.1 = name
      · simp [Json.Contents.node?, hp]
      · simpa [Json.Contents.node?, hp] using ih

theorem node?_data (h : List.Forall₂ RenamedContent c d) :
    (c.node? "data" = none ∧ d.node? "data" = none) ∨ ∃ v w, v.Renamed restockKey w ∧
      c.node? "data" = some (.ofValue v) ∧ d.node? "data" = some (.ofValue w) := by
  induction h with
  | nil => exact Or.inl ⟨rfl, rfl⟩
  | @cons p q c d hp _ ih =>
    cases hp with
    | @data v w hvw => exact Or.inr ⟨v, w, hvw, rfl, rfl⟩
    | other h => simpa [Json.Contents.node?, h] using ih

theorem names_eq (h : List.Forall₂ RenamedContent c d) : c.map Prod.fst = d.map Prod.fst := by
  induction h with
  | nil => rfl
  | cons hp _ ih =>
    cases hp with
    | data => simp [ih]
    | other => simp [ih]

/-- The envelope of a record of a restock is made of what the envelope of one of an order is. -/
theorem envelope_build_follows (h : List.Forall₂ RenamedContent c d) :
    Follows (Envelope.map OrderRecord.asRestock)
      (Envelope.build OrderRecord.decode ⟨.value, c, isCut⟩)
      (Envelope.build RestockRecord.decode ⟨.value, d, isCut⟩) := by
  have hother : ∀ {α : Type} (f : RecordField α), f.name ≠ "data" →
      Follows id (Fields.get ⟨.value, c, isCut⟩ f) (Fields.get ⟨.value, d, isCut⟩ f) := by
    intro α f hf
    simp only [Fields.get, node?_other h hf]
    exact .refl _
  have hdata : Follows (Option.map OrderRecord.asRestock)
      (Fields.get ⟨.value, c, isCut⟩ (Envelope.dataField OrderRecord.decode))
      (Fields.get ⟨.value, d, isCut⟩ (Envelope.dataField RestockRecord.decode)) := by
    rcases node?_data h with ⟨hc, hd⟩ | ⟨v, w, hvw, hc, hd⟩
    · simp only [Fields.get, Envelope.dataField, hc, hd]
      cases isCut with
      | true => exact .errors _ _ _
      | false => exact .ok _ none
    · simp only [Fields.get, Envelope.dataField, hc, hd]
      exact optional_follows hvw
  refine (hother Envelope.statusField status_ne_data).bind fun status => ?_
  refine (hother Envelope.messageField message_ne_data).bind fun message => ?_
  refine hdata.bind fun record => ?_
  exact Follows.ok (Envelope.map OrderRecord.asRestock) ⟨status, message, record⟩

theorem find?_other {α : Type} (d : Json.Decoder α) {key : String} (h : key ≠ "data") :
    (Envelope.slots d).find? (·.hasName key) =
      [Envelope.statusField.slot, Envelope.messageField.slot].find? (·.hasName key) := by
  have hdata : (Envelope.dataField d).slot.hasName key = false := by
    simp [Slot.hasName, Json.RecordField.slot, Envelope.dataField, h]
  simp [Envelope.slots, List.find?_cons, hdata]

theorem takes_data {v w : Value} (h : v.Renamed restockKey w) :
    (Envelope.dataField RestockRecord.decode).slot.Takes w ↔
      (Envelope.dataField OrderRecord.decode).slot.Takes v := by
  rw [RecordField.takes_iff, RecordField.takes_iff]
  exact (optional_follows h).exists_iff

/-- The fields of both envelopes take their members. -/
theorem takes_member {m n : String × Value} (h : RenamedMember m n) :
    (∀ s, (Envelope.slots RestockRecord.decode).find? (·.hasName n.1) = some s → s.Takes n.2) ↔
      ∀ s, (Envelope.slots OrderRecord.decode).find? (·.hasName m.1) = some s → s.Takes m.2 := by
  cases h with
  | data h =>
    have hfind : ∀ {α : Type} (d : Json.Decoder α), (Envelope.slots d).find? (·.hasName "data") =
      some (Envelope.dataField d).slot := fun _ => rfl
    simp only [hfind, Option.some.injEq, forall_eq', takes_data h]
  | other h => rw [find?_other _ h, find?_other _ h]

theorem taken_members (h : List.Forall₂ RenamedMember ms ns) :
    List.Forall₂ RenamedContent (Json.taken (Envelope.slots OrderRecord.decode) ms)
      (Json.taken (Envelope.slots RestockRecord.decode) ns) := by
  induction h with
  | nil => exact .nil
  | @cons m n ms ns hm _ ih =>
    cases hm with
    | data hvw =>
      rw [Json.taken_cons_some (s := (Envelope.dataField OrderRecord.decode).slot) rfl,
        Json.taken_cons_some (s := (Envelope.dataField RestockRecord.decode).slot) rfl]
      exact .cons (.data hvw) ih
    | other hm =>
      have hfind := find?_other OrderRecord.decode hm
      have hfind' := find?_other RestockRecord.decode hm
      cases hs : [Envelope.statusField.slot, Envelope.messageField.slot].find? (·.hasName m.1) with
      | none =>
        rw [Json.taken_cons_none (hfind.trans hs), Json.taken_cons_none (hfind'.trans hs)]
        exact ih
      | some s =>
        rw [Json.taken_cons_some (hfind.trans hs), Json.taken_cons_some (hfind'.trans hs)]
        refine .cons (.other ?_) ih
        have hname := List.mem_of_find?_eq_some hs
        simp only [List.mem_cons, List.not_mem_nil, or_false] at hname
        rcases hname with rfl | rfl
        · exact status_ne_data
        · exact message_ne_data

theorem suits_members (h : List.Forall₂ RenamedMember ms ns) :
    Json.Suits (Envelope.slots RestockRecord.decode) ns ↔
      Json.Suits (Envelope.slots OrderRecord.decode) ms := by
  have htakes : (∀ n ∈ ns, ∀ s,
        (Envelope.slots RestockRecord.decode).find? (·.hasName n.1) = some s → s.Takes n.2) ↔
      ∀ m ∈ ms, ∀ s,
        (Envelope.slots OrderRecord.decode).find? (·.hasName m.1) = some s → s.Takes m.2 := by
    induction h with
    | nil => simp
    | cons hm _ ih => rw [List.forall_mem_cons, List.forall_mem_cons, takes_member hm, ih]
  have hnames := names_eq (taken_members h)
  exact ⟨fun hs => ⟨htakes.mp hs.takes, hnames ▸ hs.once⟩,
    fun hs => ⟨htakes.mpr hs.takes, hnames ▸ hs.once⟩⟩

theorem suitsItems_data {status message v w : Value} {rest : List Value}
    (h : v.Renamed restockKey w) :
    Json.SuitsItems (Envelope.slots RestockRecord.decode) (status :: message :: w :: rest) ↔
      Json.SuitsItems (Envelope.slots OrderRecord.decode) (status :: message :: v :: rest) := by
  have htakes : (∀ p ∈ (Envelope.slots RestockRecord.decode).zip (status :: message :: w :: rest),
      p.1.Takes p.2) ↔ ∀ p ∈ (Envelope.slots OrderRecord.decode).zip
        (status :: message :: v :: rest), p.1.Takes p.2 := by
    simp only [Envelope.slots, List.zip_cons_cons, List.zip_nil_left, List.forall_mem_cons,
      takes_data h]
  exact ⟨fun hs => ⟨htakes.mp hs.takes, by simp [Envelope.slots], hs.length_le⟩,
    fun hs => ⟨htakes.mpr hs.takes, by simp [Envelope.slots], hs.length_le⟩⟩

/-- Fewer than three items are no envelope. -/
theorem not_suitsItems {α : Type} {d : Json.Decoder α} {vs : List Value} (h : vs.length < 3) :
    ¬ Json.SuitsItems (Envelope.slots d) vs := by
  intro hs
  have hdata : (Envelope.dataField d).slot ∈ (Envelope.slots d).drop vs.length := by
    match vs, h with
    | [], _ => simp [Envelope.slots]
    | [_], _ => simp [Envelope.slots]
    | [_, _], _ => simp [Envelope.slots]
  cases hs.cut _ hdata

/-- No field of an envelope has to be there. -/
theorem mayBeMissing {α : Type} (d : Json.Decoder α) :
    ∀ s ∈ Envelope.slots d, s.mayBeMissing = true := by
  intro s hs
  simp only [Envelope.slots, List.mem_cons, List.not_mem_nil, or_false] at hs
  rcases hs with rfl | rfl | rfl <;> rfl

/-- The envelope of a record of a restock follows the envelope of a record of an order. -/
theorem envelope_follows {v w : Value} (h : RenamedBody v w) :
    Follows (Envelope.map OrderRecord.asRestock)
      ((Envelope.decode OrderRecord.decode).ofValue v)
      ((Envelope.decode RestockRecord.decode).ofValue w) := by
  simp only [Envelope.decode_eq]
  cases h with
  | object h =>
    intro e
    simp only [Json.record_object_ok_iff (mayBeMissing _), suits_members h]
    exact Follows.and_iff (fun _ => envelope_build_follows (taken_members h)) e
  | sequence h =>
    intro e
    simp only [Json.record_sequence_ok_iff, suitsItems_data h]
    refine Follows.and_iff (fun _ => envelope_build_follows ?_) e
    exact .cons (.other status_ne_data) (.cons (.other message_ne_data) (.cons (.data h) .nil))
  | short h =>
    intro e
    simp only [Json.record_sequence_ok_iff, not_suitsItems h, false_and, exists_false]
  | other ho hs =>
    cases v with
    | object ms => exact absurd rfl (ho ms)
    | sequence vs => exact absurd rfl (hs vs)
    | _ => exact .errors _ _ _

end Envelope

end Wire

namespace Response

/-- The responses are the same, but that the record in the second one has other keys. -/
structure Renamed (y z : Response) : Prop where
  status : z.status = y.status
  body : Wire.RenamedBody y.body z.body

theorem content_ok_iff {α : Type} {d : Json.Decoder α} {y : Response} {a : α} :
    y.content d = .ok a ↔ y.isSuccess = true ∧ d.ofValue y.body = .ok a :=
  ⟨content_ok, fun h => content_of_ok h.1 h.2⟩

theorem Renamed.isSuccess {y z : Response} (h : y.Renamed z) : z.isSuccess = y.isSuccess := by
  simp only [Response.isSuccess, h.status]

theorem Renamed.content {y z : Response} (h : y.Renamed z) :
    Follows (Wire.Envelope.map Wire.OrderRecord.asRestock)
      (y.content (Wire.Envelope.decode Wire.OrderRecord.decode))
      (z.content (Wire.Envelope.decode Wire.RestockRecord.decode)) := by
  intro e
  simp only [content_ok_iff, h.isSuccess]
  exact Follows.and_iff (fun _ => Wire.envelope_follows h.body) e

/-- A restock is told of a record just when an order is. To an order it means no record that there
is nothing at all, and to a restock it is a failure. -/
theorem Renamed.reported_iff {y z : Response} (h : y.Renamed z) (b : Wire.RestockRecord) :
    Supplier.reported z = .ok (some b) ↔
      ∃ a, Fridge.lastRecord y = .ok (some a) ∧ a.asRestock = b := by
  by_cases hfound : y.isNotFound = true
  · have hstatus : y.status = 404 := by simpa [isNotFound] using hfound
    have hfailed : z.isSuccess = false := by simp [Response.isSuccess, h.status, hstatus]
    have hnone : ∀ e, z.content (Wire.Envelope.decode Wire.RestockRecord.decode) ≠ .ok e := by
      intro e he
      rw [(content_ok he).1] at hfailed
      cases hfailed
    have hreported : Supplier.reported z ≠ .ok (some b) := by
      intro hb
      obtain ⟨e, he, _⟩ := (Follows.map _ _ _).mp hb
      exact hnone e he
    simp [hreported, Fridge.lastRecord, hfound]
  · have hlast : Fridge.lastRecord y =
        (y.content (Wire.Envelope.decode Wire.OrderRecord.decode)).map Wire.Envelope.data := by
      simp [Fridge.lastRecord, hfound]
    have hfollows : Follows (Option.map Wire.OrderRecord.asRestock) (Fridge.lastRecord y)
        (Supplier.reported z) := by
      rw [hlast]
      exact h.content.both_map fun _ => rfl
    rw [hfollows]
    constructor
    · rintro ⟨o, ho, hb⟩
      obtain ⟨a, rfl, hab⟩ := Option.map_eq_some_iff.mp hb
      exact ⟨a, ho, hab⟩
    · rintro ⟨a, ha, rfl⟩
      exact ⟨some a, ha, rfl⟩

end Response

end Larder
