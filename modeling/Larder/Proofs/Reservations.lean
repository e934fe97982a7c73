import Larder.Proofs.DeliveryRecords
import Larder.Proofs.MergedCarts
import Larder.Proofs.Tables

namespace Larder

/-- The response is a success that carries this reservation, with an id. -/
def Response.Previews (x : Response) (p : Wire.Preview) : Prop :=
  x.isSuccess = true ∧ Wire.Preview.decode.ofValue x.body = .ok p ∧ p.orderId ≠ ""

namespace Fridge

/-- The request to reserve these lines. -/
def previewRequest (lines : List Wire.OrderLine) : Request where
  method := "POST"
  path := "/api/client/order/preview"
  body := some (.object [("items", .sequence (lines.map fun l =>
    .object [("quantity", .ofNat l.quantity.toNat), ("sku", .text l.sku)]))])

/-- The entries of an echo that name a SKU and some of it. -/
def echoed (p : Wire.Preview) : List (String × UInt32) :=
  p.items.entries.filter fun (sku, quantity) => sku ≠ "" ∧ 0 < quantity

/-- What is reserved: the echo as far as it counts, or else the lines and nothing but them. -/
structure Reserves (lines : List Wire.OrderLine) (p : Wire.Preview) (items : Wire.Quantities) :
    Prop where
  echoed : echoed p ≠ [] → items.entries = echoed p
  asked : Fridge.echoed p = [] → items.entries.Perm (lines.map fun l => (l.sku, l.quantity))

variable {f f' : Fridge} {cart lines : List Wire.OrderLine} {e : Ended Unit}

theorem previewRequest_eq (lines : List Wire.OrderLine) : previewRequest lines =
    (Request.post previewPath).withBody (Wire.PreviewRequest.mk lines).toJson := by
  have hline : ∀ l : Wire.OrderLine, l.toJson =
      .object [("quantity", .ofNat l.quantity.toNat), ("sku", .text l.sku)] := by
    intro l
    have hne : "quantity" ≠ "sku" := by decide
    have hlt : "quantity" < "sku" := by decide
    simp only [Wire.OrderLine.toJson, Json.Value.ofMembers, sortByKey, List.foldl_cons,
      List.foldl_nil, setKey, if_neg hne, if_pos hlt]
  simp only [previewRequest, ← hline]
  rfl

/-- Lines of different SKUs all have their entry. -/
theorem requested_perm (h : (lines.map Wire.OrderLine.sku).Nodup) :
    (requested lines).entries.Perm (lines.map fun l => (l.sku, l.quantity)) := by
  apply sortByKey_perm
  rw [List.map_map]
  exact h

theorem reservedItems_reserves (h : (lines.map Wire.OrderLine.sku).Nodup) (p : Wire.Preview) :
    Reserves lines p (reservedItems lines p) := by
  have hentries : (p.items.filter fun sku quantity => !sku.isEmpty && 0 < quantity).entries =
      echoed p := by
    refine List.filter_congr fun entry _ => ?_
    rw [Bool.eq_iff_iff]
    simp
  unfold reservedItems
  refine ⟨fun hsome => ?_, fun hnone => ?_⟩
  · rw [← hentries] at hsome
    rw [if_neg (by simpa [Table.isEmpty] using hsome), hentries]
  · rw [← hentries] at hnone
    rw [if_pos (by simpa [Table.isEmpty] using hnone)]
    exact requested_perm h

theorem previewErrand_request (hcart : Cart.prepare cart = .ok lines) :
    (previewErrand cart).request .idle = .ok (previewRequest lines) := by
  rw [previewRequest_eq]
  simp only [previewErrand, hcart]
  rfl

theorem previewErrand_settle_iff (hcart : Cart.prepare cart = .ok lines) (x : Response)
    (order : Order) : (previewErrand cart).settle x .idle = (.ok (), order) ↔
      ∃ p, x.Previews p ∧ order = .reserved ⟨p.orderId, reservedItems lines p⟩ := by
  constructor
  · intro h
    obtain ⟨_, hlines, h⟩ := Order.Step.given_ok h
    cases hcart.symm.trans hlines
    obtain ⟨p, hp, ho⟩ := Order.Step.given_ok h
    obtain ⟨hs, hd⟩ := Response.content_ok hp
    obtain ⟨-, hid, rfl⟩ := Order.reserve_cases ho
    exact ⟨p, ⟨hs, hd, hid⟩, rfl⟩
  · rintro ⟨p, ⟨hs, hd, hid⟩, rfl⟩
    have hreserve : Order.idle.reserve p.orderId (reservedItems lines p) =
        (.ok (), .reserved ⟨p.orderId, reservedItems lines p⟩) := by
      have hempty : p.orderId.isEmpty = false := by simpa using hid
      simp only [Order.reserve, hempty]
      rfl
    simp only [previewErrand, hcart, Response.content_of_ok hs hd, Order.Step.given]
    exact hreserve

/-- Every request for a reservation is the one for these lines. -/
theorem preview_requests (hcart : Cart.prepare cart = .ok lines)
    (h : (preview cart).run f = (e, f')) : ∃ requests,
      f'.line.sent = f.line.sent ++ requests ∧ ∀ r ∈ requests, r.path = previewPath →
        ∃ token, r = (previewRequest lines).withBearer token := by
  have hleaves : (preview cart).Leaves (Conducts fun r => r.path = previewPath →
      ∃ token, r = (previewRequest lines).withBearer token) := by
    rw [preview_eq]
    refine Errand.leaves ?_ ?_
    · intro token hp
      exact absurd hp (show ¬ Account.refreshPath = previewPath by decide)
    · intro o q hq token _
      simp only [previewErrand, hcart, bind_ok] at hq
      obtain ⟨_, _, _, hlines, hq⟩ := hq
      cases hlines
      cases hq
      exact ⟨token, by rw [previewRequest_eq]⟩
  obtain ⟨xs, hxs⟩ := hleaves f e f' h
  exact ⟨_, hxs.conducted.sent_eq, by simpa using hxs.requests⟩

/-- An errand that is answered with a response that settles it is done. -/
theorem Errand.call_answered {α : Type} {r : Errand α} {q : Request} {x : Response}
    {account : Account} {a : α} {order : Order} (hq : r.request f.order = .ok q)
    (hx : (Account.authorizedCall q).run f.account = (.done x, account))
    (hs : r.settle x f.order = (.ok a, order)) :
    r.call.run f = (.done a, { f with account, order }) := by
  have hcall : (Fridge.call q).run f = (.done x, { f with account }) := by
    obtain ⟨after, ha, hf⟩ := onAccount_cases (Prod.eta ((Fridge.call q).run f)).symm
    rw [hx] at ha
    obtain ⟨he, rfl⟩ := Prod.mk.inj ha
    exact Prod.ext he.symm hf
  have hsettled : (advance (r.settle x)).run { f with account } =
      (.done a, { f with account, order }) := advance_ok hs
  unfold Errand.call
  rw [Call.run_view_bind, hq, Call.ofExcept_ok_bind, Call.bind_done hcall, hsettled]

/-- An idle order and a cart with something in it: the preview is done when the service has answered
with a reservation that has an id, and that reservation is what the order becomes. -/
theorem preview_reserves (hidle : f.order = .idle) (hcart : Cart.prepare cart = .ok lines)
    (h : (preview cart).run f = (e, f')) :
    (∃ requests, f'.line.sent = f.line.sent ++ requests ∧
      ∀ r ∈ requests, r.path = previewPath →
        ∃ token, r = (previewRequest lines).withBearer token) ∧
    (e = .done () ↔ ∃ x account p, x.Previews p ∧
      (Account.authorizedCall (previewRequest lines)).run f.account = (.done x, account)) ∧
    ∀ x account p, x.Previews p →
      (Account.authorizedCall (previewRequest lines)).run f.account = (.done x, account) →
      ∃ items, f' = { f with account, order := .reserved ⟨p.orderId, items⟩ } ∧
        Reserves lines p items := by
  have hrequest : (previewErrand cart).request f.order = .ok (previewRequest lines) := by
    rw [hidle, previewErrand_request hcart]
  rw [preview_eq] at h
  have hanswered : ∀ x account p, x.Previews p →
      (Account.authorizedCall (previewRequest lines)).run f.account = (.done x, account) →
      (e, f') = (.done (),
        { f with account, order := .reserved ⟨p.orderId, reservedItems lines p⟩ }) := by
    intro x account p hp hx
    have hsettle : (previewErrand cart).settle x f.order =
        (.ok (), .reserved ⟨p.orderId, reservedItems lines p⟩) := by
      rw [hidle, previewErrand_settle_iff hcart]
      exact ⟨p, hp, rfl⟩
    exact h.symm.trans (Errand.call_answered hrequest hx hsettle)
  refine ⟨preview_requests hcart (preview_eq cart ▸ h), ⟨?_, ?_⟩, ?_⟩
  · rintro rfl
    cases Errand.call_cases h with
    | settled hr hx hs =>
      rw [hrequest] at hr
      cases hr
      rw [hidle, previewErrand_settle_iff hcart] at hs
      obtain ⟨p, hp, -⟩ := hs
      exact ⟨_, _, p, hp, hx⟩
  · rintro ⟨x, account, p, hp, hx⟩
    cases hanswered x account p hp hx
    rfl
  · intro x account p hp hx
    cases hanswered x account p hp hx
    exact ⟨_, rfl, reservedItems_reserves (Cart.prepare_orderly hcart).distinct p⟩

/-- A device with a session and no order, whose service answers with an id of its own spelling and
an echo that comes to nothing. -/
def shopping : Fridge where
  settings := .default
  account := {
    line := {
      replies := [⟨⟨200, .object [("OrderId", .text "o1"),
        ("items", .object [("EGGS", .ofNat 0)])]⟩, 0, false⟩] }
    disk := ⟨[(["cache"], .directory)]⟩
    vault := .ofDirectory ⟨["cache"]⟩
    refreshInterval := 240000
    session := some ⟨"fridge", some "a", some "r", some 0⟩ }
  order := .idle

theorem preview_reserves_shopping : ∃ e f' items,
    (preview [⟨"MILK ", 1⟩, ⟨"EGGS", 2⟩, ⟨"MILK", 1⟩]).run shopping = (e, f') ∧
    e = .done () ∧ f'.order = .reserved ⟨"o1", items⟩ ∧
    items.entries.Perm [("MILK", 2), ("EGGS", 2)] := by
  have hcart : Cart.prepare [⟨"MILK ", 1⟩, ⟨"EGGS", 2⟩, ⟨"MILK", 1⟩] =
      .ok [⟨"MILK", 2⟩, ⟨"EGGS", 2⟩] := by decide +kernel
  let x : Response := ⟨200, .object [("OrderId", .text "o1"),
    ("items", .object [("EGGS", .ofNat 0)])]⟩
  let p : Wire.Preview := ⟨"o1", .ofList [("EGGS", 0)], none, none⟩
  obtain ⟨account, hx⟩ : ∃ account,
      (Account.authorizedCall (previewRequest [⟨"MILK", 2⟩, ⟨"EGGS", 2⟩])).run shopping.account =
        (.done x, account) := ⟨_, rfl⟩
  obtain ⟨e, f', h⟩ : ∃ e f', (preview [⟨"MILK ", 1⟩, ⟨"EGGS", 2⟩, ⟨"MILK", 1⟩]).run shopping =
      (e, f') := ⟨_, _, rfl⟩
  have hp : x.Previews p := ⟨by decide, by decide +kernel, by decide⟩
  have hnone : echoed p = [] := by decide +kernel
  obtain ⟨-, hdone, hreserved⟩ := preview_reserves (f := shopping) rfl hcart h
  obtain ⟨items, hf, hitems⟩ := hreserved x account p hp hx
  exact ⟨e, f', items, h, hdone.mpr ⟨x, account, p, hp, hx⟩, by rw [hf], hitems.asked hnone⟩

end Fridge

end Larder
