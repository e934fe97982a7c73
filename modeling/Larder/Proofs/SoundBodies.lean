import Larder.Proofs.Conduct
import Larder.Proofs.Trimming
import Mathlib.Data.List.Nodup

namespace Larder

namespace Cart

open Wire (OrderLine)

/-- What is sent of a cart: some lines, one for each SKU, all of them trimmed and counting. -/
structure Orderly (lines : List OrderLine) : Prop where
  some : lines ≠ []
  distinct : (lines.map OrderLine.sku).Nodup
  trimmed : ∀ l ∈ lines, Text.trim l.sku = l.sku
  counts : ∀ l ∈ lines, l.Counts

theorem countedLine?_trimmed {l l' : OrderLine} (h : countedLine? l = some l') :
    Text.trim l'.sku = l'.sku := by
  simp only [countedLine?] at h
  split at h
  · cases h
  · cases h
    exact Text.trim_trim l.sku

/-- A SKU that is new is put behind the others. -/
theorem skus_addLine (sku : String) (quantity : UInt32) (lines : List OrderLine) :
    (addLine sku quantity lines).map OrderLine.sku =
      if sku ∈ lines.map OrderLine.sku then lines.map OrderLine.sku
      else lines.map OrderLine.sku ++ [sku] := by
  induction lines with
  | nil => rfl
  | cons first rest ih =>
    by_cases hs : first.sku = sku
    · simp [addLine, hs]
    · have hne : sku ≠ first.sku := fun h => hs h.symm
      rw [addLine, if_neg hs, List.map_cons, ih]
      by_cases hm : sku ∈ rest.map OrderLine.sku
      · simp [hm]
      · simp [hm, hne]

theorem skus_merge {P : List String → Prop} {lines : List OrderLine} (hnil : P [])
    (hadd : ∀ l ∈ lines, ∀ skus, P skus → l.sku ∉ skus → P (skus ++ [l.sku])) :
    P ((merge lines).map OrderLine.sku) := by
  refine List.foldlRecOn (motive := fun merged : List OrderLine => P (merged.map OrderLine.sku))
    lines _ hnil ?_
  intro merged hm l hl
  rw [skus_addLine]
  split
  · exact hm
  · rename_i hn
    exact hadd l hl _ hm hn

theorem prepare_orderly {cart lines : List OrderLine} (h : prepare cart = .ok lines) :
    Orderly lines := by
  have hcounts := prepare_counts h
  obtain ⟨hne, rfl⟩ := prepare_ok h
  refine ⟨hne, ?_, ?_, hcounts⟩
  · refine skus_merge List.nodup_nil ?_
    intro l _ skus hs hn
    exact List.Nodup.append hs (List.nodup_singleton l.sku) (List.disjoint_singleton.mpr hn)
  · have htrimmed : ∀ sku ∈ (merge (cart.filterMap countedLine?)).map OrderLine.sku,
        Text.trim sku = sku := by
      refine skus_merge (P := fun skus => ∀ sku ∈ skus, Text.trim sku = sku) (by simp) ?_
      intro l hl skus hs _
      obtain ⟨m, _, hm⟩ := List.mem_filterMap.mp hl
      rw [List.forall_mem_append]
      exact ⟨hs, by simpa using countedLine?_trimmed hm⟩
    intro l hl
    exact htrimmed l.sku (List.mem_map_of_mem hl)

end Cart

/-- The item names what it is, and there is some of it, at a price that is not negative. -/
structure Wire.RestockItem.Counts (i : Wire.RestockItem) : Prop where
  sku : Text.isBlankText i.sku = false
  name : Text.isBlankText i.name = false
  quantity : 1 ≤ i.quantity.toNat
  unitCost : i.unitCost.isNegative = false

namespace Batch

theorem item_counts {l : ManifestLine} (h : l.complaint? = none) : l.item.Counts := by
  unfold ManifestLine.complaint? at h
  split_ifs at h with hsku hname hquantity hcost
  have hpos : l.quantity.toNat ≠ 0 := fun h0 => hquantity (UInt32.toNat_inj.mp h0)
  exact {
    sku := by simpa [ManifestLine.item] using hsku
    name := by simpa [ManifestLine.item] using hname
    quantity := Nat.one_le_iff_ne_zero.mpr hpos
    unitCost := by simpa [ManifestLine.item] using hcost }

theorem validateLines_ok {number : Nat} {lines : List ManifestLine}
    (h : validateLines number lines = .ok ()) : ∀ l ∈ lines, l.complaint? = none := by
  induction lines generalizing number with
  | nil => simp
  | cons first rest ih =>
    simp only [validateLines, bind_ok] at h
    obtain ⟨u, hfirst, hrest⟩ := h
    rw [List.forall_mem_cons]
    refine ⟨?_, ih hrest⟩
    unfold ManifestLine.validate at hfirst
    split at hfirst
    · assumption
    · cases hfirst

theorem validate_ok {b : Batch} (h : b.validate = .ok ()) :
    b.manifest ≠ [] ∧ ∀ l ∈ b.manifest, l.complaint? = none := by
  simp only [validate, bind_ok] at h
  obtain ⟨_, _, _, _, h⟩ := h
  split at h
  · cases h
  · rename_i hne
    simp only [bind_ok] at h
    obtain ⟨_, hlines, _⟩ := h
    exact ⟨by simpa using hne, validateLines_ok hlines⟩

theorem request_ok {b : Batch} {r : Wire.RestockRequest} (h : b.request = .ok r) :
    b.validate = .ok () ∧ r.items = b.manifest.map ManifestLine.item := by
  simp only [request, bind_ok] at h
  obtain ⟨u, hvalid, h⟩ := h
  cases h
  exact ⟨hvalid, rfl⟩

theorem request_items {b : Batch} {r : Wire.RestockRequest} (h : b.request = .ok r) :
    r.items ≠ [] ∧ ∀ i ∈ r.items, i.Counts := by
  obtain ⟨hvalid, hitems⟩ := request_ok h
  obtain ⟨hne, hlines⟩ := validate_ok hvalid
  rw [hitems]
  refine ⟨by simpa using hne, ?_⟩
  intro i hi
  obtain ⟨l, hl, rfl⟩ := List.mem_map.mp hi
  exact item_counts (hlines l hl)

end Batch

/-- The body asks for an orderly cart. -/
def AsksForCart (body : Json.Value) : Prop :=
  ∃ lines, body = (Wire.PreviewRequest.mk lines).toJson ∧ Cart.Orderly lines

/-- The body names an order. -/
def NamesOrder (body : Json.Value) : Prop :=
  ∃ orderId, body = (Wire.OrderRef.mk orderId).toJson ∧ orderId ≠ ""

/-- The body registers a device that it names, with a password. -/
def RegistersDevice (body : Json.Value) : Prop :=
  ∃ r : Wire.Registration, body = r.toJson ∧ Text.isBlankText r.deviceId = false ∧ r.password ≠ ""

/-- The body logs a device in that it names, with a password. -/
def LogsDeviceIn (body : Json.Value) : Prop :=
  ∃ l : Wire.Login, body = l.toJson ∧ Text.isBlankText l.deviceId = false ∧ l.password ≠ ""

/-- The body hands in at least one item, and only items that count. -/
def HandsItemsIn (body : Json.Value) : Prop :=
  ∃ r : Wire.RestockRequest, body = r.toJson ∧ r.items ≠ [] ∧ ∀ i ∈ r.items, i.Counts

/-- What is asked of a body, by the path that it is sent to. -/
def bodyRules : List (String × (Json.Value → Prop)) :=
  [(Fridge.previewPath, AsksForCart), (Fridge.confirmPath, NamesOrder),
    (Fridge.cancelPath, NamesOrder), (Account.registerPath, RegistersDevice),
    (Account.loginPath, LogsDeviceIn), (Supplier.restockPath, HandsItemsIn)]

theorem bodyRules_nodup : (bodyRules.map Prod.fst).Nodup := by decide

namespace Request

/-- The request has a body that fits its path. -/
def IsSound (r : Request) : Prop :=
  ∀ rule ∈ bodyRules, r.path = rule.1 → ∃ body, r.body = some body ∧ rule.2 body

variable {r : Request}

theorem IsSound.of_rule (path : String) (rule : Json.Value → Prop) {body : Json.Value}
    (hrule : (path, rule) ∈ bodyRules) (hpath : r.path = path) (hbody : r.body = some body)
    (hr : rule body) : r.IsSound := by
  intro other hother hp
  have hsame : other = (path, rule) :=
    List.inj_on_of_nodup_map bodyRules_nodup hother hrule (hp.symm.trans hpath)
  subst hsame
  exact ⟨body, hbody, hr⟩

theorem IsSound.of_path (h : r.path ∉ bodyRules.map Prod.fst) : r.IsSound := by
  intro rule hrule hp
  exact absurd (hp ▸ List.mem_map_of_mem hrule) h

theorem IsSound.withBearer (h : r.IsSound) (token : String) : (r.withBearer token).IsSound := h

end Request

section Sound

theorem refreshRequest_sound (token : String) : (Account.refreshRequest token).IsSound :=
  .of_path (show Account.refreshPath ∉ bodyRules.map Prod.fst by decide)

theorem statusRequest_sound (r : Restock) : (Supplier.statusRequest r).IsSound :=
  .of_path (show Supplier.statusPath ∉ bodyRules.map Prod.fst by decide)

theorem lastOrder_sound : (Request.get Fridge.lastOrderPath).IsSound := .of_path (by decide)

theorem history_sound : (Request.get Fridge.historyPath).IsSound := .of_path (by decide)

theorem truck_sound (t : Truck) : (Supplier.registrationRequest t).IsSound :=
  .of_path (show Supplier.registerPath ∉ bodyRules.map Prod.fst by decide)

theorem checkCredentials_ok {deviceId password : String}
    (h : Account.checkCredentials deviceId password = .ok ()) :
    Text.isBlankText deviceId = false ∧ password ≠ "" := by
  unfold Account.checkCredentials at h
  split at h
  · cases h
  · rename_i hn
    simpa using hn

theorem registerRequest_sound {r : Wire.Registration}
    (h : Account.checkCredentials r.deviceId r.password = .ok ()) :
    (Account.registerRequest r).IsSound :=
  .of_rule Account.registerPath RegistersDevice (by simp [bodyRules]) rfl rfl
    ⟨r, rfl, checkCredentials_ok h⟩

theorem loginRequest_sound {l : Wire.Login}
    (h : Account.checkCredentials l.deviceId l.password = .ok ()) :
    (Account.loginRequest l).IsSound :=
  .of_rule Account.loginPath LogsDeviceIn (by simp [bodyRules]) rfl rfl
    ⟨l, rfl, checkCredentials_ok h⟩

theorem restockRequest_sound {b : Batch} {r : Wire.RestockRequest} (h : b.request = .ok r) :
    (Supplier.restockRequest r).IsSound :=
  .of_rule Supplier.restockPath HandsItemsIn (by simp [bodyRules]) rfl rfl
    ⟨r, rfl, Batch.request_items h⟩

/-- What an operation calls for is sound, when the order is as it should be. -/
theorem Fridge.Calls.sound {op : Fridge.Operation} {o : Order} {r : Request}
    (h : Fridge.Calls op o r) (ho : o.Proper) : r.IsSound := by
  cases h with
  | preview hlines =>
    exact .of_rule Fridge.previewPath AsksForCart (by simp [bodyRules]) rfl rfl
      ⟨_, rfl, Cart.prepare_orderly hlines⟩
  | confirm t =>
    exact .of_rule Fridge.confirmPath NamesOrder (by simp [bodyRules]) rfl rfl
      ⟨_, rfl, (ho.ticket_proper rfl).orderId⟩
  | cancel t =>
    exact .of_rule Fridge.cancelPath NamesOrder (by simp [bodyRules]) rfl rfl
      ⟨_, rfl, (ho.ticket_proper rfl).orderId⟩
  | poll => exact lastOrder_sound
  | lastOrder => exact lastOrder_sound
  | history => exact history_sound

end Sound

/-- All that goes out on the way from one line to another is sound. -/
def Line.Posts (l l' : Line) : Prop :=
  ∃ requests, l'.sent = l.sent ++ requests ∧ ∀ r ∈ requests, r.IsSound

theorem Line.Conducts.posts {l l' : Line} {xs : List Exchange} (h : l.Conducts xs l')
    (hxs : ∀ x ∈ xs, x.request.IsSound) : l.Posts l' :=
  ⟨xs.map Exchange.request, h.sent_eq, by simpa using hxs⟩

theorem Line.Posts.of_eq {l l' : Line} (h : l' = l) : l.Posts l' := ⟨[], by simp [h], by simp⟩

namespace Fridge

section Posts

variable {α : Type} {op : Operation} {f f' : Fridge}

theorem Errand.Heeds.posts {r : Errand α} {e : Ended α} (hr : r.Heeds op) (hf : f.order.Proper)
    (h : r.call.run f = (e, f')) : f.line.Posts f'.line := by
  obtain ⟨xs, hxs⟩ := (Errand.call_cases h).conducts refreshRequest_sound
    fun q hq token => ((hr.calls hq).sound hf).withBearer token
  exact hxs.conducted.posts hxs.requests

theorem posts_of_leaves {c : Call Fridge α} {e : Ended α}
    (hc : c.Leaves (Conducts Request.IsSound)) (h : c.run f = (e, f')) :
    f.line.Posts f'.line := by
  obtain ⟨xs, hxs⟩ := hc f e f' h
  exact hxs.conducted.posts hxs.requests

theorem register_leaves (r : Wire.Registration) :
    (register r).Leaves (Conducts Request.IsSound) :=
  onAccount_leaves fun _ _ _ h => Account.register_conducts registerRequest_sound h

theorem login_leaves (l : Wire.Login) : (login l).Leaves (Conducts Request.IsSound) :=
  .bind conducts_trail (onAccount_leaves fun _ _ _ h => Account.login_conducts loginRequest_sound h)
    fun _ => setOrder_leaves .idle

theorem logout_line {e : Ended Unit} (h : logout.run f = (e, f')) : f'.line = f.line := by
  unfold logout setOrder at h
  rw [Call.run_modify_bind] at h
  obtain ⟨account, ha, rfl⟩ := onAccount_cases h
  exact Account.logout_line ha

/-- Whatever an operation sends is sound. -/
theorem Operation.posts {e : Ended Unit} (hf : f.order.Proper) (h : op.call.run f = (e, f')) :
    f.line.Posts f'.line := by
  cases op with
  | register r => exact posts_of_leaves (register_leaves r) h
  | login l => exact posts_of_leaves (login_leaves l) h
  | logout => exact .of_eq (logout_line h)
  | restore =>
    obtain ⟨ended, hr, _⟩ := Call.forget_cases h
    exact posts_of_leaves (restore_leaves refreshRequest_sound) hr
  | preview cart =>
    rw [Operation.call, preview_eq] at h
    exact (previewErrand_heeds cart).posts hf h
  | confirm =>
    rw [Operation.call, confirm_eq] at h
    exact confirmErrand_heeds.posts hf h
  | cancel =>
    obtain ⟨ended, hr, _⟩ := Call.forget_cases h
    rw [cancel_eq] at hr
    exact cancelErrand_heeds.posts hf hr
  | poll =>
    obtain ⟨ended, hr, _⟩ := Call.forget_cases h
    rw [poll_eq] at hr
    exact pollErrand_heeds.posts hf hr
  | waitForCompletion =>
    obtain ⟨ended, hr, _⟩ := Call.forget_cases h
    exact posts_of_leaves (waitForCompletion_leaves refreshRequest_sound fun token =>
      lastOrder_sound.withBearer token) hr
  | acknowledge =>
    obtain ⟨ended, hr, _⟩ := Call.forget_cases h
    exact posts_of_leaves (advance_leaves Order.acknowledge) hr
  | history =>
    obtain ⟨ended, hr, _⟩ := Call.forget_cases h
    rw [history_eq] at hr
    exact historyErrand_heeds.posts hf hr
  | lastOrder =>
    obtain ⟨ended, hr, _⟩ := Call.forget_cases h
    rw [lastOrder_eq] at hr
    exact lastOrderErrand_heeds.posts hf hr

end Posts

end Fridge

namespace Supplier

theorem posts_of_leaves {α : Type} {c : Call Supplier α} {s s' : Supplier} {e : Ended α}
    (hc : c.Leaves (Conducts Request.IsSound)) (h : c.run s = (e, s')) :
    s.line.Posts s'.line := by
  obtain ⟨xs, hxs⟩ := hc s e s' h
  exact hxs.conducted.posts hxs.requests

theorem Operation.posts {op : Operation} {s s' : Supplier} {e : Ended Unit}
    (h : op.call.run s = (e, s')) : s.line.Posts s'.line := by
  cases op with
  | register t => exact posts_of_leaves (register_leaves fun _ => truck_sound t) h
  | submit b =>
    obtain ⟨ended, hr, _⟩ := Call.forget_cases h
    exact posts_of_leaves (submit_leaves fun _ => restockRequest_sound) hr
  | poll => exact posts_of_leaves (poll_leaves statusRequest_sound).forget h
  | waitForCompletion =>
    obtain ⟨ended, hr, _⟩ := Call.forget_cases h
    exact posts_of_leaves (waitForCompletion_leaves statusRequest_sound) hr
  | clear =>
    cases h
    exact .of_eq rfl

end Supplier

end Larder
