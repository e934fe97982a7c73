import Larder.Proofs.SoundBodies

namespace Larder

/-- A rule, and what is said of that which breaks it. -/
structure Rule where
  isKept : Prop
  complaint : String

namespace Rule

/-- The complaint of the first rule that is broken. -/
inductive FirstBroken : List Rule → String → Prop where
  | here {r : Rule} {rules : List Rule} (h : ¬ r.isKept) : FirstBroken (r :: rules) r.complaint
  | later {r : Rule} {rules : List Rule} {m : String} (h : r.isKept)
      (rest : FirstBroken rules m) : FirstBroken (r :: rules) m

/-- What a look through the rules finds: no complaint, or the first. -/
inductive Finds (rules : List Rule) : Option String → Prop where
  | nothing (h : ∀ r ∈ rules, r.isKept) : Finds rules none
  | complaint {m : String} (h : FirstBroken rules m) : Finds rules (some m)

section

variable {r : Rule} {rules rules' : List Rule} {m m' : String} {found : Option String}

theorem FirstBroken.not_all_kept (h : FirstBroken rules m) : ¬ ∀ r ∈ rules, r.isKept := by
  induction h with
  | here h => exact fun hall => h (hall _ List.mem_cons_self)
  | later _ _ ih => exact fun hall => ih fun r hr => hall r (List.mem_cons_of_mem _ hr)

theorem FirstBroken.unique (h : FirstBroken rules m) (h' : FirstBroken rules m') : m = m' := by
  induction h with
  | here h =>
    cases h' with
    | here => rfl
    | later hk => exact absurd hk h
  | later hk _ ih =>
    cases h' with
    | here h => exact absurd hk h
    | later _ rest => exact ih rest

theorem FirstBroken.append (h : FirstBroken rules m) (rules' : List Rule) :
    FirstBroken (rules ++ rules') m := by
  induction h with
  | here h => exact .here h
  | later hk _ ih => exact .later hk ih

theorem FirstBroken.append_left (hall : ∀ r ∈ rules, r.isKept) (h : FirstBroken rules' m) :
    FirstBroken (rules ++ rules') m := by
  induction rules with
  | nil => exact h
  | cons r rules ih =>
    obtain ⟨hr, hrules⟩ := List.forall_mem_cons.mp hall
    exact .later hr (ih hrules)

theorem Finds.nil : Finds [] none := .nothing (by simp)

theorem Finds.cons {broken : Prop} [Decidable broken] (hb : broken ↔ ¬ r.isKept)
    (h : Finds rules found) :
    Finds (r :: rules) (if broken then some r.complaint else found) := by
  split
  · rename_i hbroken
    exact .complaint (.here (hb.mp hbroken))
  · rename_i hkept
    rw [hb, not_not] at hkept
    cases h with
    | nothing hall => exact .nothing (List.forall_mem_cons.mpr ⟨hkept, hall⟩)
    | complaint hbroken => exact .complaint (.later hkept hbroken)

/-- A rule with words in front of its complaint. -/
def saying (front : String) (r : Rule) : Rule := { r with complaint := front ++ r.complaint }

theorem Finds.saying (front : String) (h : Finds rules found) :
    Finds (rules.map (Rule.saying front)) (found.map (front ++ ·)) := by
  cases h with
  | nothing hall => exact .nothing (List.forall_mem_map.mpr hall)
  | complaint hbroken =>
    refine .complaint ?_
    induction hbroken with
    | here h => exact .here h
    | later hk _ ih => exact .later hk ih

/-- What comes of what has been found. -/
def verdict : Option String → Except Failure Unit
  | none => .ok ()
  | some m => .error (.invalid m)

/-- The check turns down what breaks a rule, with the first complaint. -/
def Enforced (rules : List Rule) (check : Except Failure Unit) : Prop :=
  ∃ found, Finds rules found ∧ check = verdict found

variable {check check' : Except Failure Unit}

theorem Enforced.one {broken : Prop} [Decidable broken] (hb : broken ↔ ¬ r.isKept) :
    Enforced [r] (if broken then .error (.invalid r.complaint) else .ok ()) := by
  refine ⟨_, Finds.cons hb .nil, ?_⟩
  split <;> rfl

/-- A check after another has rules of its own, behind those of the other. -/
theorem Enforced.andThen (h : Enforced rules check) (h' : Enforced rules' check') :
    Enforced (rules ++ rules') (check >>= fun _ => check') := by
  obtain ⟨found, hf, rfl⟩ := h
  obtain ⟨found', hf', rfl⟩ := h'
  cases hf with
  | complaint hbroken => exact ⟨some _, .complaint (hbroken.append _), rfl⟩
  | nothing hall =>
    refine ⟨found', ?_, rfl⟩
    cases hf' with
    | nothing hall' => exact .nothing (List.forall_mem_append.mpr ⟨hall, hall'⟩)
    | complaint hbroken => exact .complaint (hbroken.append_left hall)

theorem Enforced.ok_iff (h : Enforced rules check) : check = .ok () ↔ ∀ r ∈ rules, r.isKept := by
  obtain ⟨found, hf, rfl⟩ := h
  cases hf with
  | nothing hall => simpa [verdict] using hall
  | complaint hbroken => simp [verdict, hbroken.not_all_kept]

theorem Enforced.error_iff (h : Enforced rules check) {x : Failure} :
    check = .error x ↔ ∃ m, FirstBroken rules m ∧ x = .invalid m := by
  obtain ⟨found, hf, rfl⟩ := h
  cases hf with
  | nothing hall =>
    simp only [verdict, reduceCtorEq, false_iff, not_exists, not_and]
    exact fun m hbroken => absurd hall hbroken.not_all_kept
  | @complaint m hbroken =>
    simp only [verdict, Except.error.injEq]
    constructor
    · rintro rfl
      exact ⟨m, hbroken, rfl⟩
    · rintro ⟨m', hbroken', rfl⟩
      rw [hbroken.unique hbroken']

end

end Rule

open Rule (Finds FirstBroken Enforced verdict)

/-- Something is left of the text when it is trimmed. -/
def needed (field value : String) : Rule := ⟨Text.trim value ≠ "", field ++ " is required"⟩

theorem Text.isBlankText_iff_trim (s : String) : Text.isBlankText s = true ↔ ¬ Text.trim s ≠ "" := by
  rw [Text.isBlankText_eq, String.isEmpty_iff, not_not]

theorem require_enforced (field value : String) :
    Enforced [needed field value] (require field value) :=
  .one (Text.isBlankText_iff_trim value)

theorem Truck.validate_enforced (t : Truck) : Enforced
    [needed "truck_id" t.truckId, needed "plate_number" t.plateNumber,
      needed "driver_name" t.driverName] t.validate :=
  (require_enforced _ _).andThen ((require_enforced _ _).andThen (require_enforced _ _))

/-- The rules for a line of a manifest, in the order in which they are looked at. -/
def ManifestLine.rules (isPrice : Decimal → Prop) (l : ManifestLine) : List Rule :=
  [⟨Text.trim l.sku ≠ "", "SKU is required"⟩,
    ⟨Text.trim l.name ≠ "", "name is required"⟩,
    ⟨0 < l.quantity.toNat, "quantity must be positive"⟩,
    ⟨isPrice l.unitCost, "unit cost must not be negative"⟩,
    ⟨¬ l.expires.before l.made, "expiry date precedes manufacture date"⟩,
    ⟨l.cost?.isSome, "line cost is out of range"⟩]

/-- A complaint about a line says which it is, and of what. -/
def ManifestLine.label (number : Nat) (l : ManifestLine) : String :=
  "Manifest line " ++ toString number ++ " (" ++ Text.trim l.sku ++ "): "

/-- The rules for a batch. Lines are counted from one. -/
def Batch.rules (isPrice : Decimal → Prop) (b : Batch) : List Rule :=
  [needed "supplier_id" b.supplierId, needed "truck_id" b.truck.truckId,
    needed "plate_number" b.truck.plateNumber, needed "driver_name" b.truck.driverName,
    ⟨b.manifest ≠ [], "Manifest is empty: add at least one item"⟩] ++
  (b.manifest.zipIdx 1).flatMap (fun (l, number) =>
    (l.rules isPrice).map (Rule.saying (l.label number))) ++
  [⟨b.estimatedCost?.isSome, "Manifest total cost is out of range"⟩]

/-- An amount that has no sign. -/
def Decimal.IsUnsigned (d : Decimal) : Prop := d.isNegative = false

namespace ManifestLine

theorem complaint?_finds (l : ManifestLine) :
    Finds (l.rules Decimal.IsUnsigned) l.complaint? := by
  unfold complaint?
  refine .cons (Text.isBlankText_iff_trim l.sku) <| .cons (Text.isBlankText_iff_trim l.name) <|
    .cons ?quantity <| .cons ?unitCost <| .cons not_not.symm <| .cons ?cost .nil
  case quantity => rw [← UInt32.toNat_inj, UInt32.toNat_zero, Nat.pos_iff_ne_zero, not_not]
  case unitCost => simp [Decimal.IsUnsigned]
  case cost => simp

theorem validate_enforced (number : Nat) (l : ManifestLine) :
    Enforced ((l.rules Decimal.IsUnsigned).map (Rule.saying (l.label number)))
      (l.validate number) := by
  refine ⟨_, l.complaint?_finds.saying (l.label number), ?_⟩
  unfold validate label
  cases l.complaint? <;> rfl

end ManifestLine

namespace Batch

theorem validateLines_enforced (number : Nat) (lines : List ManifestLine) :
    Enforced ((lines.zipIdx number).flatMap fun (l, n) =>
      (l.rules Decimal.IsUnsigned).map (Rule.saying (l.label n)))
      (validateLines number lines) := by
  induction lines generalizing number with
  | nil => exact ⟨none, .nil, rfl⟩
  | cons l lines ih => exact (l.validate_enforced number).andThen (ih (number + 1))

theorem validate_enforced (b : Batch) : Enforced (b.rules Decimal.IsUnsigned) b.validate := by
  have hmanifest : Enforced [⟨b.manifest ≠ [], "Manifest is empty: add at least one item"⟩] _ :=
    .one (show b.manifest.isEmpty = true ↔ ¬ b.manifest ≠ [] by simp)
  have htotal : Enforced [⟨b.estimatedCost?.isSome, "Manifest total cost is out of range"⟩] _ :=
    .one (show b.estimatedCost?.isNone = true ↔ ¬ b.estimatedCost?.isSome = true by simp)
  have hall := (require_enforced "supplier_id" b.supplierId).andThen
    (b.truck.validate_enforced.andThen (hmanifest.andThen
      ((validateLines_enforced 1 b.manifest).andThen htotal)))
  convert hall using 1
  · simp [rules]
  · unfold validate
    cases b.manifest.isEmpty <;> rfl

/-- What is handed in for a batch says what the batch says. -/
structure HandsIn (b : Batch) (r : Wire.RestockRequest) : Prop where
  items : List.Forall₂ (fun (l : ManifestLine) (i : Wire.RestockItem) =>
    i.sku = Text.trim l.sku ∧ i.name = Text.trim l.name ∧ i.aisle = l.aisle ∧
      i.quantity = l.quantity ∧ i.unitCost = l.unitCost) b.manifest r.items
  supplierId : r.supplierId = Text.trim b.supplierId
  supplierName : r.supplierName = b.supplierName
  truckId : r.truckId = b.truck.truckId
  plateNumber : r.plateNumber = b.truck.plateNumber
  driverName : r.driverName = b.truck.driverName
  contactInfo : r.contactInfo = b.truck.contactInfo
  location : r.location = b.truck.location

theorem request_eq (b : Batch) : b.request = b.validate.map fun _ =>
    { truckId := b.truck.truckId
      plateNumber := b.truck.plateNumber
      driverName := b.truck.driverName
      contactInfo := b.truck.contactInfo
      location := b.truck.location
      supplierId := Text.trim b.supplierId
      supplierName := b.supplierName
      items := b.manifest.map ManifestLine.item } := by
  unfold request
  cases b.validate <;> rfl

theorem handsIn_of_request {b : Batch} {r : Wire.RestockRequest} (h : b.request = .ok r) :
    b.HandsIn r := by
  rw [request_eq] at h
  cases hv : b.validate with
  | error x =>
    rw [hv] at h
    cases h
  | ok u =>
    rw [hv] at h
    cases h
    refine ⟨?_, rfl, rfl, rfl, rfl, rfl, rfl, rfl⟩
    rw [List.forall₂_map_right_iff]
    exact List.forall₂_same.mpr fun l _ => ⟨rfl, rfl, rfl, rfl, rfl⟩

/-- A batch is taken on just if it keeps every rule, where a price is an amount without a sign. -/
theorem request_judged (b : Batch) :
    ((∃ r, b.request = .ok r) ↔ ∀ rule ∈ b.rules Decimal.IsUnsigned, rule.isKept) ∧
    (∀ x, b.request = .error x ↔
      ∃ m, FirstBroken (b.rules Decimal.IsUnsigned) m ∧ x = .invalid m) ∧
    ∀ r, b.request = .ok r → b.HandsIn r := by
  refine ⟨?_, ?_, fun r => handsIn_of_request⟩
  · rw [← b.validate_enforced.ok_iff, request_eq]
    cases b.validate <;> simp [Except.map]
  · intro x
    rw [← b.validate_enforced.error_iff, request_eq]
    cases b.validate <;> simp [Except.map]

/-- A batch of one line, which costs nothing and has a sign all the same. -/
def free : Batch where
  supplierId := "SUP-1"
  supplierName := "Dairy Farm"
  truck := { truckId := "TRK-1", plateNumber := "AB-123", driverName := "Dana" }
  manifest := [{
    sku := "MILK-1"
    name := "Whole Milk"
    aisle := .dairy
    quantity := 3
    unitCost := (Decimal.ofText? "-0.4e-28").getD .zero
    made := ⟨2025, 3, 1, by decide⟩
    expires := ⟨2025, 3, 10, by decide⟩ }]

/-- An amount that is rounded to zero keeps its sign, and is turned down as a price below zero. -/
theorem request_free : Decimal.ofText? "-0.4e-28" = free.manifest.head?.map (·.unitCost) ∧
    free.request = .error
      (.invalid "Manifest line 1 (MILK-1): unit cost must not be negative") ∧
    ¬ ((∃ r, free.request = .ok r) ↔
      ∀ rule ∈ free.rules (fun price => 0 ≤ price.coefficient), rule.isKept) := by
  have hrefused : free.request = .error
      (.invalid "Manifest line 1 (MILK-1): unit cost must not be negative") := by rfl
  have hkept : ∀ rule ∈ free.rules (fun price => 0 ≤ price.coefficient), rule.isKept := by
    simp only [rules, free, needed, ManifestLine.rules, Rule.saying, List.zipIdx_cons,
      List.zipIdx_nil, List.flatMap_cons, List.flatMap_nil, List.map_cons, List.map_nil,
      List.cons_append, List.nil_append, List.forall_mem_cons, List.not_mem_nil, false_implies,
      implies_true, and_true]
    decide
  refine ⟨by rfl, hrefused, fun h => ?_⟩
  obtain ⟨r, hr⟩ := h.mpr hkept
  rw [hrefused] at hr
  cases hr

end Batch

end Larder
