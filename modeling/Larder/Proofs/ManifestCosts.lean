import Larder.Proofs.ExactAmounts
import Larder.Restock.Batch
import Mathlib.Algebra.BigOperators.Ring.Finset
import Mathlib.Algebra.Order.BigOperators.Group.List
import Mathlib.Tactic.NormNum

namespace Larder

open Decimal (Counts sizeBound)

namespace ManifestLine

/-- Quantity times unit cost, whatever an amount can hold. -/
def exactCost (l : ManifestLine) : ℚ := l.quantity.toNat * l.unitCost.value

/-- The units of a scale that the line comes to. -/
def costUnits (scale : Nat) (l : ManifestLine) : Nat :=
  l.quantity.toNat * (l.unitCost.coefficientAt scale).toNat

theorem quantity_lt (l : ManifestLine) : l.quantity.toNat < sizeBound :=
  Nat.lt_trans l.quantity.toNat_lt (by decide)

variable {l : ManifestLine} {scale : Nat}

theorem unitCost_counts (hs : l.unitCost.scale ≤ scale) (hl : 0 ≤ l.unitCost.value) :
    l.unitCost.Counts scale (l.unitCost.coefficientAt scale).toNat := by
  obtain ⟨n, hn⟩ := Decimal.counts_of_nonneg hs hl
  rwa [hn.units, Int.toNat_natCast]

theorem exactCost_mul (hs : l.unitCost.scale ≤ scale) (hl : 0 ≤ l.unitCost.value) :
    l.exactCost * 10 ^ scale = l.costUnits scale := by
  rw [exactCost, mul_assoc, (unitCost_counts hs hl).value_mul, costUnits, Nat.cast_mul]

theorem cost?_counts (hs : l.unitCost.scale ≤ scale) (hl : 0 ≤ l.unitCost.value)
    (h : l.costUnits scale < sizeBound) :
    ∃ d, l.cost? = some d ∧ d.Counts scale (l.costUnits scale) := by
  have hquantity : Decimal.Counts _ 0 _ :=
    Decimal.counts_written l.quantity_lt (Nat.zero_le _) le_rfl
  rw [Nat.sub_self, pow_zero, Nat.mul_one] at hquantity
  obtain ⟨d, hd, hcounts⟩ := (unitCost_counts hs hl).mul hquantity h
  refine ⟨d, ?_, hcounts⟩
  rw [cost?, Decimal.ofInt?_natCast l.quantity_lt]
  exact hd

end ManifestLine

namespace Batch

variable {b b' : Batch}

/-- The exact sum of what the lines come to. -/
def exactCost (b : Batch) : ℚ := (b.manifest.map ManifestLine.exactCost).sum

/-- The largest scale of the unit costs. -/
def finestScale (b : Batch) : Nat := (b.manifest.map (·.unitCost.scale)).foldr max 0

theorem le_finestScale {l : ManifestLine} (h : l ∈ b.manifest) :
    l.unitCost.scale ≤ b.finestScale := by
  unfold finestScale
  generalize b.manifest = lines at h
  induction h with
  | head rest => exact Nat.le_max_left _ _
  | tail first _ ih => exact Nat.le_trans ih (Nat.le_max_right _ _)

/-- A running total counts on as long as all the lines still to come fit in. -/
theorem addCosts?_counts {scale t : Nat} {lines : List ManifestLine} {total : Decimal}
    (hscales : ∀ l ∈ lines, l.unitCost.scale ≤ scale)
    (hcosts : ∀ l ∈ lines, 0 ≤ l.unitCost.value) (ht : total.Counts scale t)
    (h : t + (lines.map (ManifestLine.costUnits scale)).sum < sizeBound) :
    ∃ d, addCosts? total lines = some d ∧
      d.Counts scale (t + (lines.map (ManifestLine.costUnits scale)).sum) := by
  induction lines generalizing total t with
  | nil => exact ⟨total, rfl, by simpa using ht⟩
  | cons l lines ih =>
    rw [List.map_cons, List.sum_cons, ← Nat.add_assoc] at h ⊢
    obtain ⟨hscale, hscales⟩ := List.forall_mem_cons.mp hscales
    obtain ⟨hcost, hcosts⟩ := List.forall_mem_cons.mp hcosts
    obtain ⟨c, hc, hcounts⟩ := ManifestLine.cost?_counts hscale hcost (by omega)
    obtain ⟨next, hnext, hadded⟩ := ht.add hcounts (by omega)
    obtain ⟨d, hd, hall⟩ := ih hscales hcosts hadded h
    refine ⟨d, ?_, hall⟩
    rw [addCosts?, hc, Option.bind_eq_bind, Option.bind_some, hnext]
    exact hd

theorem exactCost_mul (hcosts : ∀ l ∈ b.manifest, 0 ≤ l.unitCost.value) :
    b.exactCost * 10 ^ b.finestScale =
      ((b.manifest.map (ManifestLine.costUnits b.finestScale)).sum : Nat) := by
  rw [exactCost, ← List.sum_map_mul_right, Nat.cast_list_sum, List.map_map]
  congr 1
  exact List.map_congr_left fun l hl =>
    ManifestLine.exactCost_mul (le_finestScale hl) (hcosts l hl)

/-- Everything a manifest comes to is exact. -/
structure CostsExactly (b : Batch) : Prop where
  total : ∃ d, b.estimatedCost? = some d ∧ d.value = b.exactCost
  lines : ∀ l ∈ b.manifest, ∃ d, l.cost? = some d ∧ d.value = l.exactCost

theorem costsExactly (hcosts : ∀ l ∈ b.manifest, 0 ≤ l.unitCost.value)
    (hfits : b.exactCost * 10 ^ b.finestScale < 2 ^ 96) : b.CostsExactly := by
  have hpow : (10 : ℚ) ^ b.finestScale ≠ 0 := by positivity
  have hunits : (b.manifest.map (ManifestLine.costUnits b.finestScale)).sum < sizeBound := by
    rw [exactCost_mul hcosts] at hfits
    exact_mod_cast hfits
  refine ⟨?_, ?_⟩
  · obtain ⟨d, hd, hcounts⟩ := addCosts?_counts (fun l hl => le_finestScale hl) hcosts
      (Decimal.zero_counts _) (by simpa using hunits)
    refine ⟨d, hd, mul_right_cancel₀ hpow ?_⟩
    rw [hcounts.value_mul, exactCost_mul hcosts, Nat.zero_add]
  · intro l hl
    have hline : l.costUnits b.finestScale < sizeBound :=
      Nat.lt_of_le_of_lt (List.single_le_sum (by simp) _ (List.mem_map_of_mem hl)) hunits
    obtain ⟨d, hd, hcounts⟩ :=
      ManifestLine.cost?_counts (le_finestScale hl) (hcosts l hl) hline
    refine ⟨d, hd, mul_right_cancel₀ hpow ?_⟩
    rw [hcounts.value_mul, ManifestLine.exactCost_mul (le_finestScale hl) (hcosts l hl)]

section Reordered

variable (h : b'.manifest.Perm b.manifest)
include h

theorem exactCost_perm : b'.exactCost = b.exactCost := (h.map _).sum_eq

theorem finestScale_perm : b'.finestScale = b.finestScale := (h.map _).foldr_eq 0

end Reordered

/-- If what a manifest comes to fits at the finest scale of its unit costs, then it is what is
reckoned, line by line and in any order of the lines. -/
theorem estimatedCost?_exact (b : Batch) (hcosts : ∀ l ∈ b.manifest, 0 ≤ l.unitCost.value)
    (hfits : b.exactCost * 10 ^ b.finestScale < 2 ^ 96) :
    (∃ d, b.estimatedCost? = some d ∧ d.value = b.exactCost) ∧
    (∀ l ∈ b.manifest, ∃ d, l.cost? = some d ∧ d.value = l.exactCost) ∧
    ∀ b' : Batch, b'.manifest.Perm b.manifest →
      ∃ d, b'.estimatedCost? = some d ∧ d.value = b.exactCost := by
  have hexact := costsExactly hcosts hfits
  refine ⟨hexact.total, hexact.lines, fun b' h => ?_⟩
  have hcosts' : ∀ l ∈ b'.manifest, 0 ≤ l.unitCost.value := fun l hl => hcosts l (h.mem_iff.mp hl)
  rw [← exactCost_perm h, ← finestScale_perm h] at hfits
  rw [← exactCost_perm h]
  exact (costsExactly hcosts' hfits).total

/-- A batch of three lines at these prices. -/
def bakery (bread roll cake : Decimal) : Batch where
  supplierId := "SUP-2"
  supplierName := "Mill Bakery"
  truck := { truckId := "TRK-2", plateNumber := "CD-456", driverName := "Noa" }
  manifest := [line "BREAD-1" 3 bread, line "ROLL-1" 7 roll, line "CAKE-1" 2 cake]
where
  line (sku : String) (quantity : UInt32) (unitCost : Decimal) : ManifestLine :=
    { sku, name := sku, aisle := .bread, quantity, unitCost
      made := ⟨2025, 6, 1, by decide⟩
      expires := ⟨2025, 6, 3, by decide⟩ }

/-- The prices have two decimal places, three, and none. -/
theorem estimatedCost?_exact_bakery :
    let b := bakery { isNegative := false, size := 125, scale := 2 }
      { isNegative := false, size := 333, scale := 3 }
      { isNegative := false, size := 10, scale := 0 }
    (∀ l ∈ b.manifest, 0 ≤ l.unitCost.value) ∧ b.exactCost * 10 ^ b.finestScale < 2 ^ 96 ∧
      ∃ d, b.estimatedCost? = some d ∧ d.value = 26.081 := by
  intro b
  have hcosts : ∀ l ∈ b.manifest, 0 ≤ l.unitCost.value := by
    norm_num [b, bakery, bakery.line, Decimal.value, Decimal.coefficient]
  have hexact : b.exactCost = 26.081 := by
    simp only [b, bakery, bakery.line, exactCost, ManifestLine.exactCost, Decimal.value,
      Decimal.coefficient, UInt32.toNat_ofNat, List.map_cons, List.map_nil, List.sum_cons,
      List.sum_nil]
    norm_num
  have hscale : b.finestScale = 3 := by decide
  have hfits : b.exactCost * 10 ^ b.finestScale < 2 ^ 96 := by
    rw [hexact, hscale]
    norm_num
  refine ⟨hcosts, hfits, ?_⟩
  rw [← hexact]
  exact (estimatedCost?_exact b hcosts hfits).1

end Batch

end Larder
