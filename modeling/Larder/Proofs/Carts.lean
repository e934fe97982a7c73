import Larder.Fridge
import Larder.Proofs.Disks

namespace Larder

/-- The line has a SKU and a quantity. -/
structure Wire.OrderLine.Counts (l : Wire.OrderLine) : Prop where
  sku : l.sku ≠ ""
  quantity : 1 ≤ l.quantity.toNat

/-- At least one line, each with a SKU and a quantity of 32 bits that is not zero. -/
structure Wire.Quantities.Orderable (q : Wire.Quantities) : Prop where
  some : q.entries ≠ []
  sku : ∀ line ∈ q.entries, line.1 ≠ ""
  quantity : ∀ line ∈ q.entries, 1 ≤ line.2.toNat ∧ line.2.toNat ≤ UInt32.size - 1

namespace Cart

open Wire (OrderLine)

theorem addCounts_toNat (a b : UInt32) :
    (addCounts a b).toNat = min (a.toNat + b.toNat) (UInt32.size - 1) := by
  unfold addCounts
  rw [UInt32.toNat_ofNat']
  apply Nat.mod_eq_of_lt
  simp only [UInt32.size]
  omega

theorem countedLine?_counts {l l' : OrderLine} (h : countedLine? l = some l') : l'.Counts := by
  simp only [countedLine?] at h
  split at h
  · cases h
  · rename_i hn
    cases h
    simp only [Bool.or_eq_true, beq_iff_eq, not_or] at hn
    obtain ⟨hsku, hquantity⟩ := hn
    have hpos : l.quantity.toNat ≠ 0 := by
      intro h0
      exact hquantity (UInt32.toNat_inj.mp h0)
    exact ⟨by simpa using hsku, Nat.one_le_iff_ne_zero.mpr hpos⟩

theorem addLine_counts {l : OrderLine} (hl : l.Counts) {lines : List OrderLine}
    (h : ∀ m ∈ lines, m.Counts) : ∀ m ∈ addLine l.sku l.quantity lines, m.Counts := by
  induction lines with
  | nil => simpa [addLine] using hl
  | cons first rest ih =>
    obtain ⟨hfirst, hrest⟩ := List.forall_mem_cons.mp h
    simp only [addLine]
    split
    · rw [List.forall_mem_cons]
      refine ⟨⟨hfirst.sku, ?_⟩, hrest⟩
      have hq := hfirst.quantity
      rw [addCounts_toNat]
      simp only [UInt32.size]
      omega
    · exact List.forall_mem_cons.mpr ⟨hfirst, ih hrest⟩

theorem merge_counts {lines : List OrderLine} (h : ∀ l ∈ lines, l.Counts) :
    ∀ l ∈ merge lines, l.Counts := by
  have hfold : ∀ merged : List OrderLine, (∀ l ∈ merged, l.Counts) →
      ∀ l ∈ lines.foldl (fun merged l => addLine l.sku l.quantity merged) merged, l.Counts := by
    induction lines with
    | nil => exact fun _ hm => hm
    | cons first rest ih =>
      obtain ⟨hfirst, hrest⟩ := List.forall_mem_cons.mp h
      intro merged hm
      exact ih hrest _ (addLine_counts hfirst hm)
  exact hfold [] (by simp)

theorem prepare_ok {cart lines : List OrderLine} (h : prepare cart = .ok lines) :
    lines ≠ [] ∧ lines = merge (cart.filterMap countedLine?) := by
  unfold prepare at h
  split at h
  · cases h
  · rename_i hn
    cases h
    exact ⟨hn, rfl⟩

theorem prepare_counts {cart lines : List OrderLine} (h : prepare cart = .ok lines) :
    ∀ l ∈ lines, l.Counts := by
  obtain ⟨_, rfl⟩ := prepare_ok h
  apply merge_counts
  intro l hl
  obtain ⟨m, _, hm⟩ := List.mem_filterMap.mp hl
  exact countedLine?_counts hm

end Cart

namespace Fridge

theorem requested_orderable {lines : List Wire.OrderLine} (hne : lines ≠ [])
    (h : ∀ l ∈ lines, l.Counts) : Wire.Quantities.Orderable (requested lines) := by
  have hmem : ∀ line ∈ (requested lines).entries, ∃ l ∈ lines, (l.sku, l.quantity) = line := by
    intro line hm
    exact List.mem_map.mp (mem_sortByKey hm)
  refine ⟨sortByKey_ne_nil (by simpa using hne), ?_, ?_⟩
  · intro line hm
    obtain ⟨l, hl, rfl⟩ := hmem line hm
    exact (h l hl).sku
  · intro line hm
    obtain ⟨l, hl, rfl⟩ := hmem line hm
    exact ⟨(h l hl).quantity, Nat.le_pred_of_lt l.quantity.toNat_lt⟩

/-- What is reserved can be ordered, whether the service echoes it or not. -/
theorem reservedItems_orderable {cart lines : List Wire.OrderLine}
    (h : Cart.prepare cart = .ok lines) (preview : Wire.Preview) :
    (reservedItems lines preview).Orderable := by
  unfold reservedItems
  dsimp only
  split
  · exact requested_orderable (Cart.prepare_ok h).1 (Cart.prepare_counts h)
  · rename_i hne
    refine ⟨by simpa [Table.isEmpty] using hne, ?_, ?_⟩
    all_goals
      intro line hm
      have htest := (List.mem_filter.mp hm).2
      simp only [Bool.and_eq_true, decide_eq_true_eq] at htest
    · simpa using htest.1
    · exact ⟨UInt32.lt_iff_toNat_lt.mp htest.2, Nat.le_pred_of_lt line.2.toNat_lt⟩

end Fridge

end Larder
