import Mathlib.Algebra.BigOperators.Group.List.Basic
import Mathlib.Algebra.GroupWithZero.Nat
import Larder.Proofs.PairedCalls
import Larder.Proofs.SoundBodies

namespace Larder.Cart

open Wire (OrderLine)

/-- The largest count. -/
def largestCount : Nat := UInt32.size - 1

/-- The exact sum of what the lines of a SKU ask for. -/
def tally (lines : List OrderLine) (sku : String) : Nat :=
  ((lines.filter (·.sku = sku)).map (·.quantity.toNat)).sum

/-- The same with the blanks around the SKUs of the cart cut off. -/
def total (cart : List OrderLine) (sku : String) : Nat :=
  tally (cart.map fun l => ⟨Text.trim l.sku, l.quantity⟩) sku

/-- The line asks for nothing: it has no SKU, or no quantity. -/
def IsIdle (l : OrderLine) : Prop := Text.isBlankText l.sku = true ∨ l.quantity = 0

instance (l : OrderLine) : Decidable (IsIdle l) :=
  inferInstanceAs (Decidable (_ ∨ _))

/-- The SKUs of the lines that count, one for each of these lines. -/
def countedSkus (cart : List OrderLine) : List String :=
  (cart.filter (¬ IsIdle ·)).map (Text.trim ·.sku)

section Tally

variable {lines lines' : List OrderLine} {sku : String}

@[simp] theorem tally_nil (sku : String) : tally [] sku = 0 := rfl

@[simp] theorem tally_cons (l : OrderLine) (lines : List OrderLine) (sku : String) :
    tally (l :: lines) sku = (if l.sku = sku then l.quantity.toNat else 0) + tally lines sku := by
  unfold tally
  by_cases h : l.sku = sku <;> simp [h]

@[simp] theorem tally_append (lines lines' : List OrderLine) (sku : String) :
    tally (lines ++ lines') sku = tally lines sku + tally lines' sku := by
  simp [tally]

theorem tally_perm (h : lines.Perm lines') (sku : String) : tally lines sku = tally lines' sku :=
  ((h.filter _).map _).sum_eq

theorem tally_of_notMem (h : sku ∉ lines.map OrderLine.sku) : tally lines sku = 0 := by
  induction lines with
  | nil => rfl
  | cons l lines ih =>
    obtain ⟨hne, hrest⟩ := List.ne_and_not_mem_of_not_mem_cons h
    simp [Ne.symm hne, ih hrest]

/-- Where every SKU has one line, that line has all that is asked for. -/
theorem tally_of_mem (h : (lines.map OrderLine.sku).Nodup) {l : OrderLine} (hl : l ∈ lines) :
    tally lines l.sku = l.quantity.toNat := by
  induction lines with
  | nil => cases hl
  | cons first lines ih =>
    obtain ⟨hnew, hrest⟩ := List.nodup_cons.mp h
    rcases List.mem_cons.mp hl with rfl | hl
    · simp [tally_of_notMem hnew]
    · have hne : first.sku ≠ l.sku := fun he => hnew (he ▸ List.mem_map_of_mem hl)
      simp [hne, ih hrest hl]

end Tally

section Merge

variable (lines : List OrderLine)

theorem merge_concat (l : OrderLine) :
    merge (lines ++ [l]) = addLine l.sku l.quantity (merge lines) := by
  simp [merge, List.foldl_append]

theorem skus_merge_nodup : ((merge lines).map OrderLine.sku).Nodup := by
  refine skus_merge List.nodup_nil ?_
  intro l _ skus hs hn
  exact List.Nodup.append hs (List.nodup_singleton l.sku) (List.disjoint_singleton.mpr hn)

/-- Each SKU is where it stood first. -/
theorem skus_merge_eq : (merge lines).map OrderLine.sku = (lines.map OrderLine.sku).eraseDups := by
  induction lines using List.reverseRecOn with
  | nil => rfl
  | append_singleton lines l ih =>
    rw [merge_concat, skus_addLine, ih, List.map_append, List.eraseDups_append,
      List.map_singleton]
    by_cases h : l.sku ∈ lines.map OrderLine.sku
    · have hseen : [l.sku].removeAll (lines.map OrderLine.sku) = [] := by
        rw [List.cons_removeAll, if_neg (by simpa using h), List.nil_removeAll]
      rw [if_pos (List.mem_eraseDups.mpr h), hseen, List.eraseDups_nil, List.append_nil]
    · have hnew : [l.sku].removeAll (lines.map OrderLine.sku) = [l.sku] := by
        rw [List.cons_removeAll, if_pos (by simpa using h), List.nil_removeAll]
      rw [if_neg (mt List.mem_eraseDups.mp h), hnew, List.eraseDups_cons]
      rfl

/-- Only the tally of the SKU goes up, and not beyond the largest count. -/
theorem tally_addLine (sku : String) (quantity : UInt32) (s : String) {lines : List OrderLine}
    (h : (lines.map OrderLine.sku).Nodup) : tally (addLine sku quantity lines) s =
      if sku = s then min (tally lines s + quantity.toNat) largestCount else tally lines s := by
  induction lines with
  | nil =>
    have hq : quantity.toNat ≤ largestCount := Nat.le_pred_of_lt quantity.toNat_lt
    by_cases hs : sku = s <;> simp [addLine, hs, hq]
  | cons l lines ih =>
    obtain ⟨hnew, hrest⟩ := List.nodup_cons.mp h
    by_cases hl : l.sku = sku
    · subst hl
      by_cases hs : l.sku = s
      · subst hs
        simp [addLine, addCounts_toNat, tally_of_notMem hnew, largestCount]
      · simp [addLine, hs]
    · rw [addLine, if_neg hl, tally_cons, ih hrest, tally_cons]
      by_cases hs : sku = s
      · have hne : l.sku ≠ s := hs ▸ hl
        simp [hs, hne]
      · simp [hs]

/-- Cutting off at every step comes to the same as cutting off at the end. -/
theorem tally_merge (sku : String) :
    tally (merge lines) sku = min (tally lines sku) largestCount := by
  induction lines using List.reverseRecOn with
  | nil => rfl
  | append_singleton lines l ih =>
    rw [merge_concat, tally_addLine _ _ _ (skus_merge_nodup lines), ih]
    by_cases hs : l.sku = sku
    · simp [hs]
      omega
    · simp [hs]

/-- The one line that the lines of a SKU come to. -/
def mergedLine (sku : String) : OrderLine :=
  ⟨sku, .ofNat (min (tally lines sku) largestCount)⟩

theorem mergedLine_quantity (sku : String) :
    (mergedLine lines sku).quantity.toNat = min (tally lines sku) largestCount := by
  unfold mergedLine
  rw [UInt32.toNat_ofNat']
  apply Nat.mod_eq_of_lt
  simp only [largestCount, UInt32.size]
  omega

theorem merge_eq :
    merge lines = (lines.map OrderLine.sku).eraseDups.map (mergedLine lines) := by
  rw [← skus_merge_eq, List.map_map]
  refine (List.map_id' (merge lines)).symm.trans (List.map_congr_left fun l hl => ?_)
  have hq : (mergedLine lines l.sku).quantity = l.quantity := by
    rw [← UInt32.toNat_inj, mergedLine_quantity, ← tally_merge,
      tally_of_mem (skus_merge_nodup lines) hl]
  exact congrArg (OrderLine.mk l.sku) hq.symm

theorem addLine_of_notMem {sku : String} (quantity : UInt32) {lines : List OrderLine}
    (h : sku ∉ lines.map OrderLine.sku) :
    addLine sku quantity lines = lines ++ [⟨sku, quantity⟩] := by
  induction lines with
  | nil => rfl
  | cons first rest ih =>
    obtain ⟨hne, hrest⟩ := List.ne_and_not_mem_of_not_mem_cons h
    rw [addLine, if_neg hne.symm, ih hrest]
    rfl

/-- Lines of different SKUs stay as they are. -/
theorem merge_of_nodup (h : (lines.map OrderLine.sku).Nodup) : merge lines = lines := by
  induction lines using List.reverseRecOn with
  | nil => rfl
  | append_singleton lines l ih =>
    rw [List.map_append, List.map_singleton, ← List.concat_eq_append, List.nodup_concat] at h
    obtain ⟨hnew, hlines⟩ := h
    rw [merge_concat, ih hlines, addLine_of_notMem l.quantity hnew]

theorem merge_perm {lines lines' : List OrderLine} (h : lines.Perm lines') :
    (merge lines).Perm (merge lines') := by
  have hskus : (lines.map OrderLine.sku).eraseDups.Perm (lines'.map OrderLine.sku).eraseDups := by
    rw [← skus_merge_eq, ← skus_merge_eq,
      List.perm_ext_iff_of_nodup (skus_merge_nodup _) (skus_merge_nodup _)]
    intro sku
    simp only [skus_merge_eq, List.mem_eraseDups, (h.map OrderLine.sku).mem_iff]
  have hline : mergedLine lines = mergedLine lines' := by
    funext sku
    simp only [mergedLine, tally_perm h]
  rw [merge_eq, merge_eq, hline]
  exact hskus.map _

end Merge

section Counted

variable (cart : List OrderLine)

theorem countedLine?_eq (l : OrderLine) : countedLine? l =
    if IsIdle l then none else some ⟨Text.trim l.sku, l.quantity⟩ := by
  simp only [countedLine?, IsIdle, Text.isBlankText_eq, Bool.or_eq_true, beq_iff_eq]

theorem skus_counted : (cart.filterMap countedLine?).map OrderLine.sku = countedSkus cart := by
  induction cart with
  | nil => rfl
  | cons l cart ih =>
    by_cases h : IsIdle l
    · simpa [countedSkus, countedLine?_eq, h] using ih
    · simpa [countedSkus, countedLine?_eq, h] using ih

/-- Lines that ask for nothing are of no account to a SKU. -/
theorem tally_counted {sku : String} (h : sku ≠ "") :
    tally (cart.filterMap countedLine?) sku = total cart sku := by
  induction cart with
  | nil => rfl
  | cons l cart ih =>
    rw [total, List.map_cons, tally_cons, ← total, ← ih]
    by_cases hi : IsIdle l
    · have hnone : (if Text.trim l.sku = sku then l.quantity.toNat else 0) = 0 := by
        rcases hi with hblank | hzero
        · have hempty : Text.trim l.sku = "" := by simpa [Text.isBlankText_eq] using hblank
          rw [hempty, if_neg (Ne.symm h)]
        · simp [hzero]
      rw [List.filterMap_cons_none (by rw [countedLine?_eq, if_pos hi]), hnone, Nat.zero_add]
    · rw [List.filterMap_cons_some (by rw [countedLine?_eq, if_neg hi]), tally_cons]

theorem counted_nil_iff : cart.filterMap countedLine? = [] ↔ ∀ l ∈ cart, IsIdle l := by
  simp [countedLine?_eq]

end Counted

/-- What is reported of a cart in which nothing is asked for. -/
def nothingAsked : Failure :=
  .invalid "Add at least one item with a positive quantity to your cart"

theorem prepare_cases (cart : List OrderLine) :
    (prepare cart = .error nothingAsked ∧ ∀ l ∈ cart, IsIdle l) ∨
    (prepare cart = .ok (merge (cart.filterMap countedLine?)) ∧ ¬ ∀ l ∈ cart, IsIdle l) := by
  rw [← counted_nil_iff]
  have hnil : merge (cart.filterMap countedLine?) = [] ↔ cart.filterMap countedLine? = [] := by
    rw [← List.map_eq_nil_iff (f := OrderLine.sku), skus_merge_eq]
    cases cart.filterMap countedLine? with
    | nil => simp
    | cons l lines => simp [List.eraseDups_cons]
  unfold prepare
  split
  · rename_i h
    exact Or.inl ⟨rfl, hnil.mp h⟩
  · rename_i h
    exact Or.inr ⟨rfl, fun he => h (hnil.mpr he)⟩

/-- The lines are what the cart comes to. -/
structure Comes (cart lines : List OrderLine) : Prop where
  /-- One line for each SKU that counts, in the order in which they do so first. -/
  skus : lines.map OrderLine.sku = (countedSkus cart).eraseDups
  quantity : ∀ l ∈ lines, l.quantity.toNat = min (total cart l.sku) largestCount
  distinct : (lines.map OrderLine.sku).Nodup
  clean : ∀ l ∈ lines, Text.trim l.sku = l.sku ∧ l.sku ≠ "" ∧ 0 < l.quantity.toNat
  /-- There is nothing left to put in order. -/
  settled : prepare lines = .ok lines

theorem Orderly.settled {lines : List OrderLine} (h : Orderly lines) :
    prepare lines = .ok lines := by
  have hcounted : lines.filterMap countedLine? = lines := by
    refine (List.filterMap_congr fun l hl => ?_).trans List.filterMap_some
    have hblank : Text.isBlankText l.sku = false := by
      simpa [Text.isBlankText_eq, h.trimmed l hl] using (h.counts l hl).sku
    have hzero : l.quantity ≠ 0 := fun h0 => by simpa [h0] using (h.counts l hl).quantity
    rw [countedLine?_eq, if_neg (by simp [IsIdle, hblank, hzero]), h.trimmed l hl]
  rw [prepare, hcounted, merge_of_nodup lines h.distinct]
  cases lines with
  | nil => exact absurd rfl h.some
  | cons l lines => rfl

theorem comes_of_prepare {cart lines : List OrderLine} (h : prepare cart = .ok lines) :
    Comes cart lines := by
  have horderly := prepare_orderly h
  obtain ⟨_, rfl⟩ := prepare_ok h
  refine {
    skus := by rw [skus_merge_eq, skus_counted]
    quantity := ?_
    distinct := horderly.distinct
    clean := fun l hl =>
      ⟨horderly.trimmed l hl, (horderly.counts l hl).sku, (horderly.counts l hl).quantity⟩
    settled := horderly.settled }
  intro l hl
  rw [← tally_of_mem horderly.distinct hl, tally_merge,
    tally_counted cart (horderly.counts l hl).sku]

/-- A cart is refused just when no line of it asks for anything, and comes to lines in order
otherwise. In another order it is refused as well, or comes to the same lines in another order. -/
theorem prepare_comes (cart : List OrderLine) :
    (prepare cart = .error nothingAsked ↔ ∀ l ∈ cart, IsIdle l) ∧
    ((∃ l ∈ cart, ¬ IsIdle l) → ∃ lines, prepare cart = .ok lines ∧ Comes cart lines) ∧
    ∀ cart', cart.Perm cart' → Agree List.Perm (prepare cart) (prepare cart') := by
  refine ⟨?_, ?_, ?_⟩
  · rcases prepare_cases cart with ⟨hp, hall⟩ | ⟨hp, hsome⟩
    · exact ⟨fun _ => hall, fun _ => hp⟩
    · refine ⟨fun he => ?_, fun hall => absurd hall hsome⟩
      rw [hp] at he
      cases he
  · rintro ⟨l, hl, hcounts⟩
    rcases prepare_cases cart with ⟨_, hall⟩ | ⟨hp, _⟩
    · exact absurd (hall l hl) hcounts
    · exact ⟨_, hp, comes_of_prepare hp⟩
  · intro cart' hperm
    have hall : (∀ l ∈ cart', IsIdle l) ↔ ∀ l ∈ cart, IsIdle l := by
      simp only [hperm.mem_iff]
    rcases prepare_cases cart with ⟨hp, h⟩ | ⟨hp, h⟩ <;>
      rcases prepare_cases cart' with ⟨hp', h'⟩ | ⟨hp', h'⟩
    · rw [hp, hp']
      exact .error _
    · exact absurd (hall.mpr h) h'
    · exact absurd (hall.mp h') h
    · rw [hp, hp']
      exact .ok (merge_perm (hperm.filterMap countedLine?))

/-- Blanks that differ, a blank SKU and a count that has no more room. -/
theorem prepare_comes_milk :
    ∃ lines, prepare [⟨" MILK ", 2⟩, ⟨"EGGS", 1⟩, ⟨"  ", 3⟩, ⟨"MILK", 4294967295⟩] = .ok lines ∧
      Comes [⟨" MILK ", 2⟩, ⟨"EGGS", 1⟩, ⟨"  ", 3⟩, ⟨"MILK", 4294967295⟩] lines ∧
      lines = [⟨"MILK", 4294967295⟩, ⟨"EGGS", 1⟩] := by
  obtain ⟨-, hsome, -⟩ := prepare_comes
    [⟨" MILK ", 2⟩, ⟨"EGGS", 1⟩, ⟨"  ", 3⟩, ⟨"MILK", 4294967295⟩]
  obtain ⟨lines, hp, hcomes⟩ := hsome ⟨⟨"EGGS", 1⟩, by decide +kernel, by decide +kernel⟩
  refine ⟨lines, hp, hcomes, ?_⟩
  have hmerged : prepare [⟨" MILK ", 2⟩, ⟨"EGGS", 1⟩, ⟨"  ", 3⟩, ⟨"MILK", 4294967295⟩] =
      .ok [⟨"MILK", 4294967295⟩, ⟨"EGGS", 1⟩] := by decide +kernel
  exact Except.ok.inj (hp.symm.trans hmerged)

end Larder.Cart
