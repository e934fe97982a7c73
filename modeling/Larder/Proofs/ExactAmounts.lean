import Larder.Decimal
import Mathlib.Data.Rat.Cast.Order
import Mathlib.Tactic.Positivity
import Mathlib.Tactic.Ring

namespace Larder.Decimal

/-- The amount itself. -/
def value (d : Decimal) : ℚ := d.coefficient / 10 ^ d.scale

/-- The amount is so many units of `10 ^ -scale`. -/
structure Counts (d : Decimal) (scale n : Nat) : Prop where
  scale_le : d.scale ≤ scale
  units : d.coefficientAt scale = n

variable {a b d : Decimal} {scale k m n q : Nat}

theorem zero_counts (scale : Nat) : zero.Counts scale 0 where
  scale_le := Nat.zero_le scale
  units := by simp [coefficientAt, coefficient, zero]

theorem Counts.value_mul (h : d.Counts scale n) : d.value * 10 ^ scale = n := by
  have hsplit : (10 : ℚ) ^ scale = 10 ^ d.scale * 10 ^ (scale - d.scale) := by
    rw [← pow_add, Nat.add_sub_cancel' h.scale_le]
  have hunits : (d.coefficient : ℚ) * 10 ^ (scale - d.scale) = n := by
    have hcast := congrArg (Int.cast (R := ℚ)) h.units
    simpa [coefficientAt] using hcast
  rw [value, hsplit, ← mul_assoc, div_mul_cancel₀ _ (by positivity), hunits]

/-- An amount that is not below zero counts some units of every scale that is fine enough. -/
theorem counts_of_nonneg (hs : d.scale ≤ scale) (hd : 0 ≤ d.value) :
    ∃ n, d.Counts scale n := by
  have hpos : (0 : ℚ) < 10 ^ d.scale := by positivity
  have hcoefficient : 0 ≤ d.coefficient := by
    have hq : (0 : ℚ) ≤ d.coefficient := by
      have h := mul_nonneg hd hpos.le
      rwa [value, div_mul_cancel₀ _ hpos.ne'] at h
    exact_mod_cast hq
  have hunits : 0 ≤ d.coefficientAt scale :=
    Int.mul_nonneg hcoefficient (Int.natCast_nonneg _)
  exact ⟨_, hs, (Int.toNat_of_nonneg hunits).symm⟩

/-- The coefficient counts the units of the amount's own scale. -/
theorem Counts.coefficient (h : d.Counts scale n) :
    ∃ k : Nat, d.coefficient = k ∧ k * 10 ^ (scale - d.scale) = n := by
  have hunits : d.coefficient * ((10 ^ (scale - d.scale) : Nat) : Int) = n := h.units
  have hpos : (0 : Int) < ((10 ^ (scale - d.scale) : Nat) : Int) := by positivity
  have hnonneg : 0 ≤ d.coefficient := by
    by_contra hneg
    have hbelow := Int.mul_neg_of_neg_of_pos (Int.not_le.mp hneg) hpos
    omega
  obtain ⟨k, hk⟩ := Int.eq_ofNat_of_zero_le hnonneg
  refine ⟨k, hk, ?_⟩
  rw [hk] at hunits
  exact_mod_cast hunits

theorem placesToDrop_of_lt (h : k < sizeBound) (fuel : Nat) : placesToDrop k fuel 0 = 0 := by
  cases fuel with
  | zero => rfl
  | succ fuel =>
    unfold placesToDrop
    rw [if_pos]
    simpa using h

theorem roundHalfEven_one (k : Nat) : roundHalfEven k 1 = k := by
  simp [roundHalfEven, Nat.mod_one]

/-- What fits is not rounded. -/
theorem fit?_exact (hk : k < sizeBound) (hs : scale ≤ maxScale) :
    fit? k scale = some ⟨false, k, scale, hk, hs⟩ := by
  have hdrop : scale - maxScale = 0 := Nat.sub_eq_zero_of_le hs
  have hsize : fitSize? k scale = some (k, scale) := by
    simp only [fitSize?, hdrop, placesToDrop_of_lt hk, Nat.not_lt_zero, if_false]
    rw [show Nat.pow 10 0 = 1 from rfl, roundHalfEven_one, if_pos hk, Nat.sub_zero]
  have hsign : ¬ (k : Int) < 0 := by omega
  simp only [fit?, Int.natAbs_natCast, hsize, hsign, if_false, Option.bind_eq_bind,
    Option.bind_some, ofParts?, ofSize?, decide_false]
  rw [dif_pos ⟨hk, hs⟩]

theorem ofInt?_natCast (h : n < sizeBound) :
    ofInt? n = some ⟨false, n, 0, h, Nat.zero_le _⟩ := by
  have hsign : ¬ (n : Int) < 0 := by omega
  simp only [ofInt?, ofParts?, ofSize?, Int.natAbs_natCast, hsign, decide_false]
  rw [dif_pos ⟨h, Nat.zero_le _⟩]

theorem counts_written {places : Nat} (hk : k < sizeBound) (hs : places ≤ maxScale)
    (hle : places ≤ scale) :
    Counts ⟨false, k, places, hk, hs⟩ scale (k * 10 ^ (scale - places)) where
  scale_le := hle
  units := by simp [coefficientAt, Decimal.coefficient]

/-- A result that comes to few enough units is kept as it is. -/
theorem fit?_counts {places : Nat} (hs : places ≤ maxScale) (hle : places ≤ scale)
    (hk : k * 10 ^ (scale - places) = n) (hn : n < sizeBound) :
    ∃ c, fit? k places = some c ∧ c.Counts scale n := by
  have hfits : k < sizeBound :=
    Nat.lt_of_le_of_lt (hk ▸ Nat.le_mul_of_pos_right k (by positivity)) hn
  refine ⟨_, fit?_exact hfits hs, ?_⟩
  have hcount := counts_written hfits hs hle
  rwa [hk] at hcount

theorem Counts.eq_zero (h : d.Counts scale n) (hz : d.isZero = true) : n = 0 := by
  obtain ⟨k, hk, rfl⟩ := h.coefficient
  have hsize : d.size = 0 := by simpa [isZero] using hz
  have hzero : k = 0 := by
    unfold Decimal.coefficient at hk
    split at hk <;> omega
  simp [hzero]

/-- So many times an amount counts so many times its units. -/
theorem Counts.mul (ha : a.Counts scale n) (hb : b.Counts 0 q) (h : q * n < sizeBound) :
    ∃ c, a.mul? b = some c ∧ c.Counts scale (q * n) := by
  unfold mul?
  split
  · rename_i hz
    refine ⟨zero, rfl, ?_⟩
    have hnone : q * n = 0 := by
      rcases Bool.or_eq_true _ _ |>.mp hz with hz | hz
      · rw [ha.eq_zero hz, Nat.mul_zero]
      · rw [hb.eq_zero hz, Nat.zero_mul]
    rw [hnone]
    exact zero_counts scale
  · obtain ⟨k, hk, rfl⟩ := ha.coefficient
    obtain ⟨j, hj, rfl⟩ := hb.coefficient
    have hbs : b.scale = 0 := Nat.le_zero.mp hb.scale_le
    have hproduct : a.coefficient * b.coefficient = ((k * j : Nat) : Int) := by
      rw [hk, hj, Int.natCast_mul]
    have hplaces : a.scale + b.scale = a.scale := by rw [hbs, Nat.add_zero]
    have hunits : k * j * 10 ^ (scale - a.scale) =
        j * 10 ^ (0 - b.scale) * (k * 10 ^ (scale - a.scale)) := by
      rw [hbs]
      ring
    rw [hproduct, hplaces]
    exact fit?_counts a.scale_le ha.scale_le hunits h

/-- The units of a sum are those of both amounts. -/
theorem Counts.add (ha : a.Counts scale m) (hb : b.Counts scale n) (h : m + n < sizeBound) :
    ∃ c, a.add? b = some c ∧ c.Counts scale (m + n) := by
  unfold add?
  split
  · rename_i hz
    rw [ha.eq_zero hz, Nat.zero_add]
    exact ⟨b, rfl, hb⟩
  · split
    · rename_i hz
      rw [hb.eq_zero hz, Nat.add_zero]
      exact ⟨a, rfl, ha⟩
    · obtain ⟨k, hk, rfl⟩ := ha.coefficient
      obtain ⟨j, hj, rfl⟩ := hb.coefficient
      -- both amounts are written at the larger of their scales, which is no finer than `scale`
      let top := max a.scale b.scale
      let size := k * 10 ^ (top - a.scale) + j * 10 ^ (top - b.scale)
      have htop : top ≤ scale := Nat.max_le.mpr ⟨ha.scale_le, hb.scale_le⟩
      have hmax : top ≤ maxScale := Nat.max_le.mpr ⟨a.scale_le, b.scale_le⟩
      have hunits : size * 10 ^ (scale - top) =
          k * 10 ^ (scale - a.scale) + j * 10 ^ (scale - b.scale) := by
        have hleft : scale - a.scale = top - a.scale + (scale - top) := by omega
        have hright : scale - b.scale = top - b.scale + (scale - top) := by omega
        rw [hleft, hright, pow_add, pow_add]
        ring
      have hsum : a.coefficientAt top + b.coefficientAt top = (size : Int) := by
        simp [coefficientAt, hk, hj, size]
      change ∃ c, fit? (a.coefficientAt top + b.coefficientAt top) top = some c ∧ _
      rw [hsum]
      exact fit?_counts hmax htop hunits h

end Larder.Decimal
