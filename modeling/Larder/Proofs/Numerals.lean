import Mathlib.Algebra.Group.Nat.Defs
import Mathlib.Data.List.TakeWhile
import Mathlib.Data.Nat.Digits.Defs
import Larder.Text.Numeral

namespace Larder.Text

/-- Nothing but digits. -/
def IsDigits (cs : List Char) : Prop := ∀ c ∈ cs, c.isDigit = true

/-- What follows does not go on with a digit. -/
def NoDigit (cs : List Char) : Prop := ∀ c ∈ cs.head?, c.isDigit = false

section Digits

variable {cs ds rest : List Char}

theorem IsDigits.append (h : IsDigits cs) (h' : IsDigits ds) : IsDigits (cs ++ ds) :=
  List.forall_mem_append.mpr ⟨h, h'⟩

theorem isDigits_replicate (n : Nat) : IsDigits (List.replicate n '0') := by
  intro c hc
  rw [List.eq_of_mem_replicate hc]
  decide

theorem isDigits_toDigits (n : Nat) : IsDigits (Nat.toDigits 10 n) :=
  fun _ hc => Nat.isDigit_of_mem_toDigits (by omega) (by omega) hc

@[simp] theorem noDigit_nil : NoDigit [] := by simp [NoDigit]

theorem NoDigit.take (h : NoDigit cs) (n : Nat) : NoDigit (cs.take n) := by
  intro c hc
  rw [List.head?_take] at hc
  split at hc
  · cases hc
  · exact h c hc

theorem noDigit_cons {c : Char} (h : c.isDigit = false) (cs : List Char) : NoDigit (c :: cs) := by
  simpa [NoDigit] using h

theorem takeWhile_digits (h : IsDigits cs) (hr : NoDigit rest) :
    (cs ++ rest).takeWhile Char.isDigit = cs := by
  rw [List.takeWhile_append_of_pos h]
  cases rest with
  | nil => simp
  | cons c r =>
    rw [List.takeWhile_cons_of_neg (by simpa [NoDigit] using hr), List.append_nil]

theorem dropWhile_digits (h : IsDigits cs) (hr : NoDigit rest) :
    (cs ++ rest).dropWhile Char.isDigit = rest := by
  rw [List.dropWhile_append_of_pos h]
  cases rest with
  | nil => rfl
  | cons c r => rw [List.dropWhile_cons_of_neg (by simpa [NoDigit] using hr)]

/-- Digits are all that counts in a run of digits, each of them for its place. -/
theorem digitsValue_digits (h : IsDigits cs) :
    digitsValue (cs.filterMap digit?) = Nat.ofDigitChars 10 cs 0 := by
  have hfold : ∀ n, (cs.filterMap digit?).foldl (fun n d => 10 * n + d) n =
      Nat.ofDigitChars 10 cs n := by
    induction cs with
    | nil => exact fun _ => rfl
    | cons c cs ih =>
      obtain ⟨hc, hcs⟩ := List.forall_mem_cons.mp h
      intro n
      rw [List.filterMap_cons_some (b := c.toNat - '0'.toNat) (by simp [digit?, hc]),
        List.foldl_cons, ih hcs, Nat.ofDigitChars_cons]
  exact hfold 0

/-- What a digit counts, wherever it stands. -/
def digitOf (c : Char) : Nat := c.toNat - '0'.toNat

theorem ofDigitChars_eq_ofDigits (cs : List Char) :
    Nat.ofDigitChars 10 cs 0 = Nat.ofDigits 10 (cs.map digitOf).reverse := by
  induction cs with
  | nil => rfl
  | cons c cs ih =>
    rw [Nat.ofDigitChars_cons, Nat.ofDigitChars_eq_ofDigitChars_zero, ih, List.map_cons,
      List.reverse_cons, Nat.ofDigits_append, Nat.ofDigits_singleton, List.length_reverse,
      List.length_map, Nat.mul_zero, Nat.zero_add, Nat.add_comm]
    rfl

theorem digitOf_eq {c : Char} (h : c.isDigit = true) :
    digitOf c + 48 = c.toNat ∧ digitOf c < 10 := by
  have hlow : 48 ≤ c.toNat := (Char.isDigit_iff_toNat.mp h).1
  have hhigh : c.toNat ≤ 57 := (Char.isDigit_iff_toNat.mp h).2
  have hvalue : digitOf c = c.toNat - 48 := rfl
  omega

theorem IsDigits.digits_lt (h : IsDigits cs) : ∀ n ∈ (cs.map digitOf).reverse, n < 10 := by
  intro n hn
  obtain ⟨c, hc, rfl⟩ := List.mem_map.mp (List.mem_reverse.mp hn)
  exact (digitOf_eq (h c hc)).2

theorem ofDigitChars_lt (h : IsDigits cs) : Nat.ofDigitChars 10 cs 0 < 10 ^ cs.length := by
  rw [ofDigitChars_eq_ofDigits]
  simpa using Nat.ofDigits_lt_base_pow_length (by decide) h.digits_lt

/-- Of one length, no two runs of digits write one number. -/
theorem IsDigits.eq_of_value (h : IsDigits cs) (h' : IsDigits ds) (hlength : cs.length = ds.length)
    (hvalue : Nat.ofDigitChars 10 cs 0 = Nat.ofDigitChars 10 ds 0) : cs = ds := by
  rw [ofDigitChars_eq_ofDigits, ofDigitChars_eq_ofDigits] at hvalue
  have hdigits := List.reverse_inj.mp <| Nat.ofDigits_inj_of_len_eq (by decide)
    (by simpa using hlength) h.digits_lt h'.digits_lt hvalue
  refine List.ext_getElem hlength fun i hi hi' => ?_
  have hdigit : digitOf cs[i] = digitOf ds[i] := by
    simpa [hi, hi'] using congrArg (·[i]?) hdigits
  have hc := digitOf_eq (h _ (List.getElem_mem hi))
  have hd := digitOf_eq (h' _ (List.getElem_mem hi'))
  exact Char.toNat_inj.mp (by omega)

theorem length_filterMap_digit? (h : IsDigits cs) : (cs.filterMap digit?).length = cs.length := by
  induction cs with
  | nil => rfl
  | cons c cs ih =>
    obtain ⟨hc, hcs⟩ := List.forall_mem_cons.mp h
    simp [digit?, hc, ih hcs]

end Digits

section Padded

theorem toString_toList (n : Nat) : (toString n).toList = Nat.toDigits 10 n := by
  rw [Nat.toString_eq_ofList_toDigits, String.toList_ofList]

theorem padded_toList (width n : Nat) : (padded width n).toList =
    List.replicate (width - (Nat.toDigits 10 n).length) '0' ++ Nat.toDigits 10 n := by
  rw [padded, padStart, String.toList_append, String.toList_ofList, ← String.length_toList,
    toString_toList]

theorem isDigits_padded (width n : Nat) : IsDigits (padded width n).toList := by
  rw [padded_toList]
  exact (isDigits_replicate _).append (isDigits_toDigits n)

theorem ofDigitChars_padded (width n : Nat) :
    Nat.ofDigitChars 10 (padded width n).toList 0 = n := by
  rw [padded_toList, Nat.ofDigitChars_append, Nat.ofDigitChars_replicate_zero, Nat.mul_zero,
    Nat.ofDigitChars_ten_toDigits]

theorem padded_length_le {width n : Nat} (hw : 0 < width) (h : n < 10 ^ width) :
    (padded width n).toList.length = width := by
  have hlength := (Nat.length_toDigits_le_iff (b := 10) (by omega) hw).mpr h
  rw [padded_toList, List.length_append, List.length_replicate]
  omega

theorem padded_ne_nil (width n : Nat) : (padded width n).toList ≠ [] := by
  simp [padded_toList]

end Padded

/-- Only zero is written with a zero in front. -/
theorem head_toDigits {n : Nat} (h : 0 < n) : (Nat.toDigits 10 n).head? ≠ some '0' := by
  induction n using Nat.strongRecOn with
  | ind n ih =>
    rw [Nat.toDigits_eq_if (by omega)]
    split
    · rw [List.head?_singleton, ne_eq, Option.some.injEq, Nat.digitChar_eq_zero]
      omega
    · have hhigh := ih (n / 10) (by omega) (by omega)
      obtain ⟨c, r, hc⟩ := List.exists_cons_of_ne_nil (Nat.toDigits_ne_nil (n := n / 10) (b := 10))
      rw [hc] at hhigh ⊢
      exact hhigh

section Counts

variable {cs : List Char}

theorem mapM_digit?_eq_some_iff {ds : List Nat} :
    cs.mapM digit? = some ds ↔ IsDigits cs ∧ cs.filterMap digit? = ds := by
  induction cs generalizing ds with
  | nil => simp [IsDigits]
  | cons c cs ih =>
    rw [List.mapM_cons, IsDigits, List.forall_mem_cons, ← IsDigits]
    cases hc : c.isDigit with
    | false => simp [digit?, hc]
    | true =>
      have hd : digit? c = some (digitOf c) := by rw [digit?, if_pos hc]; rfl
      rw [List.filterMap_cons_some hd, hd]
      simp only [Option.bind_eq_bind, Option.bind_some, Option.bind_eq_some_iff, ih]
      constructor
      · rintro ⟨_, ⟨h, rfl⟩, he⟩
        exact ⟨⟨trivial, h⟩, Option.some.inj he⟩
      · rintro ⟨⟨_, h⟩, rfl⟩
        exact ⟨_, ⟨h, rfl⟩, rfl⟩

theorem natOfChars?_eq_some_iff {n : Nat} : natOfChars? cs = some n ↔
    IsDigits cs ∧ cs ≠ [] ∧ Nat.ofDigitChars 10 cs 0 = n := by
  unfold natOfChars?
  split
  · rename_i hnil
    simp [List.isEmpty_iff.mp hnil]
  · rename_i hne
    rw [List.isEmpty_iff] at hne
    simp only [Option.map_eq_some_iff, mapM_digit?_eq_some_iff]
    constructor
    · rintro ⟨_, ⟨h, rfl⟩, rfl⟩
      exact ⟨h, hne, (digitsValue_digits h).symm⟩
    · rintro ⟨h, _, rfl⟩
      exact ⟨_, ⟨h, rfl⟩, digitsValue_digits h⟩

/-- A count in the way it may be written: in digits, with or without a plus sign in front. -/
inductive WritesCount : List Char → Nat → Prop where
  | plain {cs : List Char} (h : IsDigits cs) (hne : cs ≠ []) :
      WritesCount cs (Nat.ofDigitChars 10 cs 0)
  | signed {cs : List Char} (h : IsDigits cs) (hne : cs ≠ []) :
      WritesCount ('+' :: cs) (Nat.ofDigitChars 10 cs 0)

/-- The digits that a number is written in write it. -/
theorem writesCount_toDigits (n : Nat) : WritesCount (Nat.toDigits 10 n) n := by
  have h := WritesCount.plain (Text.isDigits_toDigits n) Nat.toDigits_ne_nil
  rw [Nat.ofDigitChars_ten_toDigits] at h
  exact h

/-- What is read as a count is written as one, and does not go beyond the bound. -/
theorem count?_eq_some_iff {bound n : Nat} {s : String} :
    count? bound s = some n ↔ WritesCount s.toList n ∧ n ≤ bound := by
  unfold count?
  generalize s.toList = cs
  simp only [Option.filter_eq_some_iff, decide_eq_true_eq, natOfChars?_eq_some_iff]
  refine and_congr_left fun _ => ?_
  split
  · rename_i r
    constructor
    · rintro ⟨h, hne, rfl⟩
      exact .signed h hne
    · intro h
      cases h with
      | plain h => exact absurd (h '+' List.mem_cons_self) (by decide)
      | signed h hne => exact ⟨h, hne, rfl⟩
  · rename_i hplus
    constructor
    · rintro ⟨h, hne, rfl⟩
      exact .plain h hne
    · intro h
      cases h with
      | plain h hne => exact ⟨h, hne, rfl⟩
      | signed h hne => exact absurd rfl (hplus _)

end Counts

end Larder.Text
