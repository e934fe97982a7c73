import Larder.Calendar.Reading
import Larder.Proofs.Numerals
import Larder.Proofs.Trimming

namespace Larder.Calendar

open Text (IsDigits NoDigit dropBlanks isBlank isBlank_digit dropBlanks_cons)

theorem dropBlanks_digits {cs : List Char} (h : IsDigits cs) (hne : cs ≠ []) (rest : List Char) :
    dropBlanks (cs ++ rest) = cs ++ rest := by
  obtain ⟨c, r, rfl⟩ := List.exists_cons_of_ne_nil hne
  exact dropBlanks_cons (isBlank_digit (h c (by simp))) _

/-- A sign in front of a text is the first of its characters. -/
theorem append_sign {sign : String} {c : Char} (h : sign.toList = [c]) (s : String)
    (rest : List Char) : (sign ++ s).toList ++ rest = c :: (s.toList ++ rest) := by
  rw [String.toList_append, h, List.singleton_append, List.cons_append]

namespace Scan

section Numbers

variable {n : Nat} {rest : List Char}

/-- A number is read whole where its digits end or no more of them are allowed. -/
theorem digits_run {limit : Nat} {cs : List Char} (h : IsDigits cs) (hne : cs ≠ [])
    (hl : cs.length ≤ limit) (hr : NoDigit (rest.take (limit - cs.length)))
    (hb : Nat.ofDigitChars 10 cs 0 < numberBound) :
    digits limit (cs ++ rest) = .ok (Nat.ofDigitChars 10 cs 0, rest) := by
  have htake : ((cs ++ rest).take limit).takeWhile Char.isDigit = cs := by
    rw [List.take_append, List.take_of_length_le hl, Text.takeWhile_digits h hr]
  rw [← Text.digitsValue_digits h] at hb ⊢
  obtain ⟨c, r, rfl⟩ := List.exists_cons_of_ne_nil hne
  simp only [digits, htake, hb, ↓reduceIte, List.drop_left]
  rfl

theorem digits_padded {width limit : Nat} (hl : (Text.padded width n).toList.length ≤ limit)
    (hr : NoDigit (rest.take (limit - (Text.padded width n).toList.length)))
    (hn : n < numberBound) :
    digits limit ((Text.padded width n).toList ++ rest) = .ok (n, rest) := by
  have hrun := digits_run (Text.isDigits_padded width n) (Text.padded_ne_nil width n) hl hr
  rw [Text.ofDigitChars_padded] at hrun
  exact hrun hn

/-- Behind as many digits as are allowed there may be anything. -/
theorem digits_filled {width : Nat} (hw : 0 < width) (hn : n < 10 ^ width) (hb : n < numberBound)
    (rest : List Char) : digits width ((Text.padded width n).toList ++ rest) = .ok (n, rest) := by
  have hlength := Text.padded_length_le hw hn
  exact digits_padded hlength.le (by simp [hlength]) hb

theorem twoDigits_padded {low high : Nat} (hlow : low ≤ n) (hhigh : n ≤ high) (hn : n < 100) :
    twoDigits low high ((Text.padded 2 n).toList ++ rest) = .ok (n, rest) := by
  have hdigits := digits_filled Nat.two_pos hn (Nat.lt_trans hn (by decide)) rest
  rw [twoDigits, dropBlanks_digits (Text.isDigits_padded 2 n) (Text.padded_ne_nil 2 n), hdigits]
  exact if_pos ⟨hlow, hhigh⟩

theorem separator_cons {c : Char} (h : isBlank c = false) (cs : List Char) :
    separator c (c :: cs) = .ok ((), cs) := by
  simp [separator, dropBlanks_cons h]

/-- Behind a sign, a year is read up to the end of its digits. -/
theorem year_signed (negative : Bool) (hr : NoDigit rest) (hn : n < 0x80000000) :
    year ((if negative then '-' else '+') :: ((Text.padded 4 n).toList ++ rest)) =
      .ok (if negative then -(n : Int) else n, rest) := by
  have hdigits : digits ((Text.padded 4 n).toList ++ rest).length
      ((Text.padded 4 n).toList ++ rest) = .ok (n, rest) :=
    digits_padded (by simp) (by simpa) (Nat.lt_trans hn (by decide))
  have hrange : (-0x80000000 : Int) ≤ n ∧ (n : Int) < 0x80000000 := by omega
  have hnegative : (-0x80000000 : Int) ≤ -n ∧ -(n : Int) < 0x80000000 := by omega
  have hminus : isBlank '-' = false := by decide
  have hplus : isBlank '+' = false := by decide
  cases negative
  · simp only [year, Bool.false_eq_true, ↓reduceIte, dropBlanks_cons hplus, hdigits, Except.map,
      bind, Except.bind, hrange, and_self]
  · simp only [year, ↓reduceIte, dropBlanks_cons hminus, hdigits, Except.map, bind, Except.bind,
      hnegative, and_self]

theorem year_plain (hn : n ≤ 9999) :
    year ((Text.padded 4 n).toList ++ rest) = .ok ((n : Int), rest) := by
  have hfour : 0 < 4 := by decide
  have hdigits := digits_filled hfour (by omega) (Nat.lt_of_le_of_lt hn (by decide)) rest
  have hdrop := dropBlanks_digits (Text.isDigits_padded 4 n) (Text.padded_ne_nil 4 n) rest
  have hrange : (-0x80000000 : Int) ≤ n ∧ (n : Int) < 0x80000000 := by omega
  obtain ⟨c, r, hc⟩ := List.exists_cons_of_ne_nil (Text.padded_ne_nil 4 n)
  have hdigit : c.isDigit = true := Text.isDigits_padded 4 n c (by simp [hc])
  have hminus : c ≠ '-' := by
    rintro rfl
    cases hdigit
  have hplus : c ≠ '+' := by
    rintro rfl
    cases hdigit
  rw [hc, List.cons_append] at hdigits hdrop ⊢
  simp only [year, hdrop]
  simp [hminus, hplus, hdigits, Except.map, bind, Except.bind, hrange]

/-- With its sign or in its four digits, a year is read up to the separator behind it. -/
theorem year_yearText {y : Int} (hfirst : firstYear ≤ y) (hlast : y ≤ lastYear)
    (hr : NoDigit rest) : year ((yearText y).toList ++ rest) = .ok (y, rest) := by
  have hsmall : y.natAbs < 0x80000000 := by
    unfold firstYear at hfirst
    unfold lastYear at hlast
    omega
  unfold yearText
  by_cases hy : 0 ≤ y ∧ y ≤ 9999
  · rw [if_pos hy, year_plain (by omega), Int.natAbs_of_nonneg hy.1]
  · rw [if_neg hy]
    by_cases hneg : y < 0
    · have hsigned := year_signed true hr hsmall
      have habs : -(y.natAbs : Int) = y := by omega
      rw [if_pos rfl, if_pos rfl, habs] at hsigned
      rw [if_pos hneg, append_sign (show "-".toList = ['-'] from rfl)]
      exact hsigned
    · have hsigned := year_signed false hr hsmall
      have habs : (y.natAbs : Int) = y := by omega
      rw [if_neg Bool.false_ne_true, if_neg Bool.false_ne_true, habs] at hsigned
      rw [if_neg hneg, append_sign (show "+".toList = ['+'] from rfl)]
      exact hsigned

end Numbers

theorem day_le (d : Date) : d.day ≤ 31 := by
  obtain ⟨-, -, -, -, -, hday⟩ := d.isDay
  refine Nat.le_trans hday ?_
  unfold daysInMonth
  split
  · split <;> decide
  all_goals decide

theorem dateParts_text (d : Date) (rest : List Char) :
    dateParts (d.text.toList ++ rest) = .ok ((d.year, d.month, d.day), rest) := by
  obtain ⟨hfirst, hlast, hmonth, hmonth', hday, -⟩ := d.isDay
  have hday' := day_le d
  have hminus : isBlank '-' = false := by decide
  have hdigit : Char.isDigit '-' = false := by decide
  have htext : d.text.toList ++ rest = (yearText d.year).toList ++ ('-' ::
      ((Text.padded 2 d.month).toList ++ ('-' :: ((Text.padded 2 d.day).toList ++ rest)))) := by
    simp [Date.text]
  simp only [htext, dateParts, year_yearText hfirst hlast (Text.noDigit_cons hdigit _),
    separator_cons hminus, twoDigits_padded hmonth hmonth' (by omega),
    twoDigits_padded hday hday' (by omega), bind, Except.bind]

section Fractions

variable {rest : List Char}

/-- Nine digits of a fraction are told apart, the others are passed over. -/
theorem fraction_run {cs : List Char} (h : IsDigits cs) (hne : cs ≠ []) (hr : NoDigit rest) :
    fraction ('.' :: (cs ++ rest)) =
      .ok (Nat.ofDigitChars 10 (cs.take 9) 0 * 10 ^ (9 - cs.length), rest) := by
  have hfirst : IsDigits (cs.take 9) := fun c hc => h c (List.mem_of_mem_take hc)
  have hothers : IsDigits (cs.drop 9) := fun c hc => h c (List.mem_of_mem_drop hc)
  have hlength : (cs.take 9).length = min 9 cs.length := List.length_take
  have hend : NoDigit ((cs.drop 9 ++ rest).take (9 - (cs.take 9).length)) := by
    by_cases hshort : cs.length ≤ 9
    · rw [List.drop_of_length_le hshort, List.nil_append]
      exact hr.take _
    · have hnone : 9 - (cs.take 9).length = 0 := by omega
      rw [hnone, List.take_zero]
      exact Text.noDigit_nil
  have hbound : Nat.ofDigitChars 10 (cs.take 9) 0 < numberBound := by
    refine Nat.lt_of_lt_of_le (Text.ofDigitChars_lt hfirst) ?_
    refine Nat.le_trans (Nat.pow_le_pow_right (by omega) (show _ ≤ 9 by omega)) ?_
    decide
  have hrun := digits_run hfirst (by simpa using hne) (by omega) hend hbound
  rw [← List.append_assoc, List.take_append_drop] at hrun
  have hdrop : (cs.drop 9 ++ rest).dropWhile Char.isDigit = rest := Text.dropWhile_digits hothers hr
  have hwidth : 9 - ((cs ++ rest).length - (cs.drop 9 ++ rest).length) = 9 - cs.length := by
    simp only [List.length_append, List.length_drop]
    omega
  simp only [fraction, hrun, bind, Except.bind, hwidth, hdrop]
  rfl

theorem fraction_padded (width n : Nat) (hw : 0 < width) (hw' : width ≤ 9) (hn : n < 10 ^ width)
    (hr : NoDigit rest) : fraction ('.' :: ((Text.padded width n).toList ++ rest)) =
      .ok (n * 10 ^ (9 - width), rest) := by
  have hlength := Text.padded_length_le hw hn
  have hrun := fraction_run (Text.isDigits_padded width n) (Text.padded_ne_nil width n) hr
  rwa [List.take_of_length_le (by omega), Text.ofDigitChars_padded, hlength] at hrun

/-- However many digits a fraction is given, none of it is lost. -/
theorem fraction_fractionText {nanosecond : Nat} (h : nanosecond < 1000000000)
    (hr : NoDigit rest) (hp : rest.head? ≠ some '.') :
    fraction ((Timestamp.fractionText nanosecond).toList ++ rest) = .ok (nanosecond, rest) := by
  unfold Timestamp.fractionText
  split
  · rename_i hzero
    have hplain : fraction rest = .ok (0, rest) := by
      unfold fraction
      split
      · exact absurd rfl hp
      · rfl
    simpa [hzero] using hplain
  · split
    · have hthree := fraction_padded 3 (nanosecond / 1000000) (by omega) (by omega) (by omega) hr
      have hvalue : nanosecond / 1000000 * 10 ^ (9 - 3) = nanosecond := by omega
      rw [hvalue] at hthree
      rw [append_sign (show ".".toList = ['.'] from rfl)]
      exact hthree
    · split
      · have hsix := fraction_padded 6 (nanosecond / 1000) (by omega) (by omega) (by omega) hr
        have hvalue : nanosecond / 1000 * 10 ^ (9 - 6) = nanosecond := by omega
        rw [hvalue] at hsix
        rw [append_sign (show ".".toList = ['.'] from rfl)]
        exact hsix
      · have hnine := fraction_padded 9 nanosecond (by omega) (by omega) (by omega) hr
        rw [Nat.sub_self, Nat.pow_zero, Nat.mul_one] at hnine
        rw [append_sign (show ".".toList = ['.'] from rfl)]
        exact hnine

end Fractions

end Scan

theorem Date.ofParts?_parts (d : Date) : Date.ofParts? d.year d.month d.day = some d := by
  rw [Date.ofParts?, dif_pos d.isDay]

/-- Every day of the calendar is read back. -/
theorem Date.read_text (d : Date) : Date.read d.text = .ok d := by
  have hparts := Scan.dateParts_text d []
  rw [List.append_nil] at hparts
  simp only [Date.read, hparts, bind, Except.bind, Date.ofParts?_parts]
  rfl

/-- Universal time stays as it is. -/
theorem Timestamp.ofLocal?_universal (t : Timestamp) :
    Timestamp.ofLocal? t.date t.minuteOfDay t.second t.nanosecond 0 = some t := by
  have hlt : ((t.minuteOfDay.val : Nat) : Int) < 1440 := by omega
  have hday : ((t.minuteOfDay.val : Nat) : Int).ediv 1440 = 0 :=
    Int.ediv_eq_zero_of_lt (by omega) hlt
  have hminute : ((t.minuteOfDay.val : Nat) : Int).emod 1440 = t.minuteOfDay.val :=
    Int.emod_eq_of_lt (by omega) hlt
  have hsame : Fin.ofNat 1440 t.minuteOfDay.val = t.minuteOfDay := Fin.ofNat_val_eq_self _
  simp only [Timestamp.ofLocal?, Int.sub_zero, hday, hminute, Int.toNat_natCast, hsame]
  rfl

/-- A local reading of a clock, with its offset, is brought to universal time. -/
theorem Timestamp.read_local {s : String} {here t : Timestamp} {mark : Char}
    {fraction zone : List Char} {offset : Int} (hs : s.toList = here.date.text.toList ++
      (mark :: ((Text.padded 2 here.hour).toList ++ (':' :: ((Text.padded 2 here.minute).toList ++
        (':' :: ((Text.padded 2 here.second.val).toList ++ (fraction ++ zone))))))))
    (hmark : mark = 'T' ∨ mark = 't')
    (hfraction : Scan.fraction (fraction ++ zone) = .ok (here.nanosecond.val, zone))
    (hzone : Scan.offset zone = .ok (offset, [])) (hnear : offset.natAbs < 1440)
    (ht : ofLocal? here.date here.minuteOfDay here.second here.nanosecond offset = some t) :
    Timestamp.read s = .ok t := by
  have hhour : here.hour ≤ 23 := by
    have hday := here.minuteOfDay.isLt
    unfold Timestamp.hour
    omega
  have hminute : here.minute ≤ 59 := by
    unfold Timestamp.minute
    omega
  have hsecond : here.second.val ≤ 60 := by omega
  have hclock : here.hour * 60 + here.minute = here.minuteOfDay.val := by
    unfold Timestamp.hour Timestamp.minute
    omega
  have hcolon : isBlank ':' = false := by decide
  have hmark : ∀ cs, Scan.timeMark (mark :: cs) = .ok ((), cs) := by
    rcases hmark with rfl | rfl <;> exact fun _ => rfl
  simp only [Timestamp.read, hs, Scan.dateParts_text, hmark,
    Scan.twoDigits_padded (Nat.zero_le _) hhour (by omega),
    Scan.twoDigits_padded (Nat.zero_le _) hminute (by omega),
    Scan.twoDigits_padded (Nat.zero_le _) hsecond (by omega), Scan.separator_cons hcolon, hfraction,
    hzone, bind, Except.bind, Date.ofParts?_parts, hclock]
  have hend : (!(dropBlanks []).isEmpty) = false := rfl
  have hnear : ¬ offset.natAbs ≥ 1440 := Nat.not_le.mpr hnear
  simp only [hend, hnear, Bool.false_eq_true, ↓reduceIte, Nat.mod_eq_of_lt here.minuteOfDay.isLt,
    Nat.mod_eq_of_lt here.second.isLt, Nat.mod_eq_of_lt here.nanosecond.isLt, Fin.eta, ht]

/-- So is every moment of universal time. -/
theorem Timestamp.read_text (t : Timestamp) : Timestamp.read t.text = .ok t := by
  have hfraction : Scan.fraction ((Timestamp.fractionText t.nanosecond.val).toList ++ ['Z']) =
      .ok (t.nanosecond.val, ['Z']) :=
    Scan.fraction_fractionText t.nanosecond.isLt (Text.noDigit_cons (by decide) _) (by decide)
  exact read_local (by simp [Timestamp.text]) (.inl rfl) hfraction rfl (by decide)
    (ofLocal?_universal t)

end Larder.Calendar
