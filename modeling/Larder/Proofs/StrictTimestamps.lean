import Larder.Proofs.CalendarTexts

namespace Larder.Calendar

open Text (IsDigits NoDigit isBlank_digit dropBlanks_cons)

/-- Just so many digits, and the number that they write. -/
structure Numeral (width n : Nat) (cs : List Char) : Prop where
  digits : IsDigits cs
  length : cs.length = width
  value : Nat.ofDigitChars 10 cs 0 = n

/-- `full-date = date-fullyear "-" date-month "-" date-mday`, where `date-fullyear = 4DIGIT`. -/
inductive FullDate (d : Date) : List Char → Prop where
  | intro {y : Nat} {year month day : List Char} (hy : d.year = y) (hyear : Numeral 4 y year)
      (hmonth : Numeral 2 d.month month) (hday : Numeral 2 d.day day) :
      FullDate d (year ++ '-' :: (month ++ '-' :: day))

/-- `[time-secfrac]`, where `time-secfrac = "." 1*DIGIT`, in nanoseconds. What the digits after the
ninth say is less than one of these. -/
inductive Fraction : Nat → List Char → Prop where
  | whole : Fraction 0 []
  | digits {cs : List Char} (h : IsDigits cs) (hne : cs ≠ []) :
      Fraction (Nat.ofDigitChars 10 (cs.take 9) 0 * 10 ^ (9 - cs.length)) ('.' :: cs)

/-- `time-offset = "Z" / time-numoffset`, where `time-numoffset = ("+" / "-") time-hour ":"
time-minute`, in minutes. -/
inductive Offset : Int → List Char → Prop where
  | universal {c : Char} (h : c = 'Z' ∨ c = 'z') : Offset 0 [c]
  | ahead {n : Nat} {hour minute : List Char} (hn : n < 1440) (hhour : Numeral 2 (n / 60) hour)
      (hminute : Numeral 2 (n % 60) minute) : Offset n ('+' :: (hour ++ ':' :: minute))
  | behind {n : Nat} {hour minute : List Char} (hn : n < 1440) (hhour : Numeral 2 (n / 60) hour)
      (hminute : Numeral 2 (n % 60) minute) : Offset (-n) ('-' :: (hour ++ ':' :: minute))

/-- `date-time = full-date "T" full-time`: the date and the time that a clock shows and the offset
of the clock, which together make the moment. Letters may be small. -/
inductive Denotes : String → Timestamp → Prop where
  | intro {here t : Timestamp} {offset : Int} {mark : Char}
      {date hour minute second fraction zone : List Char}
      (hdate : FullDate here.date date) (hmark : mark = 'T' ∨ mark = 't')
      (hhour : Numeral 2 here.hour hour) (hminute : Numeral 2 here.minute minute)
      (hsecond : Numeral 2 here.second.val second)
      (hfraction : Fraction here.nanosecond.val fraction) (hzone : Offset offset zone)
      (ht : Timestamp.ofLocal? here.date here.minuteOfDay here.second here.nanosecond offset =
        some t) :
      Denotes (String.ofList (date ++ (mark :: (hour ++ (':' :: (minute ++ (':' :: (second ++
        (fraction ++ zone))))))))) t

section Numerals

variable {width n : Nat} {cs ds : List Char}

theorem Numeral.unique (h : Numeral width n cs) (h' : Numeral width n ds) : cs = ds :=
  h.digits.eq_of_value h'.digits (h.length.trans h'.length.symm) (h.value.trans h'.value.symm)

theorem numeral_padded (hw : 0 < width) (hn : n < 10 ^ width) :
    Numeral width n (Text.padded width n).toList :=
  ⟨Text.isDigits_padded width n, Text.padded_length_le hw hn, Text.ofDigitChars_padded width n⟩

theorem Numeral.exists_cons (hw : 0 < width) (h : Numeral width n cs) :
    ∃ c r, cs = c :: r ∧ c.isDigit = true := by
  cases cs with
  | nil => exact absurd h.length hw.ne
  | cons c r => exact ⟨c, r, rfl, h.digits c (by simp)⟩

theorem Numeral.lt (h : Numeral width n cs) : n < 10 ^ width := by
  rw [← h.value, ← h.length]
  exact Text.ofDigitChars_lt h.digits

theorem Numeral.eq_padded (hw : 0 < width) (h : Numeral width n cs) :
    cs = (Text.padded width n).toList :=
  h.unique (numeral_padded hw h.lt)

end Numerals

/-- The year is one of those from 0 to 9999. -/
def Date.HasPlainYear (d : Date) : Prop := 0 ≤ d.year ∧ d.year ≤ 9999

/-- The days of these years have a `full-date`, and it is what is written for them. -/
theorem fullDate_iff {d : Date} {cs : List Char} :
    FullDate d cs ↔ d.HasPlainYear ∧ cs = d.text.toList := by
  constructor
  · rintro ⟨hy, hyear, hmonth, hday⟩
    have hlt := hyear.lt
    have hrange : 0 ≤ d.year ∧ d.year ≤ 9999 := by omega
    refine ⟨hrange, ?_⟩
    rw [hyear.eq_padded (by decide), hmonth.eq_padded (by decide), hday.eq_padded (by decide),
      Date.text, yearText, if_pos hrange, hy]
    simp
  · rintro ⟨hrange, rfl⟩
    unfold Date.HasPlainYear at hrange
    obtain ⟨-, -, -, hmonth, -, -⟩ := d.isDay
    have hday := Scan.day_le d
    have hwritten := FullDate.intro (d := d) (y := d.year.natAbs) (by omega)
      (numeral_padded (by decide) (by omega)) (numeral_padded (by decide) (by omega))
      (numeral_padded (by decide) (by omega))
    simpa [Date.text, yearText, hrange] using hwritten

namespace Scan

theorem fraction_of {n : Nat} {cs rest : List Char} (h : Fraction n cs) (hr : NoDigit rest)
    (hp : rest.head? ≠ some '.') : fraction (cs ++ rest) = .ok (n, rest) := by
  cases h with
  | whole =>
    rw [List.nil_append]
    unfold fraction
    split
    · exact absurd rfl hp
    · rfl
  | digits h hne => exact fraction_run h hne hr

theorem offsetDigits_of {n : Nat} {cs : List Char} (h : Numeral 2 n cs) :
    ∃ a b, 10 * a + b = n ∧ ∀ rest, offsetDigits (cs ++ rest) = .ok (a, b, rest) := by
  obtain ⟨c, d, rfl⟩ : ∃ c d, cs = [c, d] := by
    match cs, h.length with
    | [c, d], _ => exact ⟨c, d, rfl⟩
  have hc : c.isDigit = true := h.digits c (by simp)
  have hd : d.isDigit = true := h.digits d (by simp)
  refine ⟨c.toNat - '0'.toNat, d.toNat - '0'.toNat, ?_, ?_⟩
  · rw [← h.value, Nat.ofDigitChars_cons, Nat.ofDigitChars_cons, Nat.ofDigitChars_nil, Nat.mul_zero,
      Nat.zero_add]
  · intro rest
    simp [offsetDigits, Text.digit?, hc, hd]

theorem offset_signed {n : Nat} {sign : Char} {hour minute : List Char}
    (hsign : sign = '+' ∨ sign = '-') (hhour : Numeral 2 (n / 60) hour)
    (hminute : Numeral 2 (n % 60) minute) :
    offset (sign :: (hour ++ ':' :: minute)) = .ok (if sign = '+' then (n : Int) else -n, []) := by
  obtain ⟨h, h', hh, hhours⟩ := offsetDigits_of hhour
  obtain ⟨m, m', hm, hminutes⟩ := offsetDigits_of hminute
  have hminutes : offsetDigits minute = .ok (m, m', []) := by simpa using hminutes []
  obtain ⟨c, r, rfl, hdigit⟩ := hminute.exists_cons (by decide)
  have hcolon : (':' :: c :: r).dropWhile (fun c => c == ':' || Text.isBlank c) = c :: r := by
    have hne : c ≠ ':' := by
      rintro rfl
      cases hdigit
    simp [hne, isBlank_digit hdigit]
  have hlow : ¬ 6 ≤ m := by omega
  have htotal : ((10 * h + h') * 60 + (10 * m + m') : Int) = n := by omega
  have hblank : Text.isBlank sign = false := by rcases hsign with rfl | rfl <;> decide
  have hutc : ((sign :: (hour ++ ':' :: c :: r)).take 3).map Char.toUpper ≠ ['U', 'T', 'C'] := by
    rcases hsign with rfl | rfl <;> simp
  have hzulu : ¬ (sign = 'Z' ∨ sign = 'z') := by rcases hsign with rfl | rfl <;> decide
  have hmark : sign = '+' ∨ sign = '-' ∨ sign = Char.ofNat 0x2212 := hsign.imp_right .inl
  simp only [offset, dropBlanks_cons hblank, hutc, hzulu, hmark, hhours, hcolon, hminutes, hlow,
    htotal, ↓reduceIte, bind, Except.bind]

theorem offset_of {n : Int} {cs : List Char} (h : Offset n cs) :
    offset cs = .ok (n, []) ∧ n.natAbs < 1440 := by
  cases h with
  | universal h => rcases h with rfl | rfl <;> exact ⟨rfl, by decide⟩
  | ahead hn hhour hminute => exact ⟨offset_signed (.inl rfl) hhour hminute, by omega⟩
  | behind hn hhour hminute => exact ⟨offset_signed (.inr rfl) hhour hminute, by omega⟩

theorem offset_head {n : Int} {cs : List Char} (h : Offset n cs) :
    NoDigit cs ∧ cs.head? ≠ some '.' := by
  cases h with
  | universal h => rcases h with rfl | rfl <;> exact ⟨Text.noDigit_cons (by decide) _, by decide⟩
  | ahead => exact ⟨Text.noDigit_cons (by decide) _, by simp⟩
  | behind => exact ⟨Text.noDigit_cons (by decide) _, by simp⟩

end Scan

/-- Whatever it stands for by RFC 3339, a text is read as that. -/
theorem Denotes.read {s : String} {t : Timestamp} (h : Denotes s t) : Timestamp.read s = .ok t := by
  obtain ⟨hdate, hmark, hhour, hminute, hsecond, hfraction, hzone, ht⟩ := h
  obtain ⟨-, hwritten⟩ := fullDate_iff.mp hdate
  obtain ⟨hread, hnear⟩ := Scan.offset_of hzone
  obtain ⟨hdigit, hpoint⟩ := Scan.offset_head hzone
  refine Timestamp.read_local ?_ hmark (Scan.fraction_of hfraction hdigit hpoint) hread hnear ht
  rw [String.toList_ofList, hwritten, hhour.eq_padded (by decide), hminute.eq_padded (by decide),
    hsecond.eq_padded (by decide)]

/-- So it stands for one moment. -/
theorem Denotes.unique {s : String} {t t' : Timestamp} (h : Denotes s t) (h' : Denotes s t') :
    t = t' :=
  Except.ok.inj (h.read.symm.trans h'.read)

/-- The year of a timestamp has no sign. -/
theorem Denotes.head_digit {s : String} {t : Timestamp} (h : Denotes s t) :
    ∀ c ∈ s.toList.head?, c.isDigit = true := by
  obtain ⟨⟨-, hyear, -, -⟩, -, -, -, -, -, -, -⟩ := h
  obtain ⟨c, r, rfl, hc⟩ := hyear.exists_cons (by decide)
  simpa using hc

end Larder.Calendar
