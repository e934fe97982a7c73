import Larder.Json.Printer
import Larder.Json.Reader
import Larder.Proofs.Numerals

namespace Larder.Json

open Text (IsDigits NoDigit)

/-- One digit at least, and no zero in front of others. -/
structure IsWhole (cs : List Char) : Prop where
  digits : IsDigits cs
  ne_nil : cs ≠ []
  plain : cs.head? = some '0' → cs.length = 1

/-- The parts of a number as it is written. -/
structure WrittenNumber where
  negative : Bool
  whole : List Char
  /-- Empty when there is no point. -/
  fraction : List Char
  exponent : Option (Bool × List Char)
  isWhole : IsWhole whole
  fraction_digits : IsDigits fraction
  exponent_digits : ∀ e ∈ exponent, IsDigits e.2 ∧ e.2 ≠ []

namespace WrittenNumber

def exponentChars : Option (Bool × List Char) → List Char
  | none => []
  | some (negative, ds) => 'e' :: (if negative then '-' else '+') :: ds

/-- All that stands behind the whole part. -/
def tail (w : WrittenNumber) : List Char :=
  (if w.fraction = [] then [] else '.' :: w.fraction) ++ exponentChars w.exponent

def chars (w : WrittenNumber) : List Char :=
  (if w.negative then ['-'] else []) ++ (w.whole ++ w.tail)

def numeral (w : WrittenNumber) : Numeral where
  negative := w.negative
  whole := w.whole.filterMap Text.digit?
  fraction := w.fraction.filterMap Text.digit?
  exponent := w.exponent.map fun e => (e.1, e.2.filterMap Text.digit?)

end WrittenNumber

/-- What follows cannot belong to a number. -/
def EndsNumber (cs : List Char) : Prop :=
  ∀ c ∈ cs.head?, c.isDigit = false ∧ c ≠ '.' ∧ c ≠ 'e' ∧ c ≠ 'E'

theorem EndsNumber.noDigit {cs : List Char} (h : EndsNumber cs) : NoDigit cs :=
  fun c hc => (h c hc).1

theorem takeDigits_digits {cs rest : List Char} (h : IsDigits cs) (hr : NoDigit rest) :
    takeDigits (cs ++ rest) = (cs.filterMap Text.digit?, rest) := by
  rw [takeDigits, Text.takeWhile_digits h hr, Text.dropWhile_digits h hr]

theorem filterMap_digit?_ne_nil {cs : List Char} (h : IsDigits cs) (hne : cs ≠ []) :
    (cs.filterMap Text.digit?).isEmpty = false := by
  have hlength := Text.length_filterMap_digit? h
  have hpos := List.length_pos_iff.mpr hne
  rw [← hlength] at hpos
  simpa using List.length_pos_iff.mp hpos

theorem scanExponent_written (negative : Bool) {ds rest : List Char} (h : IsDigits ds)
    (hr : NoDigit rest) :
    scanExponent ((if negative then '-' else '+') :: (ds ++ rest)) =
      ((negative, ds.filterMap Text.digit?), rest) := by
  cases negative <;> simp [scanExponent, takeDigits_digits h hr]

/-- The fraction in front of a text, what follows it, and whether a point has no digits. -/
def scanFraction : List Char → List Nat × List Char × Bool
  | '.' :: r => ((takeDigits r).1, (takeDigits r).2, (takeDigits r).1.isEmpty)
  | r => ([], r, false)

/-- The number whose whole part and fraction have been scanned. -/
def scanEnd (negative : Bool) (whole fraction : List Nat) : List Char → Scanned
  | c :: r =>
    if c = 'e' ∨ c = 'E' then
      if (scanExponent r).1.2.isEmpty then brokenNumber (scanExponent r).2
      else (numeralNode ⟨negative, whole, fraction, some (scanExponent r).1⟩,
        some (scanExponent r).2)
    else (numeralNode ⟨negative, whole, fraction, none⟩, some (c :: r))
  | [] => (numeralNode ⟨negative, whole, fraction, none⟩, some [])

theorem scanNumber_eq (negative : Bool) {cs rest r : List Char} {whole fraction : List Nat}
    (hwhole : takeDigits cs = (whole, rest)) (hsome : whole.isEmpty = false)
    (hplain : ¬ (whole.head? = some 0 ∧ 1 < whole.length))
    (hfraction : scanFraction rest = (fraction, r, false)) :
    scanNumber negative cs = scanEnd negative whole fraction r := by
  have hsplit : scanNumber negative cs =
      if (takeDigits cs).1.isEmpty then brokenNumber (takeDigits cs).2
      else if (takeDigits cs).1.head? = some 0 ∧ 1 < (takeDigits cs).1.length then
        (.broken .invalidNumber, none)
      else if (scanFraction (takeDigits cs).2).2.2 then
        brokenNumber (scanFraction (takeDigits cs).2).2.1
      else scanEnd negative (takeDigits cs).1 (scanFraction (takeDigits cs).2).1
        (scanFraction (takeDigits cs).2).2.1 := rfl
  rw [hsplit, hwhole, hfraction, if_neg (by simp [hsome]), if_neg hplain,
    if_neg Bool.false_ne_true]

section Scan

variable (w : WrittenNumber) {rest : List Char}

theorem noDigit_exponent (e : Option (Bool × List Char)) (hr : EndsNumber rest) :
    NoDigit (WrittenNumber.exponentChars e ++ rest) := by
  cases e with
  | none => exact hr.noDigit
  | some e => exact Text.noDigit_cons (by decide) _

theorem noDigit_tail (hr : EndsNumber rest) : NoDigit (w.tail ++ rest) := by
  unfold WrittenNumber.tail
  split
  · exact noDigit_exponent w.exponent hr
  · exact Text.noDigit_cons (by decide) _

/-- A zero that the whole part starts with is all there is of it. -/
theorem whole_zero : ¬ ((w.whole.filterMap Text.digit?).head? = some 0 ∧
    1 < (w.whole.filterMap Text.digit?).length) := by
  rintro ⟨hhead, hlength⟩
  rw [Text.length_filterMap_digit? w.isWhole.digits] at hlength
  obtain ⟨c, cs, hw⟩ := List.exists_cons_of_ne_nil w.isWhole.ne_nil
  have hc : c.isDigit = true := w.isWhole.digits c (by simp [hw])
  have hzero : c = '0' := by
    have hvalue : c.toNat - '0'.toNat = 0 := by simpa [hw, Text.digit?, hc] using hhead
    have hlow : '0'.toNat ≤ c.toNat := (Char.isDigit_iff_toNat.mp hc).1
    exact Char.toNat_inj.mp (by omega)
  have hone := w.isWhole.plain (by simp [hw, hzero])
  omega

theorem scanFraction_tail (hr : EndsNumber rest) : scanFraction (w.tail ++ rest) =
    (w.fraction.filterMap Text.digit?, WrittenNumber.exponentChars w.exponent ++ rest, false) := by
  unfold WrittenNumber.tail
  by_cases hf : w.fraction = []
  · cases w.exponent with
    | none =>
      cases rest with
      | nil => simp [hf, scanFraction, WrittenNumber.exponentChars]
      | cons c r =>
        have hpoint := (hr c rfl).2.1
        have hscan : scanFraction (c :: r) = ([], c :: r, false) := by
          unfold scanFraction
          split
          · rename_i he
            exact absurd (List.cons.inj he).1 hpoint
          · rfl
        simp [hf, hscan, WrittenNumber.exponentChars]
    | some e => simp [hf, scanFraction, WrittenNumber.exponentChars]
  · have htake := takeDigits_digits w.fraction_digits (noDigit_exponent w.exponent hr)
    have hsome := filterMap_digit?_ne_nil w.fraction_digits hf
    simp only [hf, ↓reduceIte, List.cons_append, List.append_assoc, scanFraction, htake, hsome]

theorem scanEnd_exponent (negative : Bool) (whole fraction : List Nat) (hr : EndsNumber rest) :
    scanEnd negative whole fraction (WrittenNumber.exponentChars w.exponent ++ rest) =
      (numeralNode ⟨negative, whole, fraction,
        w.exponent.map fun e => (e.1, e.2.filterMap Text.digit?)⟩, some rest) := by
  cases he : w.exponent with
  | none =>
    cases rest with
    | nil => rfl
    | cons c r =>
      obtain ⟨-, -, hsmall, hlarge⟩ := hr c rfl
      simp [WrittenNumber.exponentChars, scanEnd, hsmall, hlarge]
  | some e =>
    obtain ⟨sign, ds⟩ := e
    obtain ⟨hds, hne⟩ := w.exponent_digits _ he
    have hscan := scanExponent_written sign hds hr.noDigit
    have hsome := filterMap_digit?_ne_nil hds hne
    simp only [WrittenNumber.exponentChars, List.cons_append, scanEnd, hscan, hsome]
    simp

/-- A number is scanned into the parts that it was written in, up to what ends it. -/
theorem scanNumber_written (hr : EndsNumber rest) :
    scanNumber w.negative (w.whole ++ w.tail ++ rest) = (numeralNode w.numeral, some rest) := by
  have htake := takeDigits_digits w.isWhole.digits (noDigit_tail w hr)
  rw [List.append_assoc, scanNumber_eq w.negative htake
    (filterMap_digit?_ne_nil w.isWhole.digits w.isWhole.ne_nil) (whole_zero w)
    (scanFraction_tail w hr), scanEnd_exponent w _ _ _ hr]
  rfl

end Scan

section Written

theorem isWhole_toDigits (n : Nat) : IsWhole (Nat.toDigits 10 n) where
  digits := Text.isDigits_toDigits n
  ne_nil := Nat.toDigits_ne_nil
  plain h := by
    have hzero : n = 0 := by
      by_contra hne
      exact Text.head_toDigits (Nat.pos_of_ne_zero hne) h
    subst hzero
    rfl

/-- A whole part that does not start with a zero. -/
theorem isWhole_of_head {cs : List Char} (h : IsDigits cs) (hne : cs ≠ [])
    (hhead : cs.head? ≠ some '0') : IsWhole cs :=
  ⟨h, hne, fun hzero => absurd hzero hhead⟩

/-- Wherever the point is put, there is a whole part in front of it. -/
theorem positional_written {n : Nat} (h : 0 < n) (point : Int) {whole fraction : String}
    (hp : Binary64.positional (toString n) point = (whole, fraction)) :
    IsWhole whole.toList ∧ IsDigits fraction.toList := by
  have hdigits := Text.isDigits_toDigits n
  have hhead := Text.head_toDigits h
  have hne : Nat.toDigits 10 n ≠ [] := Nat.toDigits_ne_nil
  have hzeros : ∀ k, IsDigits (Binary64.zeros k).toList := fun k => by
    simpa [Binary64.zeros] using Text.isDigits_replicate k
  simp only [Binary64.positional] at hp
  split at hp
  · cases hp
    rw [String.toList_append, Text.toString_toList]
    exact ⟨isWhole_toDigits 0, (hzeros _).append hdigits⟩
  · split at hp
    · cases hp
      rw [String.toList_append, Text.toString_toList]
      refine ⟨isWhole_of_head (hdigits.append (hzeros _)) (by simp) ?_, by simp [IsDigits]⟩
      rwa [List.head?_append, Option.or_of_isSome (by simp)]
    · rename_i hpos hlong
      rw [Text.toString_toList, List.splitAt_eq] at hp
      cases hp
      simp only [String.toList_ofList]
      have htake : (Nat.toDigits 10 n).take point.toNat ≠ [] := by
        simp only [ne_eq, List.take_eq_nil_iff, hne, or_false]
        omega
      refine ⟨isWhole_of_head (fun c hc => hdigits c (List.mem_of_mem_take hc)) htake ?_,
        fun c hc => hdigits c (List.mem_of_mem_drop hc)⟩
      rwa [List.head?_take, if_neg (by omega)]

theorem exponentText_toList (e : Int) : (Binary64.exponentText e).toList =
    WrittenNumber.exponentChars (some (decide (e < 0), Nat.toDigits 10 e.natAbs)) := by
  unfold Binary64.exponentText
  rw [String.toList_append, Text.toString_toList]
  by_cases he : e < 0 <;> simp [WrittenNumber.exponentChars, he]

/-- A double is written with such parts. -/
theorem float_written (x : Float) : ∃ w : WrittenNumber, w.chars = (Binary64.text x).toList := by
  have hsign : (Binary64.signText x).toList = if Binary64.isNegative x then ['-'] else [] := by
    unfold Binary64.signText
    split <;> rfl
  have hzero : IsDigits ['0'] := Text.isDigits_toDigits 0
  unfold Binary64.text Binary64.layoutText
  dsimp only
  split
  · refine ⟨⟨Binary64.isNegative x, ['0'], ['0'], none, isWhole_toDigits 0, hzero, by simp⟩, ?_⟩
    simp [WrittenNumber.chars, WrittenNumber.tail, WrittenNumber.exponentChars, hsign]
  · rename_i hne
    have hpos : 0 < (Binary64.shortest (Binary64.magnitude x)).digits := Nat.pos_of_ne_zero hne
    generalize (Binary64.shortest (Binary64.magnitude x)).digits = n at hpos
    generalize ((toString n).length : Int) + (Binary64.shortest (Binary64.magnitude x)).exponent - 1
      = lead
    split
    · cases hp : Binary64.positional (toString n) (lead + 1) with
      | mk whole fraction =>
        obtain ⟨hwhole, hfraction⟩ := positional_written hpos _ hp
        by_cases he : fraction = ""
        · refine ⟨⟨Binary64.isNegative x, whole.toList, ['0'], none, hwhole, hzero, by simp⟩, ?_⟩
          simp [WrittenNumber.chars, WrittenNumber.tail, WrittenNumber.exponentChars, hsign, he]
        · refine ⟨⟨Binary64.isNegative x, whole.toList, fraction.toList, none, hwhole, hfraction,
            by simp⟩, ?_⟩
          simp [WrittenNumber.chars, WrittenNumber.tail, WrittenNumber.exponentChars, hsign, he]
    · cases hp : Binary64.positional (toString n) 1 with
      | mk whole fraction =>
        obtain ⟨hwhole, hfraction⟩ := positional_written hpos _ hp
        refine ⟨⟨Binary64.isNegative x, whole.toList, fraction.toList,
          some (decide (lead < 0), Nat.toDigits 10 lead.natAbs), hwhole, hfraction, ?_⟩, ?_⟩
        · rintro e ⟨⟩
          exact ⟨Text.isDigits_toDigits _, Nat.toDigits_ne_nil⟩
        · by_cases he : fraction = "" <;>
            simp [WrittenNumber.chars, WrittenNumber.tail, hsign, he, exponentText_toList]

/-- The parts of a whole number. -/
def WrittenNumber.ofNat (negative : Bool) (n : Nat) : WrittenNumber :=
  ⟨negative, Nat.toDigits 10 n, [], none, isWhole_toDigits n, by simp [IsDigits], by simp⟩

theorem ofNat_chars (n : Nat) : (WrittenNumber.ofNat false n).chars =
    (Number.text (.integer n)).toList := by
  change _ = (toString n).toList
  simp [WrittenNumber.chars, WrittenNumber.ofNat, WrittenNumber.tail, WrittenNumber.exponentChars]

/-- Every number is written with such parts. -/
theorem exists_written (n : Number) : ∃ w : WrittenNumber, w.chars = n.text.toList := by
  cases n with
  | float x => exact float_written x
  | integer i =>
    cases i with
    | ofNat n => exact ⟨_, ofNat_chars n⟩
    | negSucc n =>
      refine ⟨.ofNat true (n + 1), ?_⟩
      change _ = ("-" ++ toString (n + 1)).toList
      simp [WrittenNumber.chars, WrittenNumber.ofNat, WrittenNumber.tail,
        WrittenNumber.exponentChars]

end Written

section Nodes

variable {rest : List Char}

theorem isSpace_digit {c : Char} (h : c.isDigit = true) : isSpace c = false := by
  rw [Bool.eq_false_iff]
  intro hs
  simp only [isSpace, Bool.or_eq_true, beq_iff_eq] at hs
  rcases hs with ((rfl | rfl) | rfl) | rfl <;> cases h

/-- A node that starts with a digit is a number. -/
theorem scanNode_digit (fuel : Nat) {c : Char} (h : c.isDigit = true) (r : List Char) :
    scanNode (fuel + 1) (c :: r) = scanNumber false (c :: r) := by
  have hskip : skipSpace (c :: r) = c :: r := by
    rw [skipSpace, List.dropWhile_cons_of_neg (by simp [isSpace_digit h])]
  rw [scanNode, hskip]
  dsimp only
  split
  case h_8 => rw [if_pos h]
  all_goals cases h

/-- A number is scanned as one, up to what ends it. -/
theorem scanNode_written (fuel : Nat) (w : WrittenNumber) (hr : EndsNumber rest) :
    scanNode (fuel + 1) (w.chars ++ rest) = (numeralNode w.numeral, some rest) := by
  have hscan := scanNumber_written w hr
  unfold WrittenNumber.chars
  cases hn : w.negative with
  | true =>
    rw [hn] at hscan
    rw [scanNode]
    simpa [skipSpace, isSpace] using hscan
  | false =>
    rw [hn] at hscan
    obtain ⟨c, cs, hw⟩ := List.exists_cons_of_ne_nil w.isWhole.ne_nil
    have hc : c.isDigit = true := w.isWhole.digits c (by simp [hw])
    rw [hw] at hscan ⊢
    exact (scanNode_digit fuel hc _).trans hscan

/-- What a number reads as when it has been written. -/
def Number.readBack (n : Number) : Token Number :=
  match (Document.ofText n.text).root with
  | .number t => t
  | _ => .ofValue n

theorem ofText_written {n : Number} {w : WrittenNumber} (hw : w.chars = n.text.toList) :
    Document.ofText n.text = ⟨numeralNode w.numeral, false⟩ := by
  have hend : EndsNumber [] := by simp [EndsNumber]
  have hscan := scanNode_written (2 * n.text.toList.length + 1) w hend
  rw [List.append_nil, hw] at hscan
  simp only [Document.ofText, hscan]
  rfl

theorem readBack_written {n : Number} {w : WrittenNumber} (hw : w.chars = n.text.toList) :
    n.readBack = ⟨w.numeral.number, .ok ()⟩ := by
  rw [Number.readBack, ofText_written hw]
  rfl

theorem readBack_pass (n : Number) : n.readBack.pass = .ok () := by
  obtain ⟨w, hw⟩ := exists_written n
  rw [readBack_written hw]

/-- Wherever a number has been written, it reads as it does on its own. -/
theorem scanNode_number (fuel : Nat) (n : Number) (hr : EndsNumber rest) :
    scanNode (fuel + 1) (n.text.toList ++ rest) = (.number n.readBack, some rest) := by
  obtain ⟨w, hw⟩ := exists_written n
  rw [← hw, scanNode_written fuel w hr, readBack_written hw]
  rfl

/-- Digits add up to no less than what they start from. -/
theorem le_foldl_digits (ds : List Nat) (n : Nat) : n ≤ ds.foldl (fun n d => 10 * n + d) n := by
  induction ds generalizing n with
  | nil => exact Nat.le_refl n
  | cons d ds ih => exact Nat.le_trans (by omega) (ih (10 * n + d))

theorem fitDigits_of_lt {ds : List Nat} {n : Nat}
    (h : ds.foldl (fun n d => 10 * n + d) n < wordBound) :
    fitDigits n ds = (ds.foldl (fun n d => 10 * n + d) n, []) := by
  induction ds generalizing n with
  | nil => rfl
  | cons d ds ih =>
    have hfirst : 10 * n + d < wordBound := Nat.lt_of_le_of_lt (le_foldl_digits ds _) h
    rw [fitDigits, if_pos hfirst]
    exact ih h

/-- A whole number of 64 bits reads as itself. -/
theorem readBack_ofNat {n : Nat} (h : n < wordBound) :
    Number.readBack (.integer n) = .ofValue (.integer n) := by
  have hvalue : ((Nat.toDigits 10 n).filterMap Text.digit?).foldl (fun n d => 10 * n + d) 0 = n :=
    (Text.digitsValue_digits (Text.isDigits_toDigits n)).trans Nat.ofDigitChars_ten_toDigits
  have hfit := fitDigits_of_lt (hvalue.symm ▸ h)
  rw [hvalue] at hfit
  rw [readBack_written (ofNat_chars n)]
  simp only [WrittenNumber.numeral, WrittenNumber.ofNat, Numeral.number, hfit]
  rfl

end Nodes

end Larder.Json
