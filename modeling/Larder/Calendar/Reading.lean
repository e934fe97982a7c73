import Larder.Calendar.Timestamp
import Larder.Text.Blank

namespace Larder.Calendar

/-- Why a text is no date or timestamp. -/
inductive Fault where
  | outOfRange
  | noSuchMoment
  | invalidCharacters
  | endsEarly
  | trailingInput
  deriving DecidableEq, Repr

def Fault.message : Fault → String
  | .outOfRange => "input is out of range"
  | .noSuchMoment => "no possible date and time matching input"
  | .invalidCharacters => "input contains invalid characters"
  | .endsEarly => "premature end of input"
  | .trailingInput => "trailing input"

namespace Scan

/-- The longest number that is accepted at all. -/
def numberBound : Nat := 0x8000000000000000

/-- Between one and `limit` digits. -/
def digits (limit : Nat) (cs : List Char) : Except Fault (Nat × List Char) :=
  let ds := (cs.take limit).takeWhile Char.isDigit
  match cs with
  | [] => .error .endsEarly
  | _ =>
    if ds.isEmpty then .error .invalidCharacters
    else
      let n := Text.digitsValue (ds.filterMap Text.digit?)
      if n < numberBound then .ok (n, cs.drop ds.length) else .error .outOfRange

/-- Blanks, then a number of one or two digits within the bounds. -/
def twoDigits (low high : Nat) (cs : List Char) : Except Fault (Nat × List Char) := do
  let (n, r) ← digits 2 (Text.dropBlanks cs)
  if low ≤ n ∧ n ≤ high then .ok (n, r) else .error .outOfRange

/-- Blanks, then a year: four digits at most, or a sign and any number of digits. -/
def year (cs : List Char) : Except Fault (Int × List Char) := do
  let cs := Text.dropBlanks cs
  let (y, r) ← match cs with
    | '-' :: r => (digits r.length r).map fun (n, r) => (-(n : Int), r)
    | '+' :: r => (digits r.length r).map fun (n, r) => ((n : Int), r)
    | r => (digits 4 r).map fun (n, r) => ((n : Int), r)
  if -0x80000000 ≤ y ∧ y < 0x80000000 then .ok (y, r) else .error .outOfRange

/-- Blanks, then the character. -/
def separator (c : Char) (cs : List Char) : Except Fault (Unit × List Char) :=
  match Text.dropBlanks cs with
  | [] => .error .endsEarly
  | d :: r => if d = c then .ok ((), r) else .error .invalidCharacters

/-- Year, month and day; whether they name a day is not settled yet. -/
def dateParts (cs : List Char) : Except Fault ((Int × Nat × Nat) × List Char) := do
  let (y, cs) ← year cs
  let (_, cs) ← separator '-' cs
  let (m, cs) ← twoDigits 1 12 cs
  let (_, cs) ← separator '-' cs
  let (d, cs) ← twoDigits 1 31 cs
  .ok ((y, m, d), cs)

/-- The letter or the blank between a date and a time. -/
def timeMark : List Char → Except Fault (Unit × List Char)
  | [] => .error .endsEarly
  | c :: r => if c = 't' ∨ c = 'T' ∨ c = ' ' then .ok ((), r) else .error .invalidCharacters

/-- A fraction of a second in nanoseconds; digits after the ninth are passed over. -/
def fraction (cs : List Char) : Except Fault (Nat × List Char) :=
  match cs with
  | '.' :: r => do
    let (n, rest) ← digits 9 r
    let width := r.length - rest.length
    .ok (n * Nat.pow 10 (9 - width), rest.dropWhile Char.isDigit)
  | _ => .ok (0, cs)

def offsetDigits : List Char → Except Fault (Nat × Nat × List Char)
  | a :: b :: r =>
    match Text.digit? a, Text.digit? b with
    | some a, some b => .ok (a, b, r)
    | _, _ => .error .invalidCharacters
  | [c] => .error (if 1 < c.utf8Size then .invalidCharacters else .endsEarly)
  | [] => .error .endsEarly

/-- An offset from universal time in minutes, or a mark of universal time itself. -/
def offset (cs : List Char) : Except Fault (Int × List Char) :=
  let cs := Text.dropBlanks cs
  if (cs.take 3).map Char.toUpper = ['U', 'T', 'C'] then .ok (0, cs.drop 3)
  else
    match cs with
    | [] => .error .endsEarly
    | c :: r =>
      if c = 'Z' ∨ c = 'z' then .ok (0, r)
      else if c = '+' ∨ c = '-' ∨ c = Char.ofNat 0x2212 then do
        let (h1, h2, r) ← offsetDigits r
        let (m1, m2, r) ← offsetDigits (r.dropWhile fun c => c == ':' || Text.isBlank c)
        if 6 ≤ m1 then .error .outOfRange
        else
          let minutes : Int := (10 * h1 + h2) * 60 + (10 * m1 + m2)
          .ok (if c = '+' then minutes else -minutes, r)
      else .error .invalidCharacters

end Scan

/-- A date with nothing but blanks around it. Blanks may stand before each number and around the
separators, and a month or a day may have one digit. -/
def Date.read (s : String) : Except Fault Date := do
  let ((y, m, d), rest) ← Scan.dateParts s.toList
  if !(Text.dropBlanks rest).isEmpty then throw .trailingInput
  match Date.ofParts? y m d with
  | some date => .ok date
  | none => .error .outOfRange

/-- A date, a time and an offset, brought to universal time. Each number is checked as it is read,
and at the end whether the parts name a day. -/
def Timestamp.read (s : String) : Except Fault Timestamp := do
  let ((y, m, d), cs) ← Scan.dateParts s.toList
  let (_, cs) ← Scan.timeMark cs
  let (hour, cs) ← Scan.twoDigits 0 23 cs
  let (_, cs) ← Scan.separator ':' cs
  let (minute, cs) ← Scan.twoDigits 0 59 cs
  let (_, cs) ← Scan.separator ':' cs
  let (second, cs) ← Scan.twoDigits 0 60 cs
  let (nanosecond, cs) ← Scan.fraction cs
  let (offset, cs) ← Scan.offset cs
  if !(Text.dropBlanks cs).isEmpty then throw .trailingInput
  let some date := Date.ofParts? y m d | throw .outOfRange
  if offset.natAbs ≥ 1440 then throw .outOfRange
  match Timestamp.ofLocal? date ⟨(hour * 60 + minute) % 1440, Nat.mod_lt _ (by decide)⟩
      ⟨second % 61, Nat.mod_lt _ (by decide)⟩
      ⟨nanosecond % 1000000000, Nat.mod_lt _ (by decide)⟩ offset with
  | some t => .ok t
  | none => .error .noSuchMoment

end Larder.Calendar
