import Larder.Calendar.Date

namespace Larder.Calendar

/-- A moment of universal time. The sixtieth second of a minute is a leap second. -/
structure Timestamp where
  date : Date
  minuteOfDay : Fin 1440
  second : Fin 61
  nanosecond : Fin 1000000000
  deriving DecidableEq, Repr

namespace Timestamp

def hour (t : Timestamp) : Nat := t.minuteOfDay.val / 60

def minute (t : Timestamp) : Nat := t.minuteOfDay.val % 60

/-- The moment with this local reading on a clock that runs `offset` minutes ahead. -/
def ofLocal? (date : Date) (minuteOfDay : Fin 1440) (second : Fin 61)
    (nanosecond : Fin 1000000000) (offset : Int) : Option Timestamp :=
  let shifted : Int := minuteOfDay.val - offset
  let minute : Fin 1440 := Fin.ofNat 1440 (shifted.emod 1440).toNat
  let day := shifted.ediv 1440
  let date? :=
    if day = 0 then some date else if day < 0 then date.previous? else date.next?
  date?.map fun date => ⟨date, minute, second, nanosecond⟩

/-- No fraction, or three, six or nine digits of it, whichever is enough. -/
def fractionText (nanosecond : Nat) : String :=
  if nanosecond = 0 then ""
  else if nanosecond % 1000000 = 0 then "." ++ Text.padded 3 (nanosecond / 1000000)
  else if nanosecond % 1000 = 0 then "." ++ Text.padded 6 (nanosecond / 1000)
  else "." ++ Text.padded 9 nanosecond

/-- Date, time and the letter of universal time. -/
def text (t : Timestamp) : String :=
  t.date.text ++ "T" ++ Text.padded 2 t.hour ++ ":" ++ Text.padded 2 t.minute ++ ":" ++
    Text.padded 2 t.second.val ++ fractionText t.nanosecond.val ++ "Z"

instance : ToString Timestamp := ⟨text⟩

/-- Date and time to the minute, as lists show it. -/
def shortText (t : Timestamp) : String :=
  t.date.text ++ " " ++ Text.padded 2 t.hour ++ ":" ++ Text.padded 2 t.minute

end Timestamp

end Larder.Calendar
