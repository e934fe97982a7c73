import Larder.Decimal.Text
import Larder.Binary64.Text

namespace Larder.Decimal

/-- The amount that the digits of a double spell. -/
def ofFloat? (x : Float) : Option Decimal :=
  ofPlainChars? (Binary64.fullText x).toList

/-- A power by repeated squaring, each product rounded to a double. -/
def floatPow (base : Float) : Nat → Nat → Float → Float
  | 0, _, acc => acc
  | fuel + 1, n, acc =>
    let acc := if n % 2 = 1 then acc * base else acc
    if n / 2 = 0 then acc else floatPow (base * base) fuel (n / 2) acc

/-- The double nearest the size, by way of its whole part and its fraction. -/
def sizeToFloat (size scale : Nat) : Float :=
  let unit := Nat.pow 10 scale
  let whole := Float.ofNat (size / unit)
  let fraction := Float.ofNat (size % unit) / Float.ofNat unit
  if scale = 0 || fraction == 0 then whole
  else
    let shift := floatPow 10 8 scale 1
    ((whole + fraction) * shift).round / shift

/-- The double for an amount, rounded once more at the amount's own number of places. -/
def toFloat (d : Decimal) : Float :=
  let x := sizeToFloat d.size d.scale
  if d.isNegative then -x else x

end Larder.Decimal
