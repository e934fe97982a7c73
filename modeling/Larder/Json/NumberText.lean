import Larder.Json.Node
import Larder.Text.Numeral

namespace Larder.Json

/-- A number in parts: the digits that count, and the power of ten they are scaled by. -/
structure Scaled where
  negative : Bool
  significand : Nat
  exponent : Int

def wordBound : Nat := UInt64.size

/-- Take digits as long as the number fits 64 bits; gives the number and the digits left. -/
def fitDigits (n : Nat) : List Nat → Nat × List Nat
  | [] => (n, [])
  | d :: ds => if 10 * n + d < wordBound then fitDigits (10 * n + d) ds else (n, d :: ds)

/-- The largest power of ten among the doubles. -/
def largestPower : Nat := 308

def powerOfTen (n : Nat) : Float := Float.ofScientific 1 false n

/-- A double times a power of ten, unless the result is not finite. -/
def scaleUp? (x : Float) (exponent : Nat) : Option Float :=
  if largestPower < exponent then if x == 0 then some x else none
  else
    let y := x * powerOfTen exponent
    if y.isInf then none else some y

/-- A double divided by a power of ten, in steps of the largest power there is. -/
def scaleDown : Nat → Float → Nat → Float
  | 0, x, _ => x
  | fuel + 1, x, exponent =>
    if exponent ≤ largestPower then x / powerOfTen exponent
    else if x == 0 then x
    else scaleDown fuel (x / powerOfTen largestPower) (exponent - largestPower)

def Scaled.float? (s : Scaled) : Option Float :=
  let x := Float.ofNat s.significand
  let size := if 0 ≤ s.exponent then scaleUp? x s.exponent.toNat
    else some (scaleDown 8 x (-s.exponent).toNat)
  size.map fun y => if s.negative then -y else y

/-- The number in front of a text, split up. -/
structure Numeral where
  negative : Bool
  whole : List Nat
  fraction : List Nat
  exponent : Option (Bool × List Nat)

/-- The size of the least integer of 64 bits with a sign. -/
def leastSize : Nat := 0x8000000000000000

/-- The first bound on exponents that is not looked at any more. -/
def exponentBound : Nat := 0x80000000

/-- A whole number where 64 bits hold it, and a double otherwise. -/
def Numeral.number (n : Numeral) : Except Fault Number :=
  let (whole, dropped) := fitDigits 0 n.whole
  let sign (i : Nat) : Int := if n.negative then -i else i
  let (significand, unused) := fitDigits whole n.fraction
  let shift : Int := dropped.length - (n.fraction.length - unused.length : Nat)
  let float (exponent : Int) : Except Fault Number :=
    match (Scaled.mk n.negative significand exponent).float? with
    | some x => .ok (.float x)
    | none => .error .numberOutOfRange
  match n.exponent with
  | some (negative, digits) =>
    let e := Text.digitsValue digits
    if exponentBound ≤ e then
      if significand ≠ 0 ∧ !negative then .error .numberOutOfRange
      else .ok (.float (if n.negative then -0.0 else 0.0))
    else float (shift + if negative then -(e : Int) else e)
  | none =>
    if n.fraction.isEmpty && dropped.isEmpty then
      if n.negative && (whole == 0 || leastSize < whole) then .ok (.float (-(Float.ofNat whole)))
      else .ok (.integer (sign whole))
    else float shift

end Larder.Json
