namespace Larder.Binary64

/-- The size of a finite double: `significand * 2 ^ exponent`. -/
structure Magnitude where
  significand : Nat
  exponent : Int
  deriving DecidableEq, Repr

/-- The place of the sign bit. -/
def signUnit : Nat := 0x8000000000000000

/-- The place behind the bits of the fraction. -/
def fractionUnit : Nat := 0x10000000000000

def isNegative (x : Float) : Bool := signUnit ≤ x.toBits.toNat

/-- Read off the bits: eleven of exponent, fifty-two of fraction. -/
def magnitude (x : Float) : Magnitude :=
  let bits := x.toBits.toNat
  let biased := bits / fractionUnit % 0x800
  let fraction := bits % fractionUnit
  if biased = 0 then ⟨fraction, -1074⟩ else ⟨fractionUnit + fraction, Int.ofNat biased - 1075⟩

/-- A decimal number: `digits * 10 ^ exponent`. -/
structure Digits where
  digits : Nat
  exponent : Int
  deriving DecidableEq, Repr

/-- The power `base ^ e` as a fraction of naturals. -/
def ratio (base : Nat) (e : Int) : Nat × Nat :=
  (Nat.pow base e.toNat, Nat.pow base (-e).toNat)

/-- The position of the leading decimal digit of a magnitude above zero. -/
def leadingExponent (m : Magnitude) : Int :=
  let (up, down) := ratio 2 m.exponent
  let whole := m.significand * up / down
  if whole ≠ 0 then (toString whole).length - 1
  else -((toString ((down - 1) / m.significand)).length : Nat)

/-- Whether a power of two starts a binade, so that the gap below it is half the gap above. -/
def isBinadeStart (m : Magnitude) : Bool :=
  m.significand == fractionUnit && -1074 < m.exponent

/-- The neighbour on the grid of `10 ^ exponent` that rounds to the double, the nearer of two. -/
def onGrid? (m : Magnitude) (exponent : Int) : Option Digits :=
  let (up2, down2) := ratio 2 (m.exponent - 2)
  let (up10, down10) := ratio 10 exponent
  let scaled (n : Nat) := n * up2 * down10
  let point (d : Nat) := d * up10 * down2
  let value := scaled (4 * m.significand)
  let low := scaled (4 * m.significand - if isBinadeStart m then 1 else 2)
  let high := scaled (4 * m.significand + 2)
  let inside (d : Nat) : Bool :=
    if m.significand % 2 = 0 then low ≤ point d && point d ≤ high
    else low < point d && point d < high
  let d := value / (up10 * down2)
  let below := value - point d
  let above := point (d + 1) - value
  if inside d && inside (d + 1) then
    if below < above || (below == above && d % 2 == 0) then some ⟨d, exponent⟩
    else some ⟨d + 1, exponent⟩
  else if inside d then some ⟨d, exponent⟩
  else if inside (d + 1) then some ⟨d + 1, exponent⟩
  else none

/-- The same number with no zero at the end of its digits. -/
def Digits.strip : Nat → Digits → Digits
  | 0, d => d
  | fuel + 1, d =>
    if d.digits ≠ 0 ∧ d.digits % 10 = 0 then strip fuel ⟨d.digits / 10, d.exponent + 1⟩ else d

/-- The decimal with the fewest digits that rounds to the magnitude, and of those the nearest. -/
def shortest (m : Magnitude) : Digits :=
  if m.significand = 0 then ⟨0, 0⟩
  else
    let lead := leadingExponent m
    let grids := (List.range 17).map fun n => onGrid? m (lead - Int.ofNat n)
    ((grids.findSome? id).getD ⟨m.significand, 0⟩).strip 20

end Larder.Binary64
