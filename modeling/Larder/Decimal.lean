namespace Larder

/-- The ninety-sixth power of two. -/
abbrev Decimal.sizeBound : Nat := 0x1000000000000000000000000

abbrev Decimal.maxScale : Nat := 28

/-- A sign, a size and the number of decimal places in the size. Where a result does not fit it
gives up as few places as it must. -/
structure Decimal where
  isNegative : Bool
  size : Nat
  scale : Nat
  size_lt : size < Decimal.sizeBound := by decide
  scale_le : scale ≤ Decimal.maxScale := by decide
  deriving DecidableEq, Repr

namespace Decimal

/-- The size with its sign: the amount in units of `10 ^ -scale`. -/
def coefficient (d : Decimal) : Int := if d.isNegative then -(d.size : Int) else d.size

/-- The amount with this sign, size and scale, if they are in range. -/
def ofSize? (isNegative : Bool) (size scale : Nat) : Option Decimal :=
  if h : size < sizeBound ∧ scale ≤ maxScale then some ⟨isNegative, size, scale, h.1, h.2⟩
  else none

/-- The amount with this coefficient and scale, if they are in range. -/
def ofParts? (coefficient : Int) (scale : Nat) : Option Decimal :=
  ofSize? (coefficient < 0) coefficient.natAbs scale

def zero : Decimal := { isNegative := false, size := 0, scale := 0 }

instance : Inhabited Decimal := ⟨zero⟩

def isZero (d : Decimal) : Bool := d.size == 0

def ofInt? (i : Int) : Option Decimal := ofParts? i 0

/-- The quotient rounded to nearest, a half to the even neighbour. -/
def roundHalfEven (n d : Nat) : Nat :=
  let q := n / d
  let r := n % d
  if d < 2 * r ∨ (d = 2 * r ∧ q % 2 = 1) then q + 1 else q

/-- The size with its last `places` decimal digits rounded away, a half upwards. -/
def roundHalfUp (size : Nat) : Nat → Nat
  | 0 => size
  | places + 1 => (size / Nat.pow 10 places + 5) / 10

/-- The fewest places, counted from `drop` on, whose loss brings the size below the bound. -/
def placesToDrop (size : Nat) : Nat → Nat → Nat
  | 0, drop => drop
  | fuel + 1, drop =>
    if size / Nat.pow 10 drop < sizeBound then drop else placesToDrop size fuel (drop + 1)

/-- An exact size and scale brought into range, if giving up decimal places can do it. -/
def fitSize? (size scale : Nat) : Option (Nat × Nat) :=
  let drop := placesToDrop size scale (scale - maxScale)
  if scale < drop then none
  else
    let rounded := roundHalfEven size (Nat.pow 10 drop)
    if rounded < sizeBound then some (rounded, scale - drop)
    else if drop < scale then some (roundHalfEven rounded 10, scale - drop - 1)
    else none

/-- An exact coefficient and scale brought into range, the sign kept unless the size is zero. -/
def fit? (coefficient : Int) (scale : Nat) : Option Decimal := do
  let (size, scale) ← fitSize? coefficient.natAbs scale
  ofParts? (if coefficient < 0 then -(size : Int) else size) scale

/-- The product. A factor of zero gives a zero without decimal places. -/
def mul? (a b : Decimal) : Option Decimal :=
  if a.isZero || b.isZero then some zero
  else fit? (a.coefficient * b.coefficient) (a.scale + b.scale)

/-- The coefficient of the same amount written with a larger scale. -/
def coefficientAt (d : Decimal) (scale : Nat) : Int :=
  d.coefficient * Nat.pow 10 (scale - d.scale)

/-- The sum. Adding to zero keeps the other amount as it is written. -/
def add? (a b : Decimal) : Option Decimal :=
  if a.isZero then some b
  else if b.isZero then some a
  else
    let scale := max a.scale b.scale
    fit? (a.coefficientAt scale + b.coefficientAt scale) scale

/-- The point moved to the right, which may write out places that were implied. -/
def shiftUp? (d : Decimal) (places : Nat) : Option Decimal :=
  if places ≤ d.scale then ofSize? d.isNegative d.size (d.scale - places)
  else if maxScale < places then none
  else ofParts? (d.coefficient * Nat.pow 10 (places - d.scale)) 0

/-- The point moved to the left. Places beyond those an amount can hold are rounded away. -/
def shiftDown? (d : Decimal) (places : Nat) : Option Decimal :=
  if maxScale < places then none
  else
    let scale := d.scale + places
    ofSize? d.isNegative (roundHalfUp d.size (scale - maxScale)) (min scale maxScale)

end Decimal

end Larder
