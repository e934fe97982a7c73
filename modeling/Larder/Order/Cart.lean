import Larder.Failure
import Larder.Text.Blank
import Larder.Wire.Order

namespace Larder.Cart

open Wire (OrderLine)

/-- The sum of two counts, or the largest count where it would be larger. -/
def addCounts (a b : UInt32) : UInt32 := UInt32.ofNat (min (a.toNat + b.toNat) (UInt32.size - 1))

/-- Add a quantity to the line of a SKU, or append a line. -/
def addLine (sku : String) (quantity : UInt32) : List OrderLine → List OrderLine
  | [] => [⟨sku, quantity⟩]
  | l :: r =>
    if l.sku = sku then { l with quantity := addCounts l.quantity quantity } :: r
    else l :: addLine sku quantity r

/-- A line as it counts: none without a SKU or a quantity. -/
def countedLine? (l : OrderLine) : Option OrderLine :=
  let sku := Text.trim l.sku
  if sku.isEmpty || l.quantity == 0 then none else some ⟨sku, l.quantity⟩

def merge (lines : List OrderLine) : List OrderLine :=
  lines.foldl (fun merged l => addLine l.sku l.quantity merged) []

/-- The lines to order, in order of first occurrence. -/
def prepare (cart : List OrderLine) : Except Failure (List OrderLine) :=
  match merge (cart.filterMap countedLine?) with
  | [] => .error (.invalid "Add at least one item with a positive quantity to your cart")
  | lines => .ok lines

end Larder.Cart
