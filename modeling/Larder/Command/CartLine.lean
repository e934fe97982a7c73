import Larder.Text.Blank
import Larder.Text.Numeral
import Larder.Wire.Order

namespace Larder.Command

/-- A text cut at its first equals sign; without one the second part is the digit one. -/
def cutAtEquals (cs : List Char) : List Char × List Char :=
  match cs.dropWhile (· != '=') with
  | [] => (cs, ['1'])
  | _ :: r => (cs.takeWhile (· != '='), r)

/-- Read a SKU, an equals sign and a quantity. A SKU alone means one piece. -/
def cartLine (s : String) : Except String Wire.OrderLine :=
  let (skuPart, quantityPart) := cutAtEquals s.toList
  let sku := String.ofList (Text.trimChars skuPart)
  let quantity := String.ofList (Text.trimChars quantityPart)
  if sku.isEmpty then .error ("missing SKU in '" ++ s ++ "'")
  else
    match Text.count? (UInt32.size - 1) quantity with
    | some n => .ok ⟨sku, UInt32.ofNat n⟩
    | none => .error ("invalid quantity '" ++ quantity ++ "' for " ++ sku)

end Larder.Command
