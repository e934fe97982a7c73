import Larder.Decimal
import Larder.Text.Numeral

namespace Larder.Decimal

/-- The digits with `scale` of them behind the point. -/
def sizeText (size scale : Nat) : String :=
  if scale = 0 then toString size
  else
    let digits := (Text.padded (scale + 1) size).toList
    let whole := digits.length - scale
    String.ofList (digits.take whole ++ '.' :: digits.drop whole)

def text (d : Decimal) : String :=
  (if d.isNegative then "-" else "") ++ sizeText d.size d.scale

instance : ToString Decimal := ⟨text⟩

/-- What has been read of the digits of an amount. -/
structure Reading where
  size : Nat
  scale : Nat
  seenPoint : Bool
  seenDigit : Bool

/-- What is left of an amount after its last place has been settled: digits and underscores. -/
def isIgnorable (cs : List Char) : Bool :=
  cs.all fun c => c.isDigit || c == '_'

/-- Settle the last place by the first digit that no longer fits. -/
def Reading.round (r : Reading) (d : Nat) : Option Reading :=
  if d < 5 then some r
  else if r.size + 1 < sizeBound then some { r with size := r.size + 1 }
  else if r.scale = 0 then none
  else some { r with size := (r.size + 5) / 10, scale := r.scale - 1 }

def readDigits (r : Reading) : List Char → Option Reading
  | [] => some r
  | c :: cs =>
    let isFull := r.seenPoint && r.scale == maxScale
    match Text.digit? c with
    | some d =>
      let size := 10 * r.size + d
      if isFull || (r.seenPoint && sizeBound ≤ size) then
        if isIgnorable cs then r.round d else none
      else if sizeBound ≤ size then none
      else
        readDigits ⟨size, if r.seenPoint then r.scale + 1 else 0, r.seenPoint, true⟩ cs
    | none =>
      if isFull then if (c == '.' || c == '_') && isIgnorable cs then some r else none
      else if c == '.' && !r.seenPoint then readDigits { r with seenPoint := true } cs
      else if c == '_' && r.seenDigit then readDigits r cs
      else none

/-- An amount without an exponent. -/
def ofPlainChars? (cs : List Char) : Option Decimal := do
  let (negative, digits) := match cs with
    | '-' :: r => (true, r)
    | '+' :: r => (false, r)
    | r => (false, r)
  let r ← readDigits ⟨0, 0, false, false⟩ digits
  if r.seenDigit then ofParts? (if negative then -(r.size : Int) else r.size) r.scale else none

/-- The largest exponent that can be written. -/
def exponentBound : Nat := UInt32.size - 1

/-- An amount with an exponent behind an `e`. -/
def ofScientificChars? (cs : List Char) : Option Decimal := do
  let isMark := fun c : Char => c == 'e' || c == 'E'
  let base := cs.takeWhile (!isMark ·)
  match cs.dropWhile (!isMark ·) with
  | [] => none
  | _ :: exponent =>
    let d ← ofPlainChars? base
    match exponent with
    | '-' :: digits =>
      let e ← Text.count? exponentBound (String.ofList digits)
      d.shiftDown? e
    | digits =>
      let e ← Text.count? exponentBound (String.ofList digits)
      d.shiftUp? e

/-- Read an amount, with or without an exponent. Underscores may stand after the first digit, and
places beyond those an amount can hold are rounded away by the first of them. -/
def ofText? (s : String) : Option Decimal :=
  (ofPlainChars? s.toList).or (ofScientificChars? s.toList)

end Larder.Decimal
