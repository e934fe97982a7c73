import Larder.Binary64.Shortest

namespace Larder.Binary64

def zeros (n : Nat) : String := String.ofList (List.replicate n '0')

/-- Digits with the point after the first `point` of them; zeros fill what is missing. -/
def positional (digits : String) (point : Int) : String × String :=
  let n := digits.length
  if point ≤ 0 then ("0", zeros (-point).toNat ++ digits)
  else if n ≤ point.toNat then (digits ++ zeros (point.toNat - n), "")
  else
    let (whole, rest) := digits.toList.splitAt point.toNat
    (String.ofList whole, String.ofList rest)

def signText (x : Float) : String := if isNegative x then "-" else ""

/-- All digits written out; a whole number has no point. -/
def fullText (x : Float) : String :=
  let d := shortest (magnitude x)
  if d.digits = 0 then signText x ++ "0"
  else
    let digits := toString d.digits
    let (whole, fraction) := positional digits (digits.length + d.exponent)
    signText x ++ whole ++ if fraction.isEmpty then "" else "." ++ fraction

/-- How a text with exponents is laid out: the leading positions that are still written in full. -/
structure Layout where
  lowest : Int
  highest : Int

/-- In documents a number from `1e-5` to below `1e16` keeps its point. -/
def documentLayout : Layout := ⟨-5, 15⟩

/-- An exponent always has its sign. -/
def exponentText (e : Int) : String :=
  (if e < 0 then "e-" else "e+") ++ toString e.natAbs

def layoutText (layout : Layout) (x : Float) : String :=
  let d := shortest (magnitude x)
  if d.digits = 0 then signText x ++ "0.0"
  else
    let digits := toString d.digits
    let lead : Int := digits.length + d.exponent - 1
    if layout.lowest ≤ lead ∧ lead ≤ layout.highest then
      let (whole, fraction) := positional digits (lead + 1)
      signText x ++ whole ++ "." ++ if fraction.isEmpty then "0" else fraction
    else
      let (whole, fraction) := positional digits 1
      signText x ++ whole ++ (if fraction.isEmpty then "" else "." ++ fraction) ++
        exponentText lead

/-- A double as documents write it. -/
def text (x : Float) : String := layoutText documentLayout x

end Larder.Binary64
