namespace Larder.Text

/-- Whether a code point is in one of the ranges. -/
def isInRanges (ranges : Array (Nat × Nat)) (n : Nat) : Bool :=
  ranges.any fun (first, last) => first ≤ n && n ≤ last

end Larder.Text
