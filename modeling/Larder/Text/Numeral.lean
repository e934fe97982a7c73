namespace Larder.Text

def digit? (c : Char) : Option Nat :=
  if c.isDigit then some (c.toNat - '0'.toNat) else none

/-- The value of a run of digits, the most significant first. -/
def digitsValue (ds : List Nat) : Nat :=
  ds.foldl (fun n d => 10 * n + d) 0

/-- The value of a non-empty text that holds decimal digits only. -/
def natOfChars? (cs : List Char) : Option Nat :=
  if cs.isEmpty then none else (cs.mapM digit?).map digitsValue

/-- A count of at most `bound`: decimal digits, which one plus sign may precede. -/
def count? (bound : Nat) (s : String) : Option Nat :=
  let digits := match s.toList with
    | '+' :: r => r
    | cs => cs
  (natOfChars? digits).filter (· ≤ bound)

/-- The text extended on the left to at least `width` characters. -/
def padStart (width : Nat) (c : Char) (s : String) : String :=
  String.ofList (List.replicate (width - s.length) c) ++ s

/-- The text extended on the right to at least `width` characters. -/
def padEnd (width : Nat) (c : Char) (s : String) : String :=
  s ++ String.ofList (List.replicate (width - s.length) c)

/-- A number in at least `width` digits. -/
def padded (width n : Nat) : String :=
  padStart width '0' (toString n)

end Larder.Text
