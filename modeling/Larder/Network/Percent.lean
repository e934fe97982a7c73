import Larder.Text.Utf8

namespace Larder.Network

def upperHexDigit (n : Nat) : Char :=
  if n < 10 then Char.ofNat (48 + n) else Char.ofNat (55 + n)

def escapedByte (b : Nat) : List Char := ['%', upperHexDigit (b / 16), upperHexDigit (b % 16)]

/-- The bytes of a text, each kept or escaped. -/
def percentEncode (keeps : Nat → Bool) (s : String) : String :=
  String.ofList ((Text.Utf8.encode s).flatMap fun b =>
    if keeps b then [Char.ofNat b] else escapedByte b)

/-- The number that a byte stands for as a hexadecimal digit. -/
def hexByte? (b : Nat) : Option Nat :=
  if 0x30 ≤ b ∧ b ≤ 0x39 then some (b - 0x30)
  else if 0x41 ≤ b ∧ b ≤ 0x46 then some (b - 0x37)
  else if 0x61 ≤ b ∧ b ≤ 0x66 then some (b - 0x57)
  else none

/-- The bytes with every escape undone; a percent sign that starts none stays. -/
def percentDecode : List Nat → List Nat
  | 0x25 :: a :: b :: r =>
    match hexByte? a, hexByte? b with
    | some high, some low => (16 * high + low) :: percentDecode r
    | _, _ => 0x25 :: percentDecode (a :: b :: r)
  | b :: r => b :: percentDecode r
  | [] => []

/-- Whether a byte is one of the characters of a text of ASCII characters. -/
def isOneOf (cs : String) (b : Nat) : Bool := cs.toList.any (·.toNat == b)

def isVisible (b : Nat) : Bool := 0x21 ≤ b && b ≤ 0x7E

def pathKeeps (b : Nat) : Bool := isVisible b && !isOneOf "\"#<>?`\x7b\x7d" b

def queryKeeps (b : Nat) : Bool := isVisible b && !isOneOf "\"#<>'" b

def formKeeps (b : Nat) : Bool :=
  (0x30 ≤ b && b ≤ 0x39) || (0x41 ≤ b && b ≤ 0x5A) || (0x61 ≤ b && b ≤ 0x7A) || isOneOf "*-._" b

/-- A name or a value of a query; a space is written as a plus sign. -/
def formEncode (s : String) : String :=
  String.ofList ((Text.Utf8.encode s).flatMap fun b =>
    if b == 0x20 then ['+'] else if formKeeps b then [Char.ofNat b] else escapedByte b)

def formPair (key value : String) : String := formEncode key ++ "=" ++ formEncode value

end Larder.Network
