namespace Larder.Text.Utf8

/-- What the next bytes hold: a character, or bytes that form none. -/
inductive Piece where
  | char (c : Char)
  | broken
  deriving DecidableEq, Repr

def Piece.char? : Piece → Option Char
  | .char c => some c
  | .broken => none

def isTail (b : Nat) : Bool := 0x80 ≤ b && b ≤ 0xBF

/-- The bytes that may follow the first byte of a character of three or four bytes. -/
def isSecond (first b : Nat) : Bool :=
  if first == 0xE0 then 0xA0 ≤ b && b ≤ 0xBF
  else if first == 0xED then 0x80 ≤ b && b ≤ 0x9F
  else if first == 0xF0 then 0x90 ≤ b && b ≤ 0xBF
  else if first == 0xF4 then 0x80 ≤ b && b ≤ 0x8F
  else isTail b

/-- How many bytes a character takes that starts with this one. -/
def width (b : Nat) : Nat :=
  if b ≤ 0x7F then 1
  else if 0xC2 ≤ b && b ≤ 0xDF then 2
  else if 0xE0 ≤ b && b ≤ 0xEF then 3
  else if 0xF0 ≤ b && b ≤ 0xF4 then 4
  else 0

/-- The first piece, and how many bytes it takes. -/
def piece : List Nat → Piece × Nat
  | [] => (.broken, 0)
  | a :: r =>
    match width a, r with
    | 1, _ => (.char (Char.ofNat a), 1)
    | 2, b :: _ =>
      if isTail b then (.char (Char.ofNat ((a % 32) * 64 + b % 64)), 2) else (.broken, 1)
    | 3, b :: r =>
      if isSecond a b then
        match r with
        | c :: _ =>
          if isTail c then
            (.char (Char.ofNat ((a % 16) * 4096 + (b % 64) * 64 + c % 64)), 3)
          else (.broken, 2)
        | [] => (.broken, 2)
      else (.broken, 1)
    | 4, b :: r =>
      if isSecond a b then
        match r with
        | c :: r =>
          if isTail c then
            match r with
            | d :: _ =>
              if isTail d then
                (.char (Char.ofNat
                  ((a % 8) * 262144 + (b % 64) * 4096 + (c % 64) * 64 + d % 64)), 4)
              else (.broken, 3)
            | [] => (.broken, 3)
          else (.broken, 2)
        | [] => (.broken, 2)
      else (.broken, 1)
    | _, _ => (.broken, 1)

/-- All pieces in order; each takes at least one byte, so as many steps as bytes suffice. -/
def pieces : Nat → List Nat → List Piece
  | 0, _ | _, [] => []
  | fuel + 1, bs =>
    let (p, n) := piece bs
    p :: pieces fuel (bs.drop n)

/-- The text that the bytes encode, if they encode one. -/
def decode? (bs : List Nat) : Option String :=
  ((pieces bs.length bs).mapM Piece.char?).map String.ofList

/-- The text with a replacement character wherever the bytes form none. -/
def decodeLenient (bs : List Nat) : String :=
  String.ofList ((pieces bs.length bs).map fun p => p.char?.getD (Char.ofNat 0xFFFD))

/-- The bytes of a text. -/
def encode (s : String) : List Nat :=
  s.toUTF8.toList.map UInt8.toNat

end Larder.Text.Utf8
