import Larder.Text.Utf8

namespace Larder.Text

/-- Where a byte stands among control sequences. -/
inductive Place where
  | text
  | escape
  | escapeTail
  /-- In the parameters of an order, which a byte from `@` to `~` ends. -/
  | order
  | deviceStart
  | deviceNumbers
  | deviceTail
  | deviceSkipped
  | deviceData
  /-- In a title, which a bell ends. -/
  | title
  /-- In a message, which only the string terminator ends. -/
  | message
  deriving DecidableEq, Repr

namespace Place

def isBetween (low high b : Nat) : Bool := low ≤ b && b ≤ high

/-- Where the byte behind an escape leads. -/
def afterEscape (b : Nat) : Place :=
  if isBetween 0x20 0x2F b then escapeTail
  else if b == 0x5B then order
  else if b == 0x5D then title
  else if b == 0x50 then deviceStart
  else if b == 0x58 || b == 0x5E || b == 0x5F then message
  else if isBetween 0x30 0x7E b then text
  else escape

/-- Where a byte in the head of a device's data leads. -/
def afterDeviceHead (p : Place) (b : Nat) : Place :=
  if isBetween 0x40 0x7E b then deviceData
  else if isBetween 0x20 0x2F b then deviceTail
  else if isBetween 0x30 0x3F b then
    if p == deviceTail || b == 0x3A || (p == deviceNumbers && 0x3C ≤ b) then deviceSkipped
    else deviceNumbers
  else p

/-- The place behind a byte that is no part of a longer character. -/
def next (p : Place) (b : Nat) : Place :=
  if b == 0x1B then escape
  else if b == 0x18 || b == 0x1A then text
  else
    match p with
    | text => text
    | escape => afterEscape b
    | escapeTail => if isBetween 0x30 0x7E b then text else escapeTail
    | order => if isBetween 0x40 0x7E b then text else order
    | deviceStart | deviceNumbers | deviceTail => afterDeviceHead p b
    | title => if b == 0x07 then text else title
    | deviceSkipped | deviceData | message => if b == 0x9C then text else p

/-- Whether controls take effect at a place, and are not part of a string there. -/
def obeys : Place → Bool
  | text | escape | escapeTail | order => true
  | _ => false

end Place

/-- The white space among the ASCII controls. -/
def isSpacing (b : Nat) : Bool := b == 0x09 || b == 0x0A || b == 0x0C || b == 0x0D

/-- Whether a byte of plain text shows. -/
def showsInText (b : Nat) : Bool := Place.isBetween 0x20 0x7E b || isSpacing b || 2 ≤ Utf8.width b

/-- Whether a byte shows at a place. -/
def Place.shows (p : Place) (b : Nat) : Bool :=
  (p == .text && showsInText b) || (p.obeys && isSpacing b)

/-- How far the control sequences of a text have been followed. -/
structure Following where
  place : Place := .text
  /-- Text is shown, whatever the place says. -/
  isShowing : Bool := false
  /-- How many bytes of a longer character are still to come. -/
  pending : Nat := 0

namespace Following

/-- Show a byte of plain text; one that starts a longer character ends every sequence. -/
def keep (f : Following) (b : Nat) : Following :=
  if 2 ≤ Utf8.width b then ⟨.text, true, Utf8.width b - 1⟩ else { f with isShowing := true }

/-- Pass over a byte that does not show. -/
def skip (f : Following) (b : Nat) : Following := ⟨f.place.next b, false, 0⟩

/-- Whether the next byte shows, and where reading goes behind it. -/
def step (f : Following) (b : Nat) : Bool × Following :=
  if f.pending ≠ 0 then (true, { f with pending := f.pending - 1 })
  else if if f.isShowing then showsInText b else f.place.shows b then (true, f.keep b)
  else (false, f.skip b)

end Following

def shownBytes (f : Following) : List Nat → List Nat
  | [] => []
  | b :: r =>
    let (shows, f) := f.step b
    if shows then b :: shownBytes f r else shownBytes f r

/-- A text without its control sequences. -/
def withoutControls (s : String) : String :=
  Utf8.decodeLenient (shownBytes {} (Utf8.encode s))

end Larder.Text
