import Larder.Text.Control

namespace Larder.Text

inductive Style where
  /-- The word that a complaint starts with. -/
  | alarm
  /-- What is wrong. -/
  | wrong
  /-- What can be written as it stands. -/
  | literal
  deriving DecidableEq, Repr

/-- An order that sets one property of the text behind it. -/
def order (property : Nat) : String := "\x1b[" ++ toString property ++ "m"

/-- An alarm is bold and red, what is wrong is yellow, a literal is bold. -/
def Style.orders : Style → String
  | .alarm => order 1 ++ order 31
  | .wrong => order 33
  | .literal => order 1

/-- A part of a text in a style. -/
def styled (s : Style) (part : String) : String := s.orders ++ part ++ order 0

/-- A styled part in single quotes. -/
def styledQuote (s : Style) (part : String) : String := "'" ++ styled s part ++ "'"

end Larder.Text
