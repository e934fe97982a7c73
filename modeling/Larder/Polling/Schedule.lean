import Larder.Settings

namespace Larder.Polling

/-- A bounded number of attempts, with a fixed pause between two. -/
structure Schedule where
  interval : Nat
  limit : Nat
  attempts : Nat
  deriving DecidableEq, Repr

namespace Schedule

/-- A schedule allows for one attempt at least. -/
def new (interval limit : Nat) : Schedule := ⟨interval, max limit 1, 0⟩

def ofSettings (s : Settings) : Schedule := new s.pollInterval s.maxPollAttempts.toNat

def isExhausted (s : Schedule) : Bool := s.limit ≤ s.attempts

/-- How many attempts the schedule still allows for. -/
def left (s : Schedule) : Nat := s.limit - s.attempts

/-- Claim the next attempt, counted from one, as long as the limit allows it. -/
def next (s : Schedule) : Option Nat × Schedule :=
  if s.isExhausted then (none, s)
  else (some (s.attempts + 1), { s with attempts := s.attempts + 1 })

theorem isExhausted_iff (s : Schedule) : s.isExhausted = true ↔ s.left = 0 := by
  simp [isExhausted, left, Nat.sub_eq_zero_iff_le]

end Schedule

end Larder.Polling
