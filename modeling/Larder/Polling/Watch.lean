import Larder.Call
import Larder.Line
import Larder.Polling.Schedule

namespace Larder.Polling

/-- How watching ended. -/
inductive WatchEnd (ω : Type) where
  | settled (outcome : ω)
  /-- Not settled after all attempts; it may be watched again. -/
  | timedOut (attempts : Nat)
  /-- The caller stopped waiting. -/
  | cancelled (attempts : Nat)
  deriving DecidableEq, Repr

/-- What is watched: how to ask once, how to tell the outcome, and which failures end it all. A poll
that fails otherwise counts as one that brought nothing. -/
structure Watch (σ ω : Type) where
  line : σ → Line
  withLine : Line → σ → σ
  poll : Call σ Unit
  outcome? : σ → Option ω
  isFatal : Failure → Bool

namespace Watch

variable {σ ω : Type}

def isCancelled (w : Watch σ ω) : Call σ Bool := .view fun s => (w.line s).isCancelled

/-- Wait one interval; false when the caller stops waiting first. -/
def pause (w : Watch σ ω) (interval : Nat) : Call σ Bool :=
  .within w.line w.withLine (.wait (Line.sleep interval))

/-- Ask once; gives the outcome if there is one now. -/
def ask (w : Watch σ ω) : Call σ (Option ω) := do
  match ← w.poll.attempt with
  | .ok () => Call.view w.outcome?
  | .error e => if w.isFatal e then Call.fail e else return none

/-- Go on with `left` polls after `made` of them. -/
def rounds (w : Watch σ ω) (interval : Nat) : (left made : Nat) → Call σ (WatchEnd ω)
  | 0, made => return .timedOut made
  | left + 1, made => do
    if ← w.isCancelled then return .cancelled made
    else
      match ← w.ask with
      | some outcome => return .settled outcome
      | none =>
        if left = 0 then return .timedOut (made + 1)
        else if ← w.pause interval then w.rounds interval left (made + 1)
        else return .cancelled (made + 1)

/-- Watch until it is settled, within the limits of a schedule. What is settled already is not
asked for. -/
def run (w : Watch σ ω) (schedule : Schedule) : Call σ (WatchEnd ω) := do
  match ← Call.view w.outcome? with
  | some outcome => return .settled outcome
  | none => w.rounds schedule.interval schedule.left schedule.attempts

/-- The rounds that a schedule allows for are those of its next attempt and, after a pause, those
that it allows for then. -/
theorem rounds_next (w : Watch σ ω) (s : Schedule) :
    w.rounds s.interval s.left s.attempts =
      match s.next with
      | (none, s) => return .timedOut s.attempts
      | (some attempt, s) => do
        if ← w.isCancelled then return .cancelled (attempt - 1)
        else
          match ← w.ask with
          | some outcome => return .settled outcome
          | none =>
            if s.isExhausted then return .timedOut s.attempts
            else if ← w.pause s.interval then w.rounds s.interval s.left s.attempts
            else return .cancelled attempt := by
  cases hleft : s.left with
  | zero =>
    have hexhausted : s.isExhausted = true := s.isExhausted_iff.mpr hleft
    simp only [Schedule.next, hexhausted, ↓reduceIte]
    rfl
  | succ left =>
    have hopen : s.isExhausted = false := by
      rw [Bool.eq_false_iff, ne_eq, s.isExhausted_iff, hleft]
      exact Nat.succ_ne_zero left
    have hnext : Schedule.left { s with attempts := s.attempts + 1 } = left := by
      change s.limit - (s.attempts + 1) = left
      rw [Nat.sub_add_eq, show s.limit - s.attempts = left + 1 from hleft, Nat.add_sub_cancel]
    have hlast : Schedule.isExhausted { s with attempts := s.attempts + 1 } = decide (left = 0) := by
      rw [Bool.eq_iff_iff, Schedule.isExhausted_iff, hnext, decide_eq_true_iff]
    simp only [Schedule.next, hopen, hnext, hlast, rounds, Nat.add_sub_cancel, decide_eq_true_eq,
      Bool.false_eq_true, ↓reduceIte]

end Watch

end Larder.Polling
