import Larder.Proofs.DeliveryWaits
import Larder.Proofs.VariableSettings
import Larder.Proofs.Waiting

namespace Larder

namespace Polling.Watch

variable {σ ω : Type} {w : Watch σ ω} {schedule : Schedule} {s s' : σ} {polls : List (Asked σ)}
  {e : Ended (WatchEnd ω)}

/-- How a whole watch goes, with the polls that are made in it: what is settled is not asked for. -/
inductive Course (w : Watch σ ω) (schedule : Schedule) :
    σ → List (Asked σ) → Ended (WatchEnd ω) → σ → Prop where
  | settled {s : σ} {o : ω} (ho : w.outcome? s = some o) :
      Course w schedule s [] (.done (.settled o)) s
  | watched {s s' : σ} {polls : List (Asked σ)} {e : Ended (WatchEnd ω)}
      (ho : w.outcome? s = none)
      (h : Rounds w schedule.interval schedule.left schedule.attempts s polls e s') :
      Course w schedule s polls e s'

theorem run_course (h : (w.run schedule).run s = (e, s')) :
    ∃ polls, w.Course schedule s polls e s' := by
  rcases run_cases h with ⟨o, ho, rfl, rfl⟩ | ⟨ho, polls, hrounds⟩
  · exact ⟨[], .settled ho⟩
  · exact ⟨polls, .watched ho hrounds⟩

theorem Course.slept_le (hw : ∀ l s, w.line (w.withLine l s) = l)
    (h : w.Course schedule s polls e s') :
    w.slept s polls s' ≤ (schedule.limit - 1) * schedule.interval := by
  cases h with
  | settled => simp [slept]
  | watched _ h =>
    have hleft : schedule.left - 1 ≤ schedule.limit - 1 :=
      Nat.sub_le_sub_right (Nat.sub_le _ _) 1
    exact (h.slept_bound hw).trans (Nat.mul_le_mul hleft (Nat.min_le_left _ _))

end Polling.Watch

namespace Settings

open Polling (Asked Schedule Watch WatchEnd)

/-- A watch with these settings goes its course, and sleeps for so long at most in it. -/
def Sleeps (s : Settings) (bound : Nat) {σ ω : Type} (w : Watch σ ω) (t : σ)
    (e : Ended (WatchEnd ω)) (t' : σ) : Prop :=
  ∃ polls, w.Course (.ofSettings s) t polls e t' ∧ w.slept t polls t' ≤ bound

/-- No poll loop with these settings sleeps longer than this, be it for an order, for a delivery or
for anything else that is watched over a line. -/
structure SleepsWithin (s : Settings) (bound : Nat) : Prop where
  watch : ∀ {σ ω : Type} (w : Watch σ ω) (t t' : σ) (e : Ended (WatchEnd ω)),
    (∀ l u, w.line (w.withLine l u) = l) → (w.run (.ofSettings s)).run t = (e, t') →
    s.Sleeps bound w t e t'
  order : ∀ (f f' : Fridge) (e : Ended (WatchEnd OrderOutcome)), f.settings = s →
    Fridge.waitForCompletion.run f = (e, f') → s.Sleeps bound Fridge.watch f e f'
  delivery : ∀ (t t' : Supplier) (e : Ended (WatchEnd RestockOutcome)), t.settings = s →
    Supplier.waitForCompletion.run t = (e, t') → s.Sleeps bound Supplier.watch t e t'

/-- What the longest time of a poll loop says of settings. -/
structure PollTimes (s : Settings) : Prop where
  duration : ∀ d, s.maxPollDuration? = some d ↔
    d = s.pollInterval * s.maxPollAttempts.toNat ∧ d < 1000 * 2 ^ 64
  sleeps : s.SleepsWithin (s.pollInterval * s.maxPollAttempts.toNat)
  bounds : ∀ d, s.maxPollDuration? = some d → s.SleepsWithin d
  /-- Any interval will do for a thousand attempts. -/
  few : s.maxPollAttempts.toNat ≤ 1000 → s.maxPollDuration?.isSome
  /-- Any number of attempts will do for an interval of 136 years, `2 ^ 32` seconds. -/
  short : s.pollInterval ≤ 1000 * 2 ^ 32 → s.maxPollDuration?.isSome

variable {s : Settings} {d : Nat}

theorem maxPollDuration?_eq_some_iff : s.maxPollDuration? = some d ↔
    d = s.pollInterval * s.maxPollAttempts.toNat ∧ d < 1000 * 2 ^ 64 := by
  have hholds : s.pollInterval * s.maxPollAttempts.toNat / 1000 < secondsBound ↔
      s.pollInterval * s.maxPollAttempts.toNat < 1000 * 2 ^ 64 := by
    rw [Nat.div_lt_iff_lt_mul (by decide), Nat.mul_comm secondsBound]
    rfl
  unfold maxPollDuration?
  dsimp only
  split
  · rename_i h
    rw [Option.some.injEq, eq_comm, and_iff_left_of_imp]
    rintro rfl
    exact hholds.mp h
  · rename_i h
    refine ⟨nofun, ?_⟩
    rintro ⟨rfl, hd⟩
    exact absurd (hholds.mpr hd) h

theorem maxPollDuration?_isSome
    (h : s.pollInterval * s.maxPollAttempts.toNat < 1000 * 2 ^ 64) : s.maxPollDuration?.isSome :=
  Option.isSome_of_eq_some (maxPollDuration?_eq_some_iff.mpr ⟨rfl, h⟩)

/-- There is one pause less than there are attempts, so the product has time to spare. -/
theorem sleepsWithin (s : Settings) :
    s.SleepsWithin (s.pollInterval * s.maxPollAttempts.toNat) := by
  have hwatch : ∀ {σ ω : Type} (w : Watch σ ω) (t t' : σ) (e : Ended (WatchEnd ω)),
      (∀ l u, w.line (w.withLine l u) = l) → (w.run (.ofSettings s)).run t = (e, t') →
      s.Sleeps (s.pollInterval * s.maxPollAttempts.toNat) w t e t' := by
    intro σ ω w t t' e hw h
    obtain ⟨polls, hcourse⟩ := Watch.run_course h
    refine ⟨polls, hcourse, ?_⟩
    calc w.slept t polls t'
        ≤ (max s.maxPollAttempts.toNat 1 - 1) * s.pollInterval := hcourse.slept_le hw
      _ ≤ s.maxPollAttempts.toNat * s.pollInterval := Nat.mul_le_mul_right _ (by omega)
      _ = s.pollInterval * s.maxPollAttempts.toNat := Nat.mul_comm _ _
  exact {
    watch := hwatch
    order := by
      rintro f f' e rfl h
      exact hwatch Fridge.watch f f' e Fridge.watch_line h
    delivery := by
      rintro t t' e rfl h
      exact hwatch Supplier.watch t t' e Supplier.watch_line h }

/-- A variable holds no interval of `2 ^ 64` milliseconds or more. -/
theorem pollInterval_lt (lookup : String → Option String) :
    (ofVariables lookup).pollInterval < 2 ^ 64 := by
  by_cases h : ∃ v n, lookup "GROCERY_POLL_INTERVAL_MS" = some v ∧ Spells v n
  · obtain ⟨v, n, hv, hn⟩ := h
    rw [decided.pollInterval.read lookup v n hv hn]
    exact hn.2
  · have hnone := decided.pollInterval.otherwise lookup fun v n hv hn => h ⟨v, n, hv, hn⟩
    rw [hnone]
    decide

/-- Settings from variables have a longest time for a poll loop as long as the interval or the
number of attempts is not out of the ordinary, and no poll loop sleeps for longer than that. -/
theorem ofVariables_pollTimes (lookup : String → Option String) :
    (ofVariables lookup).PollTimes where
  duration _ := maxPollDuration?_eq_some_iff
  sleeps := sleepsWithin (ofVariables lookup)
  bounds d hd := by
    rw [(maxPollDuration?_eq_some_iff.mp hd).1]
    exact sleepsWithin (ofVariables lookup)
  few h := by
    refine maxPollDuration?_isSome ?_
    have hinterval := pollInterval_lt lookup
    calc (ofVariables lookup).pollInterval * (ofVariables lookup).maxPollAttempts.toNat
        ≤ (2 ^ 64 - 1) * 1000 := Nat.mul_le_mul (by omega) h
      _ < 1000 * 2 ^ 64 := by decide
  short h := by
    refine maxPollDuration?_isSome ?_
    calc (ofVariables lookup).pollInterval * (ofVariables lookup).maxPollAttempts.toNat
        ≤ 1000 * 2 ^ 32 * (2 ^ 32 - 1) := Nat.mul_le_mul h (ofVariables_sound lookup).attempts.2
      _ < 1000 * 2 ^ 64 := by decide

/-- The longest interval that a variable can hold, and the most attempts. -/
def farthest (name : String) : Option String :=
  if name = "GROCERY_POLL_INTERVAL_MS" then some "18446744073709551615"
  else if name = "GROCERY_MAX_POLL_ATTEMPTS" then some "4294967295"
  else none

/-- Each of the two is fine by itself, and a duration does not hold their product. -/
theorem farthest_overflows : (ofVariables farthest).pollInterval = 2 ^ 64 - 1 ∧
    (ofVariables farthest).maxPollAttempts.toNat = 2 ^ 32 - 1 ∧
    (ofVariables farthest).maxPollDuration? = none := by
  decide +kernel

end Settings

end Larder
