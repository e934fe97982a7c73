import Larder.Proofs.OrderCourse

namespace Larder

open Polling (Asked Watch WatchEnd)

namespace Fridge

theorem lastRecord_isNotAllowed {r : Response} {x : Failure} (h : lastRecord r = .error x) :
    x.isNotAllowed = false := by
  unfold lastRecord at h
  split at h
  · cases h
  · cases hc : r.content (Wire.Envelope.decode Wire.OrderRecord.decode) with
    | ok envelope =>
      rw [hc] at h
      cases h
    | error y =>
      rw [hc] at h
      cases h
      exact Response.content_isNotAllowed hc

/-- A poll of an order that awaits its result is always allowed. -/
theorem poll_isNotAllowed {f f' : Fridge} {x : Failure} (hf : f.order.isAwaiting = true)
    (h : poll.forget.run f = (.failed x, f')) : x.isNotAllowed = false := by
  have hrun : pollErrand.call.run f = (.failed x, f') := poll_eq ▸ Call.forget_failed h
  cases Errand.call_cases hrun with
  | refused hr =>
    have hcheck : checkCanPoll f.order = .ok () := by simp [checkCanPoll, hf]
    simp only [pollErrand, hcheck] at hr
    cases hr
  | failed _ hc => exact Account.authorizedCall_isNotAllowed hc
  | unsettled _ _ hs =>
    rcases Order.Step.given_error hs with hl | ⟨record, _, happly⟩
    · exact lastRecord_isNotAllowed hl
    · obtain ⟨o, ho⟩ := Order.applyPoll_of_awaiting record hf
      cases ho.symm.trans happly

/-- The poll neither settled the order nor was turned down for good. -/
def Fruitless (p : Asked Fridge) : Prop :=
  p.ended ≠ .dropped ∧ p.after.order.outcome? = none ∧
    ∀ x, p.ended = .failed x → x.isUnauthorized = false

section Polls

variable {p : Asked Fridge}

/-- What a poll makes of an order that awaits its result. -/
theorem poll_awaiting (hp : watch.Asks p) (hb : p.before.order.isAwaiting = true) :
    p.after.order.ticket? = p.before.order.ticket? ∧
    (p.after.order.outcome? = none → p.after.order.isAwaiting = true) ∧
    (p.ended ≠ .done () → p.after.order.outcome? = none) := by
  have hnone : ∀ {o : Order}, o.isAwaiting = true → o.outcome? = none := by
    intro o ho
    obtain ⟨t, rfl | ⟨status, rfl⟩⟩ := Order.isAwaiting_cases ho <;> rfl
  rcases poll_moves.forget.order hp.ran with hs | ⟨he, record, happly⟩
  · rw [hs]
    exact ⟨rfl, fun _ => hb, fun _ => hnone hb⟩
  · obtain ⟨t, ho, hpolled⟩ := Order.applyPoll_cases happly
    refine ⟨?_, hpolled.awaiting, fun hn => absurd he hn⟩
    rw [hpolled.ticket]
    rcases ho with ho | ⟨status, ho⟩ <;> rw [ho] <;> rfl

theorem bare_iff (hp : watch.Asks p) (hb : p.before.order.isAwaiting = true) :
    watch.Bare p ↔ Fruitless p := by
  obtain ⟨_, _, hnone⟩ := poll_awaiting hp hb
  constructor
  · rintro (⟨he, ho⟩ | ⟨x, hx, hfatal⟩)
    · exact ⟨by simp [he], ho, by simp [he]⟩
    · refine ⟨by simp [hx], hnone (by simp [hx]), ?_⟩
      intro y hy
      rw [hx] at hy
      cases hy
      exact (Bool.or_eq_false_iff.mp hfatal).1
  · rintro ⟨hd, ho, hx⟩
    cases he : p.ended with
    | dropped => exact absurd he hd
    | done u => exact Or.inl ⟨he, ho⟩
    | failed x =>
      have hran := hp.ran
      rw [he] at hran
      refine Or.inr ⟨x, he, ?_⟩
      exact Bool.or_eq_false_iff.mpr ⟨hx x he, poll_isNotAllowed hb hran⟩

theorem settles_iff (hp : watch.Asks p) (hb : p.before.order.isAwaiting = true)
    (o : OrderOutcome) : watch.Settles o p ↔ p.after.order.outcome? = some o := by
  obtain ⟨_, _, hnone⟩ := poll_awaiting hp hb
  constructor
  · rintro ⟨_, ho⟩
    exact ho
  · intro ho
    refine ⟨?_, ho⟩
    by_cases hd : p.ended = .done ()
    · exact hd
    · rw [hnone hd] at ho
      cases ho

theorem fails_iff (hp : watch.Asks p) (hb : p.before.order.isAwaiting = true) (x : Failure) :
    watch.Fails x p ↔ p.ended = .failed x ∧ x.isUnauthorized = true := by
  constructor
  · rintro ⟨he, hx⟩
    have hran := hp.ran
    rw [he] at hran
    have hn := poll_isNotAllowed hb hran
    refine ⟨he, ?_⟩
    simpa [watch, hn] using hx
  · rintro ⟨he, hx⟩
    exact ⟨he, by simp [watch, hx]⟩

end Polls

/-- How often a fridge polls at most. -/
def attempts (f : Fridge) : Nat := max f.settings.maxPollAttempts.toNat 1

/-- How long a fridge sleeps between two polls. -/
def pauseLength (f : Fridge) : Nat := min f.settings.pollInterval Line.longestWait

/-- How waiting for an order goes, with the polls that were made. -/
structure Waited (f : Fridge) (polls : List (Asked Fridge))
    (e : Ended (WatchEnd OrderOutcome)) (f' : Fridge) : Prop where
  rounds : watch.Rounds f.settings.pollInterval f.attempts 0 f polls e f'
  count : polls.length ≤ f.attempts
  polled : ∀ p ∈ polls, p.before.line.isCancelled = false ∧
    poll.forget.run p.before = (p.ended, p.after)
  fruitless : ∀ p ∈ polls.dropLast, Fruitless p
  settled : ∀ o, e = .done (.settled o) ↔
    ∃ p, polls.getLast? = some p ∧ p.after.order.outcome? = some o
  outcome : ∀ o, e = .done (.settled o) → f'.order.outcome? = some o
  failed : ∀ x, e = .failed x ↔
    ∃ p, polls.getLast? = some p ∧ p.ended = .failed x ∧ x.isUnauthorized = true
  cancelled : ∀ n, e = .done (.cancelled n) →
    n = polls.length ∧ n < f.attempts ∧ f'.line.isCancelled = true
  timedOut : ∀ n, e = .done (.timedOut n) ↔
    n = f.attempts ∧ polls.length = f.attempts ∧ ∀ p ∈ polls, Fruitless p
  awaiting : (∀ o, e ≠ .done (.settled o)) →
    f'.order.isAwaiting = true ∧ f'.order.ticket? = f.order.ticket?
  slept : e ≠ .dropped → (∀ n, e ≠ .done (.cancelled n)) →
    watch.slept f polls f' = (polls.length - 1) * f.pauseLength
  sleptCancelled : ∀ n, e = .done (.cancelled n) →
    watch.slept f polls f' ≤ n * f.pauseLength

theorem poll_finishes : Call.Finishes (fun f => (watch.line f).Attended) poll := by
  refine (Call.Finishes.view _).bind fun order => (Call.Finishes.ofExcept _).bind fun _ => ?_
  have hcall : Call.Finishes (fun f => (watch.line f).Attended) (call (.get lastOrderPath)) := by
    unfold call onAccount
    exact (Account.authorizedCall_finishes _).within (fun _ hf => hf) fun _ _ _ ha => ha
  exact hcall.bind fun response => (Call.Finishes.ofExcept _).bind fun record =>
    advance_finishes (fun _ _ hf => hf) _

theorem watch_line (l : Line) (f : Fridge) : watch.line (watch.withLine l f) = l := rfl

/-- The rounds of polls for an order that awaits its result. -/
theorem waited_of_rounds {f f' : Fridge} {polls : List (Asked Fridge)}
    {e : Ended (WatchEnd OrderOutcome)} (hf : f.order.isAwaiting = true)
    (h : watch.Rounds f.settings.pollInterval f.attempts 0 f polls e f') :
    f.Waited polls e f' := by
  have hpos : 0 < f.attempts := Nat.lt_of_lt_of_le Nat.one_pos (Nat.le_max_right _ _)
  obtain ⟨hbefore, hend⟩ := h.invariant
    (P := fun g => g.order.isAwaiting = true ∧ g.order.ticket? = f.order.ticket?)
    (fun _ _ hg => hg)
    (fun p hp hb hn => by
      obtain ⟨ht, ha, hnone⟩ := poll_awaiting hp hb.1
      refine ⟨ha ?_, ht.trans hb.2⟩
      by_cases hd : p.ended = .done ()
      · exact hn hd
      · exact hnone hd) ⟨hf, rfl⟩
  have hlast : ∀ {p}, polls.getLast? = some p →
      watch.Asks p ∧ p.before.order.isAwaiting = true := by
    intro p hp
    have hm := List.mem_of_getLast? hp
    exact ⟨h.asks p hm, (hbefore p hm).1⟩
  exact {
    rounds := h
    count := h.length_le
    polled := fun p hp => ⟨(h.asks p hp).waiting, (h.asks p hp).ran⟩
    fruitless := by
      intro p hp
      have hm := List.dropLast_subset polls hp
      exact (bare_iff (h.asks p hm) (hbefore p hm).1).mp (h.bare p hp)
    settled := by
      intro o
      rw [h.settled_iff]
      refine exists_congr fun p => and_congr_right fun hp => ?_
      exact settles_iff (hlast hp).1 (hlast hp).2 o
    outcome := fun o he => h.outcome he
    failed := by
      intro x
      rw [h.failed_iff]
      refine exists_congr fun p => and_congr_right fun hp => ?_
      exact fails_iff (hlast hp).1 (hlast hp).2 x
    cancelled := by
      intro n he
      obtain ⟨hn, hl, hc⟩ := h.cancelled_cases watch_line he
      exact ⟨by omega, by omega, hc⟩
    timedOut := by
      intro n
      rw [h.timedOut_iff, Nat.zero_add]
      refine and_congr_right fun _ => and_congr_right fun _ => forall₂_congr fun p hp => ?_
      exact bare_iff (h.asks p hp) (hbefore p hp).1
    awaiting := hend
    slept := by
      intro hd hc
      obtain ⟨_, hs⟩ := h.slept_eq watch_line hpos hd hc
      rw [Nat.sub_mul, Nat.one_mul]
      exact Nat.eq_sub_of_add_eq hs
    sleptCancelled := by
      intro n he
      obtain ⟨hn, _, _⟩ := h.cancelled_cases watch_line he
      rw [hn, Nat.zero_add]
      exact h.slept_le watch_line he }

/-- Waiting for an order that awaits its result ends when the line answers, and ends as its polls
say. -/
theorem waitForCompletion_waited {f f' : Fridge} {e : Ended (WatchEnd OrderOutcome)}
    (hf : f.order.isAwaiting = true) (h : waitForCompletion.run f = (e, f')) :
    (f.line.Attended → e ≠ .dropped) ∧ ∃ polls, f.Waited polls e f' := by
  constructor
  · intro hl
    have hfinishes : Call.Finishes (fun f => (watch.line f).Attended) waitForCompletion :=
      (Call.Finishes.view _).bind fun settings => (Call.Finishes.view _).bind fun outcome => by
        cases outcome with
        | some o => exact .pure _
        | none => exact Watch.rounds_finishes watch_line poll_finishes.forget _ _
    exact (hfinishes f e f' hl h).1
  · rcases waitForCompletion_cases h with ⟨o, ho, _, _⟩ | ⟨_, polls, hr⟩
    · obtain ⟨t, hc | ⟨status, hc⟩⟩ := Order.isAwaiting_cases hf <;> rw [hc] at ho <;> cases ho
    · exact ⟨polls, waited_of_rounds hf hr⟩

/-- A fridge that has confirmed an order and is to sleep for longer than a line can wait. -/
def patient : Fridge :=
  let settings := ((Settings.default.withPollInterval 946080000001).withMaxPollAttempts
    2).withRefreshInterval 10000000000000
  let line : Line := { replies := [⟨⟨200, Wire.Tokens.toJson ⟨"a1", "r1"⟩⟩, 0, false⟩,
    ⟨⟨201, .object [("order_id", .text "o1")]⟩, 0, false⟩, ⟨⟨200, .object []⟩, 0, false⟩] }
  [Event.operate (.login ⟨"f1", "p"⟩), .operate (.preview [⟨"MILK-1", 2⟩]),
    .operate .confirm].foldl Event.after
      (new settings (.ofDirectory ⟨["cache"]⟩) ⟨[(["cache"], .directory)]⟩ line)

theorem patient_waits : patient.order.isAwaiting = true ∧ patient.line.Attended := by
  refine ⟨by decide +kernel, ?_, ?_⟩ <;> decide +kernel

theorem waitForCompletion_waited_patient :
    patient.order.isAwaiting = true ∧ (waitForCompletion.run patient).1 ≠ .dropped ∧
    ∃ polls, patient.Waited polls (waitForCompletion.run patient).1
      (waitForCompletion.run patient).2 := by
  obtain ⟨hf, hl⟩ := patient_waits
  obtain ⟨hd, hw⟩ := waitForCompletion_waited hf (Prod.eta (waitForCompletion.run patient)).symm
  exact ⟨hf, hd hl, hw⟩

/-- It makes two polls, and sleeps for less than its poll interval between them. -/
theorem patient_sleeps_less : ∃ polls,
    waitForCompletion.run patient = (.done (.timedOut 2), (waitForCompletion.run patient).2) ∧
    watch.Rounds patient.settings.pollInterval patient.attempts 0 patient polls
      (.done (.timedOut 2)) (waitForCompletion.run patient).2 ∧
    watch.slept patient polls (waitForCompletion.run patient).2 <
      (polls.length - 1) * patient.settings.pollInterval := by
  have hrun : waitForCompletion.run patient =
      (.done (.timedOut 2), (waitForCompletion.run patient).2) :=
    Prod.ext (by decide +kernel) rfl
  have hattempts : patient.attempts = 2 := by decide +kernel
  have hpause : patient.pauseLength = 946080000000 := by decide +kernel
  have hinterval : patient.settings.pollInterval = 946080000001 := by decide +kernel
  rcases waitForCompletion_cases hrun with ⟨_, _, he, _⟩ | ⟨_, polls, hr⟩
  · cases he
  · have hw := waited_of_rounds patient_waits.1 hr
    have hlength : polls.length = 2 := ((hw.timedOut 2).mp rfl).2.1.trans hattempts
    have hslept := hw.slept (by simp) (by simp)
    refine ⟨polls, hrun, hr, ?_⟩
    rw [hslept, hlength, hpause, hinterval]
    decide

end Fridge

end Larder
