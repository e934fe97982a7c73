import Larder.Proofs.Calls
import Larder.Proofs.Lines
import Larder.Polling.Watch

namespace Larder.Polling

open Call

/-- One poll, with the states around it. -/
structure Asked (σ : Type) where
  before : σ
  ended : Ended Unit
  after : σ

namespace Watch

variable {σ ω : Type}

/-- The poll was made while the caller still waited. -/
structure Asks (w : Watch σ ω) (p : Asked σ) : Prop where
  waiting : (w.line p.before).isCancelled = false
  ran : w.poll.run p.before = (p.ended, p.after)

/-- The poll brought nothing, and another one may do better. -/
def Bare (w : Watch σ ω) (p : Asked σ) : Prop :=
  (p.ended = .done () ∧ w.outcome? p.after = none) ∨ ∃ f, p.ended = .failed f ∧ w.isFatal f = false

/-- The poll found what is watched settled. -/
def Settles (w : Watch σ ω) (o : ω) (p : Asked σ) : Prop :=
  p.ended = .done () ∧ w.outcome? p.after = some o

/-- The poll failed, and no other one could do better. -/
def Fails (w : Watch σ ω) (x : Failure) (p : Asked σ) : Prop :=
  p.ended = .failed x ∧ w.isFatal x = true

/-- How rounds go, with the polls that were made in them. -/
inductive Rounds (w : Watch σ ω) (interval : Nat) :
    Nat → Nat → σ → List (Asked σ) → Ended (WatchEnd ω) → σ → Prop where
  | exhausted {made : Nat} {s : σ} : Rounds w interval 0 made s [] (.done (.timedOut made)) s
  | cancelled {left made : Nat} {s : σ} (hc : (w.line s).isCancelled = true) :
      Rounds w interval (left + 1) made s [] (.done (.cancelled made)) s
  | settled {left made : Nat} {p : Asked σ} {o : ω} (hp : w.Asks p) (he : p.ended = .done ())
      (ho : w.outcome? p.after = some o) :
      Rounds w interval (left + 1) made p.before [p] (.done (.settled o)) p.after
  | fatal {left made : Nat} {p : Asked σ} {x : Failure} (hp : w.Asks p) (he : p.ended = .failed x)
      (hx : w.isFatal x = true) :
      Rounds w interval (left + 1) made p.before [p] (.failed x) p.after
  | dropped {left made : Nat} {p : Asked σ} (hp : w.Asks p) (he : p.ended = .dropped) :
      Rounds w interval (left + 1) made p.before [p] .dropped p.after
  | last {made : Nat} {p : Asked σ} (hp : w.Asks p) (hb : w.Bare p) :
      Rounds w interval 1 made p.before [p] (.done (.timedOut (made + 1))) p.after
  | again {left made : Nat} {p : Asked σ} {u v : σ} {polls : List (Asked σ)}
      {e : Ended (WatchEnd ω)} (hp : w.Asks p) (hb : w.Bare p)
      (hs : (w.pause interval).run p.after = (.done true, u))
      (rest : Rounds w interval (left + 1) (made + 1) u polls e v) :
      Rounds w interval (left + 2) made p.before (p :: polls) e v
  | interrupted {left made : Nat} {p : Asked σ} {u : σ} (hp : w.Asks p) (hb : w.Bare p)
      (hs : (w.pause interval).run p.after = (.done false, u)) :
      Rounds w interval (left + 2) made p.before [p] (.done (.cancelled (made + 1))) u
  | pauseDropped {left made : Nat} {p : Asked σ} {u : σ} (hp : w.Asks p) (hb : w.Bare p)
      (hs : (w.pause interval).run p.after = (.dropped, u)) :
      Rounds w interval (left + 2) made p.before [p] .dropped u

/-- A pause changes the line only. -/
theorem pause_cases {w : Watch σ ω} {interval : Nat} {s s' : σ} {e : Ended Bool}
    (h : (w.pause interval).run s = (e, s')) : ∃ o l, (w.line s).sleep interval = (o, l) ∧
      s' = w.withLine l s ∧ ((∃ b, o = some b ∧ e = .done b) ∨ (o = none ∧ e = .dropped)) := by
  obtain ⟨l, hl, rfl⟩ := within_cases h
  obtain ⟨o, ho, he⟩ := wait_cases hl
  exact ⟨o, l, ho, rfl, he⟩

theorem pause_preserves {w : Watch σ ω} {P : σ → Prop} {interval : Nat} {s s' : σ}
    {e : Ended Bool} (hline : ∀ l s, P s → P (w.withLine l s))
    (h : (w.pause interval).run s = (e, s')) (hs : P s) : P s' := by
  obtain ⟨o, l, _, rfl, _⟩ := pause_cases h
  exact hline l s hs

/-- How asking once goes. -/
theorem ask_cases {w : Watch σ ω} {s t : σ} {e : Ended (Option ω)} (h : w.ask.run s = (e, t)) :
    ∃ ended, w.poll.run s = (ended, t) ∧
      ((∃ o, ended = .done () ∧ w.outcome? t = some o ∧ e = .done (some o)) ∨
       (w.Bare ⟨s, ended, t⟩ ∧ e = .done none) ∨
       (∃ x, ended = .failed x ∧ w.isFatal x = true ∧ e = .failed x) ∨
       (ended = .dropped ∧ e = .dropped)) := by
  unfold ask at h
  rcases bind_cases h with ⟨r, t', ha, hr⟩ | ⟨x, ha, rfl⟩ | ⟨ha, rfl⟩
  all_goals
    obtain ⟨ended, hp, ⟨a, rfl, he⟩ | ⟨y, rfl, he⟩ | ⟨rfl, he⟩⟩ := attempt_cases ha
    all_goals cases he
  · cases hr
    refine ⟨_, hp, ?_⟩
    cases ho : w.outcome? t with
    | some o => exact Or.inl ⟨o, rfl, rfl, rfl⟩
    | none => exact Or.inr (Or.inl ⟨Or.inl ⟨rfl, ho⟩, rfl⟩)
  · cases hx : w.isFatal y <;> simp only [hx] at hr <;> cases hr
    · exact ⟨_, hp, Or.inr (Or.inl ⟨Or.inr ⟨y, rfl, hx⟩, rfl⟩)⟩
    · exact ⟨_, hp, Or.inr (Or.inr (Or.inl ⟨y, rfl, hx, rfl⟩))⟩
  · exact ⟨_, hp, Or.inr (Or.inr (Or.inr ⟨rfl, rfl⟩))⟩

theorem rounds_cases {w : Watch σ ω} {interval left made : Nat} {s s' : σ}
    {e : Ended (WatchEnd ω)} (h : (w.rounds interval left made).run s = (e, s')) :
    ∃ polls, Rounds w interval left made s polls e s' := by
  induction left generalizing made s with
  | zero =>
    cases h
    exact ⟨[], .exhausted⟩
  | succ left ih =>
    unfold rounds isCancelled at h
    rw [run_view_bind] at h
    cases hc : (w.line s).isCancelled with
    | true =>
      rw [hc] at h
      cases h
      exact ⟨[], .cancelled hc⟩
    | false =>
      rw [hc] at h
      rcases bind_cases h with ⟨o?, t, ha, hr⟩ | ⟨x, ha, rfl⟩ | ⟨ha, rfl⟩
      all_goals
        obtain ⟨ended, hp, hcases⟩ := ask_cases ha
        have hasks : w.Asks ⟨s, ended, _⟩ := ⟨hc, hp⟩
        rcases hcases with ⟨o, rfl, ho, he⟩ | ⟨hb, he⟩ | ⟨y, rfl, hy, he⟩ | ⟨rfl, he⟩
        all_goals cases he
      · cases hr
        exact ⟨_, .settled hasks rfl ho⟩
      · dsimp only at hr
        split at hr
        · rename_i hl
          subst hl
          cases hr
          exact ⟨_, .last hasks hb⟩
        · rename_i hl
          obtain ⟨left, rfl⟩ := Nat.exists_eq_succ_of_ne_zero hl
          rcases bind_cases hr with ⟨b, u, hs, hr⟩ | ⟨x, hs, rfl⟩ | ⟨hs, rfl⟩
          · cases b with
            | true =>
              obtain ⟨polls, hrest⟩ := ih hr
              exact ⟨_, .again hasks hb hs hrest⟩
            | false =>
              cases hr
              exact ⟨_, .interrupted hasks hb hs⟩
          · obtain ⟨_, _, _, _, ⟨_, _, he⟩ | ⟨_, he⟩⟩ := pause_cases hs <;> cases he
          · exact ⟨_, .pauseDropped hasks hb hs⟩
      · exact ⟨_, .fatal hasks rfl hy⟩
      · exact ⟨_, .dropped hasks rfl⟩

/-- What is settled is not asked for, and all else is watched in rounds. -/
theorem run_cases {w : Watch σ ω} {schedule : Schedule} {s s' : σ} {e : Ended (WatchEnd ω)}
    (h : (w.run schedule).run s = (e, s')) :
    (∃ o, w.outcome? s = some o ∧ e = .done (.settled o) ∧ s' = s) ∨
    (w.outcome? s = none ∧
      ∃ polls, Rounds w schedule.interval schedule.left schedule.attempts s polls e s') := by
  unfold Watch.run at h
  rw [run_view_bind] at h
  cases ho : w.outcome? s with
  | some o =>
    rw [ho] at h
    cases h
    exact Or.inl ⟨o, rfl, rfl, rfl⟩
  | none =>
    rw [ho] at h
    exact Or.inr ⟨rfl, rounds_cases h⟩

section Rounds

variable {w : Watch σ ω} {interval left made : Nat} {s s' : σ} {polls : List (Asked σ)}
  {e : Ended (WatchEnd ω)}

theorem Rounds.length_le (h : Rounds w interval left made s polls e s') : polls.length ≤ left := by
  induction h with
  | again _ _ _ _ ih =>
    rw [List.length_cons]
    omega
  | _ => simp

theorem Rounds.asks (h : Rounds w interval left made s polls e s') : ∀ p ∈ polls, w.Asks p := by
  induction h with
  | exhausted => simp
  | cancelled => simp
  | again hp _ _ _ ih => simpa using ⟨hp, ih⟩
  | settled hp => simpa using hp
  | fatal hp => simpa using hp
  | dropped hp => simpa using hp
  | last hp => simpa using hp
  | interrupted hp => simpa using hp
  | pauseDropped hp => simpa using hp

/-- Every poll but the last brought nothing. -/
theorem Rounds.bare (h : Rounds w interval left made s polls e s') :
    ∀ p ∈ polls.dropLast, w.Bare p := by
  induction h with
  | @again left made p u v polls e hp hb hs rest ih =>
    intro q hq
    cases polls with
    | nil => simp at hq
    | cons p' polls =>
      rw [List.dropLast_cons_cons] at hq
      rcases List.mem_cons.mp hq with rfl | hq
      · exact hb
      · exact ih q hq
  | _ => simp

theorem exists_getLast?_cons {α : Type} {P : α → Prop} {a : α} {l : List α} (h : ¬ P a) :
    (∃ b, (a :: l).getLast? = some b ∧ P b) ↔ ∃ b, l.getLast? = some b ∧ P b := by
  cases l with
  | nil => simpa using h
  | cons b l => rw [List.getLast?_cons_cons]

theorem Bare.not_settled {p : Asked σ} (h : w.Bare p) (o : ω) : ¬ w.Settles o p := by
  rintro ⟨he, ho⟩
  rcases h with ⟨_, hn⟩ | ⟨x, hx, _⟩
  · rw [hn] at ho
    cases ho
  · rw [hx] at he
    cases he

theorem Bare.not_fatal {p : Asked σ} (h : w.Bare p) (x : Failure) : ¬ w.Fails x p := by
  rintro ⟨he, hx⟩
  rcases h with ⟨hd, _⟩ | ⟨y, hy, hn⟩
  · rw [hd] at he
    cases he
  · rw [hy] at he
    cases he
    rw [hn] at hx
    cases hx

/-- It is settled just when the last poll finds it so. -/
theorem Rounds.settled_iff (h : Rounds w interval left made s polls e s') (o : ω) :
    e = .done (.settled o) ↔ ∃ p, polls.getLast? = some p ∧ w.Settles o p := by
  induction h with
  | exhausted => simp
  | cancelled => simp
  | settled _ he ho => simp [Settles, he, ho]
  | fatal _ he => simp [Settles, he]
  | dropped _ he => simp [Settles, he]
  | last _ hb => simpa using hb.not_settled o
  | again _ hb _ _ ih =>
    exact ih.trans (exists_getLast?_cons (hb.not_settled o)).symm
  | interrupted _ hb => simpa using hb.not_settled o
  | pauseDropped _ hb => simpa using hb.not_settled o

theorem Rounds.outcome (h : Rounds w interval left made s polls e s') {o : ω}
    (he : e = .done (.settled o)) : w.outcome? s' = some o := by
  induction h with
  | settled _ _ ho =>
    cases he
    exact ho
  | again _ _ _ _ ih => exact ih he
  | _ => cases he

/-- It fails just when the last poll fails in a way that no later poll could mend. -/
theorem Rounds.failed_iff (h : Rounds w interval left made s polls e s') (x : Failure) :
    e = .failed x ↔ ∃ p, polls.getLast? = some p ∧ w.Fails x p := by
  induction h with
  | exhausted => simp
  | cancelled => simp
  | settled _ he => simp [Fails, he]
  | fatal _ he hx =>
    simp only [List.getLast?_singleton, Option.some.injEq, exists_eq_left', Fails, he,
      Ended.failed.injEq]
    constructor
    · rintro rfl
      exact ⟨rfl, hx⟩
    · rintro ⟨rfl, _⟩
      rfl
  | dropped _ he => simp [Fails, he]
  | last _ hb => simpa using hb.not_fatal x
  | again _ hb _ _ ih =>
    exact ih.trans (exists_getLast?_cons (hb.not_fatal x)).symm
  | interrupted _ hb => simpa using hb.not_fatal x
  | pauseDropped _ hb => simpa using hb.not_fatal x

/-- It times out just when all polls were made and none brought anything. -/
theorem Rounds.timedOut_iff (h : Rounds w interval left made s polls e s') (n : Nat) :
    e = .done (.timedOut n) ↔
      n = made + left ∧ polls.length = left ∧ ∀ p ∈ polls, w.Bare p := by
  induction h with
  | exhausted => simp [eq_comm]
  | cancelled => simp
  | @settled left made p o _ he ho =>
    simp only [reduceCtorEq, Ended.done.injEq, false_iff]
    rintro ⟨_, _, hb⟩
    exact (hb p (by simp)).not_settled o ⟨he, ho⟩
  | @fatal left made p x _ he hx =>
    simp only [reduceCtorEq, false_iff]
    rintro ⟨_, _, hb⟩
    exact (hb p (by simp)).not_fatal x ⟨he, hx⟩
  | @dropped left made p _ he =>
    simp only [reduceCtorEq, false_iff]
    rintro ⟨_, _, hb⟩
    rcases hb p (by simp) with ⟨hd, _⟩ | ⟨x, hx, _⟩
    · simp [he] at hd
    · simp [he] at hx
  | last _ hb => simp [hb, eq_comm]
  | again _ hb _ _ ih =>
    rw [ih, List.length_cons, List.forall_mem_cons]
    constructor
    · rintro ⟨rfl, hl, hall⟩
      exact ⟨by omega, by omega, hb, hall⟩
    · rintro ⟨rfl, hl, _, hall⟩
      exact ⟨by omega, by omega, hall⟩
  | interrupted => simp
  | pauseDropped => simp

/-- It is cancelled only before all polls were made, and when the caller has stopped waiting. -/
theorem Rounds.cancelled_cases (hw : ∀ l s, w.line (w.withLine l s) = l)
    (h : Rounds w interval left made s polls e s') {n : Nat} (he : e = .done (.cancelled n)) :
    n = made + polls.length ∧ polls.length < left ∧ (w.line s').isCancelled = true := by
  induction h with
  | cancelled hc =>
    cases he
    exact ⟨rfl, Nat.succ_pos _, hc⟩
  | again _ _ _ _ ih =>
    obtain ⟨hn, hl, hc⟩ := ih he
    exact ⟨by rw [List.length_cons]; omega, by rw [List.length_cons]; omega, hc⟩
  | interrupted _ _ hs =>
    cases he
    obtain ⟨o, l, ho, rfl, ⟨b, rfl, hb⟩ | ⟨_, hb⟩⟩ := pause_cases hs <;> cases hb
    obtain ⟨n, rfl, ⟨hb, _⟩ | ⟨_, _, hc⟩ | ⟨hb, _⟩⟩ := Line.sleep_cases ho
    · cases hb
    · rw [hw]
      exact ⟨rfl, by simp, hc⟩
    · cases hb
  | _ => cases he

/-- What pauses keep, and polls that find nothing settled, lasts as long as that is so. -/
theorem Rounds.invariant {P : σ → Prop} (hline : ∀ l s, P s → P (w.withLine l s))
    (hpoll : ∀ p, w.Asks p → P p.before →
      (p.ended = .done () → w.outcome? p.after = none) → P p.after)
    (h : Rounds w interval left made s polls e s') (hs : P s) :
    (∀ p ∈ polls, P p.before) ∧ ((∀ o, e ≠ .done (.settled o)) → P s') := by
  have hbare : ∀ {p}, w.Asks p → w.Bare p → P p.before → P p.after := by
    intro p hp hb hP
    refine hpoll p hp hP fun he => ?_
    rcases hb with ⟨_, hn⟩ | ⟨x, hx, _⟩
    · exact hn
    · simp [hx] at he
  induction h with
  | exhausted => exact ⟨by simp, fun _ => hs⟩
  | cancelled => exact ⟨by simp, fun _ => hs⟩
  | @settled _ _ _ o => exact ⟨by simpa using hs, fun hn => absurd rfl (hn o)⟩
  | fatal hp he => exact ⟨by simpa using hs, fun _ => hpoll _ hp hs (by simp [he])⟩
  | dropped hp he => exact ⟨by simpa using hs, fun _ => hpoll _ hp hs (by simp [he])⟩
  | last hp hb => exact ⟨by simpa using hs, fun _ => hbare hp hb hs⟩
  | again hp hb ht _ ih =>
    obtain ⟨hall, hend⟩ := ih (pause_preserves hline ht (hbare hp hb hs))
    exact ⟨by simpa using ⟨hs, hall⟩, hend⟩
  | interrupted hp hb ht | pauseDropped hp hb ht =>
    exact ⟨by simpa using hs, fun _ => pause_preserves hline ht (hbare hp hb hs)⟩

theorem pause_sent (hw : ∀ l s, w.line (w.withLine l s) = l) {t u : σ} {b : Ended Bool}
    (h : (w.pause interval).run t = (b, u)) : (w.line u).sent = (w.line t).sent := by
  obtain ⟨o, l, hl, rfl, _⟩ := pause_cases h
  obtain ⟨n, rfl, _⟩ := Line.sleep_cases hl
  rw [hw]

/-- Where each poll sends one and the same request, that is all that is sent. -/
theorem Rounds.sent_eq (hw : ∀ l s, w.line (w.withLine l s) = l)
    (h : Rounds w interval left made s polls e s') {r : Request}
    (hp : ∀ p ∈ polls, (w.line p.after).sent = (w.line p.before).sent ++ [r]) :
    (w.line s').sent = (w.line s).sent ++ List.replicate polls.length r := by
  induction h with
  | exhausted => simp
  | cancelled => simp
  | again _ _ hs _ ih =>
    obtain ⟨hfirst, hrest⟩ := List.forall_mem_cons.mp hp
    rw [ih hrest, pause_sent hw hs, hfirst, List.length_cons, List.replicate_succ,
      List.append_assoc, List.singleton_append]
  | interrupted _ _ hs => rw [pause_sent hw hs, hp _ (List.mem_singleton_self _)]; rfl
  | pauseDropped _ _ hs => rw [pause_sent hw hs, hp _ (List.mem_singleton_self _)]; rfl
  | _ => rw [hp _ (List.mem_singleton_self _)]; rfl

/-- What pauses and polls keep lasts over a whole watch. -/
theorem Rounds.preserves {P : σ → Prop} (hline : ∀ l s, P s → P (w.withLine l s))
    (hpoll : ∀ p, w.Asks p → P p.before → P p.after)
    (h : Rounds w interval left made s polls e s') (hs : P s) : P s' := by
  induction h with
  | exhausted => exact hs
  | cancelled => exact hs
  | settled hp => exact hpoll _ hp hs
  | fatal hp => exact hpoll _ hp hs
  | dropped hp => exact hpoll _ hp hs
  | last hp => exact hpoll _ hp hs
  | again hp _ ht _ ih => exact ih (pause_preserves hline ht (hpoll _ hp hs))
  | interrupted hp _ ht => exact pause_preserves hline ht (hpoll _ hp hs)
  | pauseDropped hp _ ht => exact pause_preserves hline ht (hpoll _ hp hs)

/-- The time that passes from a state on outside the polls, up to the last state. -/
def slept (w : Watch σ ω) : σ → List (Asked σ) → σ → Nat
  | s, [], s' => (w.line s').now - (w.line s).now
  | s, p :: polls, s' => ((w.line p.before).now - (w.line s).now) + w.slept p.after polls s'

/-- Rounds that begin later take that much longer. -/
theorem Rounds.slept_from (h : Rounds w interval left made s polls e s') {t : σ}
    (ht : (w.line t).now ≤ (w.line s).now) :
    w.slept t polls s' = (w.line s).now - (w.line t).now + w.slept s polls s' := by
  cases h <;> simp [slept]

/-- A pause that is not cut short lasts one interval, or as long as a line can wait. -/
theorem pause_now (hw : ∀ l s, w.line (w.withLine l s) = l) {t u : σ} {b : Ended Bool}
    (h : (w.pause interval).run t = (b, u)) :
    (b = .done true ∧ (w.line u).now = (w.line t).now + min interval Line.longestWait) ∨
    (b = .done false ∧ (w.line u).now ≤ (w.line t).now + min interval Line.longestWait) ∨
    b = .dropped := by
  obtain ⟨o, l, ho, rfl, hb⟩ := pause_cases h
  obtain ⟨n, rfl, ho⟩ := Line.sleep_cases ho
  rcases hb with ⟨b, rfl, rfl⟩ | ⟨rfl, rfl⟩
  · rcases ho with ⟨hb, hn⟩ | ⟨hb, hn, _⟩ | ⟨hb, _⟩ <;> cases hb
    · exact Or.inl ⟨rfl, by rw [hw]; exact hn⟩
    · exact Or.inr (Or.inl ⟨rfl, by rw [hw]; exact hn⟩)
  · exact Or.inr (Or.inr rfl)

/-- Rounds that are not cancelled make a poll, and sleep between every two. -/
theorem Rounds.slept_eq (hw : ∀ l s, w.line (w.withLine l s) = l)
    (h : Rounds w interval left made s polls e s') (hl : 0 < left) (hd : e ≠ .dropped)
    (hc : ∀ n, e ≠ .done (.cancelled n)) :
    polls ≠ [] ∧ w.slept s polls s' + min interval Line.longestWait =
      polls.length * min interval Line.longestWait := by
  induction h with
  | exhausted => exact absurd hl (Nat.lt_irrefl 0)
  | cancelled => exact absurd rfl (hc _)
  | dropped => exact absurd rfl hd
  | pauseDropped => exact absurd rfl hd
  | interrupted => exact absurd rfl (hc _)
  | settled => simp [slept]
  | fatal => simp [slept]
  | last => simp [slept]
  | @again left made p u v polls e _ _ hs rest ih =>
    obtain ⟨_, ih⟩ := ih (Nat.succ_pos _) hd hc
    rcases pause_now hw hs with ⟨_, hn⟩ | ⟨hb, _⟩ | hb
    · have hstart : w.slept p.before (p :: polls) v = w.slept p.after polls v := by simp [slept]
      rw [hstart, rest.slept_from (by omega), List.length_cons, Nat.succ_mul, ← ih]
      exact ⟨by simp, by omega⟩
    · cases hb
    · cases hb

/-- Rounds that are cancelled sleep after each poll at most. -/
theorem Rounds.slept_le (hw : ∀ l s, w.line (w.withLine l s) = l)
    (h : Rounds w interval left made s polls e s') {n : Nat} (he : e = .done (.cancelled n)) :
    w.slept s polls s' ≤ polls.length * min interval Line.longestWait := by
  induction h with
  | cancelled => simp [slept]
  | @again left made p u v polls e _ _ hs rest ih =>
    have ih := ih he
    rcases pause_now hw hs with ⟨_, hn⟩ | ⟨hb, _⟩ | hb
    · have hstart : w.slept p.before (p :: polls) v = w.slept p.after polls v := by simp [slept]
      rw [hstart, rest.slept_from (by omega), List.length_cons, Nat.succ_mul]
      omega
    · cases hb
    · cases hb
  | interrupted _ _ hs =>
    rcases pause_now hw hs with ⟨hb, _⟩ | ⟨_, hn⟩ | hb
    · cases hb
    · simp only [slept, List.length_cons, List.length_nil]
      omega
    · cases hb
  | _ => cases he

theorem pause_now_le (hw : ∀ l s, w.line (w.withLine l s) = l) {t u : σ} {b : Ended Bool}
    (h : (w.pause interval).run t = (b, u)) :
    (w.line u).now ≤ (w.line t).now + min interval Line.longestWait := by
  obtain ⟨o, l, hl, rfl, _⟩ := pause_cases h
  rw [hw]
  exact Line.sleep_now_le hl

/-- However rounds end, they sleep between two polls at most. -/
theorem Rounds.slept_bound (hw : ∀ l s, w.line (w.withLine l s) = l)
    (h : Rounds w interval left made s polls e s') :
    w.slept s polls s' ≤ (left - 1) * min interval Line.longestWait := by
  induction h with
  | @again left made p u v polls e _ _ hs rest ih =>
    have hstart : w.slept p.before (p :: polls) v = w.slept p.after polls v := by simp [slept]
    have hnow : (w.line u).now = (w.line p.after).now + min interval Line.longestWait := by
      rcases pause_now hw hs with ⟨_, hn⟩ | ⟨hb, _⟩ | hb
      · exact hn
      · cases hb
      · cases hb
    -- One more poll may be made than in the rounds that follow, and one pause comes before it.
    calc w.slept p.before (p :: polls) v
        = min interval Line.longestWait + w.slept u polls v := by
          rw [hstart, rest.slept_from (by omega), hnow, Nat.add_sub_cancel_left]
      _ ≤ min interval Line.longestWait + left * min interval Line.longestWait :=
          Nat.add_le_add_left ih _
      _ = (left + 1) * min interval Line.longestWait := by rw [Nat.succ_mul, Nat.add_comm]
  | @interrupted left _ p u _ _ hs | @pauseDropped left _ p u _ _ hs =>
    have hnow := pause_now_le hw hs
    calc w.slept p.before [p] u = (w.line u).now - (w.line p.after).now := by simp [slept]
      _ ≤ 1 * min interval Line.longestWait := by omega
      _ ≤ (left + 1) * min interval Line.longestWait :=
          Nat.mul_le_mul_right _ (Nat.succ_le_succ (Nat.zero_le _))
  | _ => simp [slept]

/-- Watching comes to an end when polls and the line do. -/
theorem rounds_finishes (hw : ∀ l s, w.line (w.withLine l s) = l)
    (hp : Finishes (fun s => (w.line s).Attended) w.poll) (left made : Nat) :
    Finishes (fun s => (w.line s).Attended) (w.rounds interval left made) := by
  have hpause : Finishes (fun s => (w.line s).Attended) (w.pause interval) :=
    Finishes.within (Finishes.wait fun l o m hl hs => hl.sleep hs) (fun _ hs => hs)
      fun s l _ hl => by rwa [hw]
  have hask : Finishes (fun s => (w.line s).Attended) w.ask := by
    refine hp.attempt.bind fun r => ?_
    cases r with
    | ok u => exact .view _
    | error x =>
      dsimp only
      split
      · exact .fail x
      · exact .pure none
  induction left generalizing made with
  | zero => exact .pure _
  | succ left ih =>
    refine (Finishes.view _).bind fun b => ?_
    split
    · exact .pure _
    · refine hask.bind fun o => ?_
      cases o with
      | some o => exact .pure _
      | none =>
        dsimp only
        split
        · exact .pure _
        · refine hpause.bind fun b => ?_
          split
          · exact ih (made + 1)
          · exact .pure _

end Rounds

end Watch

end Larder.Polling
