import Larder.Proofs.Watches

namespace Larder.Polling.Watch

open Call

variable {σ τ ω υ : Type}

section Runs

variable {w : Watch σ ω} {interval left made : Nat} {s s' : σ} {p : Asked σ}
  {polls : List (Asked σ)} {e : Ended (WatchEnd ω)}

theorem Asks.ended {e : Ended Unit} (hp : w.Asks p) (he : p.ended = e) :
    w.poll.run p.before = (e, p.after) :=
  hp.ran.trans (congrArg (·, p.after) he)

theorem ask_of_bare (hp : w.Asks p) (hb : w.Bare p) :
    w.ask.run p.before = (.done none, p.after) := by
  unfold ask
  rcases hb with ⟨he, ho⟩ | ⟨x, hx, hfatal⟩
  · rw [bind_done (attempt_done (hp.ended he))]
    exact Prod.ext (congrArg Ended.done ho) rfl
  · rw [bind_done (attempt_failed (hp.ended hx))]
    simp only [hfatal]
    rfl

theorem ask_of_settles {o : ω} (hp : w.Asks p) (hs : w.Settles o p) :
    w.ask.run p.before = (.done (some o), p.after) := by
  unfold ask
  rw [bind_done (attempt_done (hp.ended hs.1))]
  exact Prod.ext (congrArg Ended.done hs.2) rfl

theorem ask_of_fails {x : Failure} (hp : w.Asks p) (hf : w.Fails x p) :
    w.ask.run p.before = (.failed x, p.after) := by
  unfold ask
  rw [bind_done (attempt_failed (hp.ended hf.1))]
  simp only [hf.2]
  rfl

theorem ask_of_dropped (hp : w.Asks p) (hd : p.ended = .dropped) :
    w.ask.run p.before = (.dropped, p.after) := by
  unfold ask
  rw [bind_dropped (attempt_dropped (hp.ended hd))]

/-- What is done in a round once the caller is known to wait. -/
theorem rounds_waiting (hc : (w.line s).isCancelled = false) :
    (w.rounds interval (left + 1) made).run s = (do
      match ← w.ask with
      | some outcome => return .settled outcome
      | none =>
        if left = 0 then return .timedOut (made + 1)
        else if ← w.pause interval then w.rounds interval left (made + 1)
        else return .cancelled (made + 1) : Call σ (WatchEnd ω)).run s := by
  rw [rounds, isCancelled, run_view_bind, hc]
  rfl

/-- After a poll that brought nothing there is a pause, unless it was the last one. -/
theorem rounds_of_bare (hp : w.Asks p) (hb : w.Bare p) :
    (w.rounds interval (left + 2) made).run p.before = (do
      if ← w.pause interval then w.rounds interval (left + 1) (made + 1)
      else return .cancelled (made + 1) : Call σ (WatchEnd ω)).run p.after := by
  rw [rounds_waiting hp.waiting, bind_done (ask_of_bare hp hb)]
  rfl

/-- A pause is a pause on the line. -/
theorem pause_eq (w : Watch σ ω) (interval : Nat) (s : σ) : (w.pause interval).run s =
    (match ((w.line s).sleep interval).1 with
      | some b => .done b
      | none => .dropped, w.withLine ((w.line s).sleep interval).2 s) := by
  unfold pause Call.run Call.within Call.wait
  generalize (w.line s).sleep interval = slept
  obtain ⟨_ | b, l⟩ := slept <;> rfl

/-- The rounds are what the watch does. -/
theorem Rounds.run_eq (h : Rounds w interval left made s polls e s') :
    (w.rounds interval left made).run s = (e, s') := by
  induction h with
  | exhausted => rfl
  | cancelled hc =>
    rw [rounds, isCancelled, run_view_bind, hc]
    rfl
  | settled hp he ho =>
    rw [rounds_waiting hp.waiting, bind_done (ask_of_settles hp ⟨he, ho⟩)]
    rfl
  | fatal hp he hx =>
    rw [rounds_waiting hp.waiting, bind_failed (ask_of_fails hp ⟨he, hx⟩)]
  | dropped hp he =>
    rw [rounds_waiting hp.waiting, bind_dropped (ask_of_dropped hp he)]
  | last hp hb =>
    rw [rounds_waiting hp.waiting, bind_done (ask_of_bare hp hb)]
    rfl
  | again hp hb hs _ ih =>
    rw [rounds_of_bare hp hb, bind_done hs]
    exact ih
  | interrupted hp hb hs =>
    rw [rounds_of_bare hp hb, bind_done hs]
    rfl
  | pauseDropped hp hb hs => rw [rounds_of_bare hp hb, bind_dropped hs]

/-- Rounds that settle nothing at once are all that a watch does. -/
theorem Rounds.watch_eq {schedule : Schedule} (ho : w.outcome? s = none)
    (h : Rounds w schedule.interval schedule.left schedule.attempts s polls e s') :
    (w.run schedule).run s = (e, s') := by
  unfold Watch.run
  rw [run_view_bind, ho]
  exact h.run_eq

/-- How a row of rounds goes that is cut after some polls. -/
inductive Cut (w : Watch σ ω) (interval : Nat) (before after made : Nat) (s : σ)
    (polls : List (Asked σ)) (e : Ended (WatchEnd ω)) (s' : σ) : Prop where
  /-- It ends in its first part. -/
  | early (h : Rounds w interval before made s polls e s') (he : ∀ n, e ≠ .done (.timedOut n)) :
      Cut w interval before after made s polls e s'
  | resumed {first rest : List (Asked σ)} {t u : σ} (hpolls : polls = first ++ rest)
      (h : Rounds w interval before made s first (.done (.timedOut (made + before))) t)
      (hs : (w.pause interval).run t = (.done true, u))
      (hr : Rounds w interval after (made + before) u rest e s') :
      Cut w interval before after made s polls e s'
  /-- It ends in the pause between its two parts. -/
  | paused {t : σ} {b : Ended Bool}
      (h : Rounds w interval before made s polls (.done (.timedOut (made + before))) t)
      (hs : (w.pause interval).run t = (b, s')) (hb : b ≠ .done true) :
      Cut w interval before after made s polls e s'

theorem Rounds.cut {before after : Nat} (hb : 0 < before) (ha : 0 < after)
    (h : Rounds w interval (before + after) made s polls e s') :
    Cut w interval before after made s polls e s' := by
  generalize htotal : before + after = total at h
  -- Only the first part gets shorter from poll to poll. When it has one poll left, the cut is in
  -- the pause after that poll.
  induction h generalizing before with
  | exhausted => omega
  | last => omega
  | cancelled hc =>
    obtain ⟨before, rfl⟩ := Nat.exists_eq_succ_of_ne_zero (Nat.ne_of_gt hb)
    exact .early (.cancelled hc) (by simp)
  | settled hp he ho =>
    obtain ⟨before, rfl⟩ := Nat.exists_eq_succ_of_ne_zero (Nat.ne_of_gt hb)
    exact .early (.settled hp he ho) (by simp)
  | fatal hp he hx =>
    obtain ⟨before, rfl⟩ := Nat.exists_eq_succ_of_ne_zero (Nat.ne_of_gt hb)
    exact .early (.fatal hp he hx) (by simp)
  | dropped hp he =>
    obtain ⟨before, rfl⟩ := Nat.exists_eq_succ_of_ne_zero (Nat.ne_of_gt hb)
    exact .early (.dropped hp he) (by simp)
  | @again left made p u v polls e hp hbare hs rest ih =>
    match before with
    | 1 =>
      obtain rfl : after = left + 1 := by omega
      have hpolls : p :: polls = [p] ++ polls := rfl
      exact .resumed hpolls (.last hp hbare) hs rest
    | before + 2 =>
      have hmade : made + 1 + (before + 1) = made + (before + 2) := by omega
      cases ih (Nat.succ_pos before) (by omega) with
      | early h he => exact .early (.again hp hbare hs h) he
      | resumed hpolls h hs' hr =>
        rw [hmade] at h hr
        exact .resumed (by rw [hpolls]; rfl) (.again hp hbare hs h) hs' hr
      | paused h hs' hb' =>
        rw [hmade] at h
        exact .paused (.again hp hbare hs h) hs' hb'
  | interrupted hp hbare hs =>
    match before with
    | 1 => exact .paused (.last hp hbare) hs (by simp)
    | before + 2 => exact .early (.interrupted hp hbare hs) (by simp)
  | pauseDropped hp hbare hs =>
    match before with
    | 1 => exact .paused (.last hp hbare) hs (by simp)
    | before + 2 => exact .early (.pauseDropped hp hbare hs) (by simp)

/-- The state in which a poll is made after so many others. -/
def arrival (w : Watch σ ω) (interval : Nat) : Nat → σ → σ
  | 0, s => s
  | made + 1, s => w.arrival interval made ((w.pause interval).run (w.poll.run s).2).2

theorem Rounds.arrivals (h : Rounds w interval left made s polls e s') :
    ∀ p ∈ polls, ∃ n < left, p.before = w.arrival interval n s := by
  induction h with
  | exhausted => simp
  | cancelled => simp
  | again hp _ hs _ ih =>
    refine List.forall_mem_cons.mpr ⟨⟨0, Nat.succ_pos _, rfl⟩, ?_⟩
    intro q hq
    obtain ⟨n, hn, hbefore⟩ := ih q hq
    refine ⟨n + 1, Nat.succ_lt_succ hn, ?_⟩
    rw [hbefore, arrival, hp.ran, hs]
  | _ => exact fun q hq => ⟨0, Nat.succ_pos _, congrArg Asked.before (List.mem_singleton.mp hq)⟩

end Runs

/-- How a poll goes beside a poll of another watch. -/
inductive PolledAlike (w : Watch σ ω) (v : Watch τ υ) (S T : σ → τ → Prop) (R : ω → υ → Prop)
    (p : Asked σ) (q : Asked τ) : Prop where
  | bare (hp : w.Bare p) (hq : v.Bare q) (h : S p.after q.after)
  | settled {o : ω} {o' : υ} (hp : w.Settles o p) (hq : v.Settles o' q) (ho : R o o')
      (h : T p.after q.after)
  | dropped (hp : p.ended = .dropped) (hq : q.ended = .dropped) (h : T p.after q.after)

section PolledAlike

variable {w : Watch σ ω} {v : Watch τ υ} {S T : σ → τ → Prop} {R : ω → υ → Prop} {p : Asked σ}
  {q : Asked τ}

theorem Bare.not_dropped (h : w.Bare p) : p.ended ≠ .dropped := by
  rintro hd
  rcases h with ⟨he, _⟩ | ⟨x, hx, _⟩
  · rw [hd] at he
    cases he
  · rw [hd] at hx
    cases hx

theorem PolledAlike.of_bare (h : PolledAlike w v S T R p q) (hp : w.Bare p) :
    v.Bare q ∧ S p.after q.after := by
  cases h with
  | bare _ hq hS => exact ⟨hq, hS⟩
  | settled hs => exact absurd hs (hp.not_settled _)
  | dropped hd => exact absurd hd hp.not_dropped

theorem PolledAlike.of_settles {o : ω} (h : PolledAlike w v S T R p q) (hp : w.Settles o p) :
    ∃ o', v.Settles o' q ∧ R o o' ∧ T p.after q.after := by
  cases h with
  | bare hb => exact absurd hp (hb.not_settled _)
  | settled hs hq hR hT =>
    obtain rfl := Option.some.inj (hp.2.symm.trans hs.2)
    exact ⟨_, hq, hR, hT⟩
  | dropped hd => exact absurd (hp.1.symm.trans hd) (by simp)

theorem PolledAlike.of_dropped (h : PolledAlike w v S T R p q) (hp : p.ended = .dropped) :
    q.ended = .dropped ∧ T p.after q.after := by
  cases h with
  | bare hb => exact absurd hp hb.not_dropped
  | settled hs => exact absurd (hp.symm.trans hs.1) (by simp)
  | dropped _ hq hT => exact ⟨hq, hT⟩

theorem PolledAlike.not_fails (h : PolledAlike w v S T R p q) (x : Failure) : ¬ w.Fails x p := by
  rintro ⟨he, hx⟩
  cases h with
  | bare hb => exact hb.not_fatal x ⟨he, hx⟩
  | settled hs => exact absurd (he.symm.trans hs.1) (by simp)
  | dropped hd => exact absurd (he.symm.trans hd) (by simp)

end PolledAlike

/-- The second watch goes the way of the first one: `S` relates the states while nothing is settled,
`T` those in which all is over, and `R` the outcomes. Polls of the first watch need to go well only
from states with the property `P`. -/
structure Shadows (w : Watch σ ω) (v : Watch τ υ) (interval : Nat) (P : σ → Prop)
    (S T : σ → τ → Prop) (R : ω → υ → Prop) : Prop where
  finished : ∀ {s t}, S s t → T s t
  cancelled : ∀ {s t}, S s t → (w.line s).isCancelled = (v.line t).isCancelled
  polled : ∀ {p q}, w.Asks p → v.Asks q → P p.before → S p.before q.before →
    PolledAlike w v S T R p q
  paused : ∀ {s t b s'}, S s t → (w.pause interval).run s = (b, s') →
    ∃ t', (v.pause interval).run t = (b, t') ∧ S s' t'

/-- Two watches end alike that have made so many polls already. -/
inductive EndsAlike (R : ω → υ → Prop) (made made' : Nat) :
    Ended (WatchEnd ω) → Ended (WatchEnd υ) → Prop where
  | settled {o : ω} {o' : υ} (ho : R o o') :
      EndsAlike R made made' (.done (.settled o)) (.done (.settled o'))
  | timedOut (n : Nat) :
      EndsAlike R made made' (.done (.timedOut (made + n))) (.done (.timedOut (made' + n)))
  | cancelled (n : Nat) :
      EndsAlike R made made' (.done (.cancelled (made + n))) (.done (.cancelled (made' + n)))
  | dropped : EndsAlike R made made' .dropped .dropped

theorem EndsAlike.of_succ {R : ω → υ → Prop} {made made' : Nat} {e : Ended (WatchEnd ω)}
    {e' : Ended (WatchEnd υ)} (h : EndsAlike R (made + 1) (made' + 1) e e') :
    EndsAlike R made made' e e' := by
  cases h with
  | settled ho => exact .settled ho
  | timedOut n =>
    rw [Nat.add_assoc made, Nat.add_assoc made']
    exact .timedOut (1 + n)
  | cancelled n =>
    rw [Nat.add_assoc made, Nat.add_assoc made']
    exact .cancelled (1 + n)
  | dropped => exact .dropped

section Shadows

variable {w : Watch σ ω} {v : Watch τ υ} {interval left made : Nat} {P : σ → Prop}
  {S T : σ → τ → Prop} {R : ω → υ → Prop} {s s' : σ} {t : τ} {polls : List (Asked σ)}
  {e : Ended (WatchEnd ω)}

/-- A poll of the first watch has one of the second beside it. -/
theorem Shadows.asks (h : Shadows w v interval P S T R) {p : Asked σ} (hp : w.Asks p)
    (hP : P p.before) (hst : S p.before t) :
    ∃ q, q.before = t ∧ v.Asks q ∧ PolledAlike w v S T R p q := by
  let q : Asked τ := ⟨t, (v.poll.run t).1, (v.poll.run t).2⟩
  have hq : v.Asks q := ⟨(h.cancelled hst).symm.trans hp.waiting, rfl⟩
  exact ⟨q, rfl, hq, h.polled hp hq hP hst⟩

/-- From related states the rounds of the second watch end like those of the first one. -/
theorem Rounds.shadowed (h : Shadows w v interval P S T R)
    (hr : Rounds w interval left made s polls e s') (hP : ∀ p ∈ polls, P p.before) (hst : S s t)
    (made' : Nat) : ∃ polls' e' t', Rounds v interval left made' t polls' e' t' ∧
      polls'.length = polls.length ∧ EndsAlike R made made' e e' ∧ T s' t' ∧
      ∀ n, e = .done (.timedOut n) → S s' t' := by
  -- A poll beside one that brought nothing is the only one after which `S` is needed again.
  induction hr generalizing t made' with
  | exhausted => exact ⟨[], _, t, .exhausted, rfl, .timedOut 0, h.finished hst, fun _ _ => hst⟩
  | cancelled hc =>
    have hc' := (h.cancelled hst).symm.trans hc
    exact ⟨[], _, t, .cancelled hc', rfl, .cancelled 0, h.finished hst, by simp⟩
  | settled hp he ho =>
    obtain ⟨q, rfl, hq, hpolled⟩ := h.asks hp (hP _ (List.mem_singleton_self _)) hst
    obtain ⟨o', hs, hR, hT⟩ := hpolled.of_settles ⟨he, ho⟩
    exact ⟨[q], _, q.after, .settled hq hs.1 hs.2, rfl, .settled hR, hT, by simp⟩
  | fatal hp he hx =>
    obtain ⟨q, _, _, hpolled⟩ := h.asks hp (hP _ (List.mem_singleton_self _)) hst
    exact absurd ⟨he, hx⟩ (hpolled.not_fails _)
  | dropped hp he =>
    obtain ⟨q, rfl, hq, hpolled⟩ := h.asks hp (hP _ (List.mem_singleton_self _)) hst
    obtain ⟨hd, hT⟩ := hpolled.of_dropped he
    exact ⟨[q], _, q.after, .dropped hq hd, rfl, .dropped, hT, by simp⟩
  | last hp hb =>
    obtain ⟨q, rfl, hq, hpolled⟩ := h.asks hp (hP _ (List.mem_singleton_self _)) hst
    obtain ⟨hb', hS⟩ := hpolled.of_bare hb
    exact ⟨[q], _, q.after, .last hq hb', rfl, .timedOut 1, h.finished hS, fun _ _ => hS⟩
  | again hp hb hs _ ih =>
    obtain ⟨hfirst, hrest⟩ := List.forall_mem_cons.mp hP
    obtain ⟨q, rfl, hq, hpolled⟩ := h.asks hp hfirst hst
    obtain ⟨hb', hS⟩ := hpolled.of_bare hb
    obtain ⟨u', hs', hu⟩ := h.paused hS hs
    obtain ⟨polls', e', t', hr', hlength, hends, hfinished⟩ := ih hrest hu (made' + 1)
    exact ⟨q :: polls', e', t', .again hq hb' hs' hr', congrArg (· + 1) hlength, hends.of_succ,
      hfinished⟩
  | interrupted hp hb hs =>
    obtain ⟨q, rfl, hq, hpolled⟩ := h.asks hp (hP _ (List.mem_singleton_self _)) hst
    obtain ⟨hb', hS⟩ := hpolled.of_bare hb
    obtain ⟨u', hs', hu⟩ := h.paused hS hs
    exact ⟨[q], _, u', .interrupted hq hb' hs', rfl, .cancelled 1, h.finished hu, by simp⟩
  | pauseDropped hp hb hs =>
    obtain ⟨q, rfl, hq, hpolled⟩ := h.asks hp (hP _ (List.mem_singleton_self _)) hst
    obtain ⟨hb', hS⟩ := hpolled.of_bare hb
    obtain ⟨u', hs', hu⟩ := h.paused hS hs
    exact ⟨[q], _, u', .pauseDropped hq hb' hs', rfl, .dropped, h.finished hu, by simp⟩

end Shadows

end Larder.Polling.Watch
