import Larder.Proofs.SteadyPolls

namespace Larder

open Polling (Asked Watch WatchEnd)

namespace Line

/-- Nobody stops waiting for results on the line. -/
structure Patient (l : Line) : Prop where
  uncancelled : l.cancelAt = none
  uninterrupted : ∀ reply, l.MayBring reply → reply.interrupts = false

/-- The line when the answer to a request has come. -/
def answered (r : Request) (delay : Nat) (l : Line) : Line :=
  { l with sent := l.sent ++ [r], replies := (l.answer r).2, now := l.after delay }

section Answered

variable {l : Line} {r : Request} {reply : Reply} {delay : Nat}

theorem MayBring.of_answered (h : (l.answered r delay).MayBring reply) : l.MayBring reply :=
  h.imp_left fun hm => answer_subset l r hm

theorem Attended.answered (h : l.Attended) (r : Request) (delay : Nat) :
    (l.answered r delay).Attended :=
  ⟨h.kept, h.answers⟩

theorem Grants.answered (h : l.Grants) (r : Request) (delay : Nat) : (l.answered r delay).Grants :=
  ⟨h.refusals, fun reply hb => h.replies reply hb.of_answered⟩

theorem Patient.answered (h : l.Patient) (r : Request) (delay : Nat) :
    (l.answered r delay).Patient :=
  ⟨h.uncancelled, fun reply hb => h.uninterrupted reply hb.of_answered⟩

/-- Nothing comes between a request and its answer. -/
theorem Patient.send (hp : l.Patient) (ha : l.Attended) (r : Request) : ∃ reply,
    (l.answer r).1 = some reply ∧
      l.send r = (some reply.response, l.answered r reply.delay) := by
  obtain ⟨reply, hreply⟩ := Option.isSome_iff_exists.mp (ha.answer r)
  have hinterrupts : reply.interrupts = false := by
    rcases answer_cases hreply with ⟨y, _, rfl⟩ | hb
    · rfl
    · exact hp.uninterrupted reply hb
  refine ⟨reply, hreply, ?_⟩
  unfold Line.send Line.answered
  generalize l.answer r = a at hreply ⊢
  obtain ⟨reply?, replies⟩ := a
  cases hreply
  simp only [hinterrupts, Bool.false_eq_true, if_false, waitUntil, ha.kept]
  rfl

theorem Patient.sleep (hp : l.Patient) (ha : l.Attended) (interval : Nat) :
    l.sleep interval = (some true, { l with now := l.after interval }) := by
  unfold Line.sleep
  simp only [hp.uncancelled, waitUntil, ha.kept]

end Answered

end Line

/-- What is not due later is not due earlier. -/
theorem Session.needsRefresh_earlier {s : Session} {interval now later : Nat} (h : now ≤ later)
    (hl : s.needsRefresh interval later = false) : s.needsRefresh interval now = false := by
  unfold Session.needsRefresh at hl ⊢
  cases hrefresh : s.refreshToken with
  | none => rfl
  | some refresh =>
    rw [hrefresh] at hl
    split at hl
    · simp only [Option.isSome_some, Bool.true_and, decide_eq_false_iff_not] at hl ⊢
      omega
    · cases hl

namespace Fridge

/-- An order is polled with an access token, and nothing comes between its requests and their
answers. -/
structure Undisturbed (token : String) (f : Fridge) : Prop extends f.Steady token where
  attended : f.line.Attended
  patient : f.line.Patient

/-- The first fridge has come to the same as the second one, but later. -/
structure Lags (interval : Nat) (g f : Fridge) : Prop where
  interval : f.settings.pollInterval = interval
  order : f.order = g.order
  account : ∃ now ≤ g.line.now, f.account = { g.account with line := { g.line with now } }

section Lags

variable {token : String} {interval : Nat} {f g : Fridge}

theorem Lags.undisturbed (h : Lags interval g f) (hg : g.Undisturbed token) :
    f.Undisturbed token := by
  obtain ⟨now, _, haccount⟩ := h.account
  have hline : f.line = { g.line with now } := congrArg Account.line haccount
  refine ⟨⟨?_, h.order ▸ hg.awaiting, ?_⟩, ?_, ?_⟩
  · rw [haccount]
    exact hg.token
  · rw [hline]
    exact ⟨hg.line.refusals, hg.line.replies⟩
  · rw [hline]
    exact ⟨hg.attended.kept, hg.attended.answers⟩
  · rw [hline]
    exact ⟨hg.patient.uncancelled, hg.patient.uninterrupted⟩

theorem Lags.refreshDue (h : Lags interval g f) (hg : g.account.refreshDue = false) :
    f.account.refreshDue = false := by
  obtain ⟨now, hnow, haccount⟩ := h.account
  rw [haccount]
  unfold Account.refreshDue at hg ⊢
  dsimp only
  cases hs : g.account.session with
  | none => rfl
  | some s =>
    rw [hs] at hg
    exact Session.needsRefresh_earlier hnow hg

/-- An answer comes to both. -/
theorem Lags.answered (h : Lags interval g f) (r : Request) (delay : Nat) :
    Lags interval (g.withLine (g.line.answered r delay))
      (f.withLine (f.line.answered r delay)) := by
  obtain ⟨now, hnow, haccount⟩ := h.account
  refine ⟨h.interval, h.order, now + min delay Line.longestWait, Nat.add_le_add_right hnow _, ?_⟩
  have hline : f.line = { g.line with now } := congrArg Account.line haccount
  change { f.account with line := f.line.answered r delay } = _
  rw [hline, haccount]
  rfl

theorem Lags.with_order (h : Lags interval g f) (order : Order) :
    Lags interval { g with order } { f with order } :=
  ⟨h.interval, rfl, h.account⟩

end Lags

/-- A poll that nothing disturbs reads the record out of the next answer. -/
theorem poll_undisturbed {f f' : Fridge} {token : String} {e : Ended Unit}
    (hf : f.Undisturbed token) (hd : f.account.refreshDue = false)
    (h : poll.forget.run f = (e, f')) :
    ∃ reply line, (f.line.answer (lastOrderRequest token)).1 = some reply ∧
      line = f.line.answered (lastOrderRequest token) reply.delay ∧
      ((∃ x, lastRecord reply.response = .error x ∧ watch.isFatal x = false ∧ e = .failed x ∧
        f' = f.withLine line) ∨
      (∃ record order, lastRecord reply.response = .ok record ∧
        f.order.applyPoll record = (.ok order.status, order) ∧ e = .done () ∧
        f' = { f.withLine line with order })) := by
  obtain ⟨reply, hreply, hsend⟩ := hf.patient.send hf.attended (lastOrderRequest token)
  exact ⟨reply, _, hreply, rfl, poll_answered hf.toSteady hd hsend h⟩

theorem Lags.answer {interval : Nat} {f g : Fridge} (h : Lags interval g f) (r : Request) :
    f.line.answer r = g.line.answer r := by
  obtain ⟨now, _, haccount⟩ := h.account
  rw [show f.line = { g.line with now } from congrArg Account.line haccount]
  rfl

theorem Undisturbed.answered {f : Fridge} {token : String} (hf : f.Undisturbed token) (r : Request)
    (delay : Nat) {order : Order} (ho : order.isAwaiting = true) :
    Undisturbed token { f.withLine (f.line.answered r delay) with order } :=
  ⟨⟨hf.token, ho, hf.line.answered r delay⟩, hf.attended.answered r delay,
    hf.patient.answered r delay⟩

/-- The fridge after a pause that is not cut short. -/
def rested (interval : Nat) (f : Fridge) : Fridge :=
  f.withLine { f.line with now := f.line.after interval }

theorem Undisturbed.rested {f : Fridge} {token : String} (hf : f.Undisturbed token)
    (interval : Nat) : (f.rested interval).Undisturbed token :=
  ⟨⟨hf.token, hf.awaiting, hf.line.refusals, hf.line.replies⟩,
    ⟨hf.attended.kept, hf.attended.answers⟩, hf.patient.uncancelled, hf.patient.uninterrupted⟩

theorem Undisturbed.pause {f : Fridge} {token : String} (hf : f.Undisturbed token)
    (interval : Nat) : (watch.pause interval).run f = (.done true, f.rested interval) := by
  have hsleep : (watch.line f).sleep interval = _ := hf.patient.sleep hf.attended interval
  rw [Watch.pause_eq, hsleep]
  rfl

/-- After a pause of the second fridge only, the first one has still come to the same, but later. -/
theorem Lags.rested {interval : Nat} {f g : Fridge} (h : Lags interval g f) (pause : Nat) :
    Lags interval (g.rested pause) f := by
  obtain ⟨now, hnow, haccount⟩ := h.account
  exact ⟨h.interval, h.order, now, Nat.le_trans hnow (Nat.le_add_right _ _), haccount⟩

theorem Lags.rested_both {interval : Nat} {f g : Fridge} (h : Lags interval g f) (pause : Nat) :
    Lags interval (g.rested pause) (f.rested pause) := by
  obtain ⟨now, hnow, haccount⟩ := h.account
  refine ⟨h.interval, h.order, now + min pause Line.longestWait, Nat.add_le_add_right hnow _, ?_⟩
  have hline : f.line = { g.line with now } := congrArg Account.line haccount
  change { f.account with line := { f.line with now := f.line.after pause } } = _
  rw [hline, haccount]
  rfl

/-- The same comes to both polls, and does the same to both orders. -/
theorem Lags.polled {token : String} {interval : Nat} {p q : Asked Fridge}
    (hlags : Lags interval p.before q.before) (hp : watch.Asks p) (hq : watch.Asks q)
    (hd : p.before.account.refreshDue = false) (hg : p.before.Undisturbed token) :
    Watch.PolledAlike watch watch (fun g f => g.Undisturbed token ∧ Lags interval g f)
      (fun g f => g.line.cancelAt = none ∧ Lags interval g f) Eq p q := by
  have hf := hlags.undisturbed hg
  obtain ⟨reply, _, hreply, rfl, hpolled⟩ := poll_undisturbed hg hd hp.ran
  obtain ⟨reply', _, hreply', rfl, hpolled'⟩ :=
    poll_undisturbed hf (hlags.refreshDue hd) hq.ran
  rw [hlags.answer, hreply] at hreply'
  cases hreply'
  rcases hpolled with ⟨x, hy, hfatal, he, hafter⟩ | ⟨record, order, hy, ho, he, hafter⟩
  · obtain ⟨x', _, hfatal', he', hafter'⟩ | ⟨_, _, hy', _⟩ := hpolled'
    · refine .bare (Or.inr ⟨x, he, hfatal⟩) (Or.inr ⟨x', he', hfatal'⟩) ?_
      rw [hafter, hafter']
      exact ⟨hg.answered _ _ hg.awaiting, hlags.answered _ _⟩
    · cases hy.symm.trans hy'
  · obtain ⟨_, hy', _⟩ | ⟨record', order', hy', ho', he', hafter'⟩ := hpolled'
    · cases hy.symm.trans hy'
    cases hy.symm.trans hy'
    rw [hlags.order] at ho'
    obtain ⟨_, rfl⟩ := Prod.mk.inj (ho.symm.trans ho')
    have hkept := (hlags.answered (lastOrderRequest token) reply.delay).with_order order
    have hout : watch.outcome? p.after = order.outcome? := by
      rw [hafter]
      rfl
    have hout' : watch.outcome? q.after = order.outcome? := by
      rw [hafter']
      rfl
    cases houtcome : order.outcome? with
    | none =>
      have hawaiting := (poll_awaiting hp hg.awaiting).2.1
      rw [hafter] at hawaiting
      refine .bare (Or.inl ⟨he, hout.trans houtcome⟩) (Or.inl ⟨he', hout'.trans houtcome⟩) ?_
      rw [hafter, hafter']
      exact ⟨hg.answered _ _ (hawaiting houtcome), hkept⟩
    | some o =>
      have hsettles : watch.Settles o p := ⟨he, hout.trans houtcome⟩
      have hsettles' : watch.Settles o q := ⟨he', hout'.trans houtcome⟩
      refine .settled hsettles hsettles' rfl ?_
      rw [hafter, hafter']
      exact ⟨hg.patient.uncancelled, hkept⟩

/-- A wait that comes right after another one, beside one that is longer by a pause. -/
theorem watch_shadows (token : String) (interval : Nat) :
    watch.Shadows watch interval (fun g => g.account.refreshDue = false)
      (fun g f => g.Undisturbed token ∧ Lags interval g f)
      (fun g f => g.line.cancelAt = none ∧ Lags interval g f) Eq where
  finished h := ⟨h.1.patient.uncancelled, h.2⟩
  cancelled {g f} h := by
    have hf := h.2.undisturbed h.1
    simp only [watch, Line.isCancelled, h.1.patient.uncancelled, hf.patient.uncancelled]
  polled hp hq hd h := h.2.polled hp hq hd h.1
  paused {g f b g'} h hs := by
    obtain ⟨hg, hlags⟩ := h
    rw [hg.pause] at hs
    cases hs
    exact ⟨_, (hlags.undisturbed hg).pause interval, hg.rested interval, hlags.rested_both interval⟩

/-- The fridge when it may poll so often. -/
def withAttempts (n : UInt32) (f : Fridge) : Fridge :=
  { f with settings := f.settings.withMaxPollAttempts n }

theorem attempts_withAttempts (f : Fridge) {n : UInt32} (h : 1 ≤ n.toNat) :
    (f.withAttempts n).attempts = n.toNat := by
  have hn : n ≠ 0 := by
    rintro rfl
    cases h
  simp only [attempts, withAttempts, Settings.withMaxPollAttempts, if_neg hn]
  omega

theorem Undisturbed.withAttempts {f : Fridge} {token : String} (hf : f.Undisturbed token)
    (n : UInt32) : (f.withAttempts n).Undisturbed token :=
  ⟨⟨hf.token, hf.awaiting, hf.line⟩, hf.attended, hf.patient⟩

theorem Lags.withAttempts {interval : Nat} {f g : Fridge} (h : Lags interval g f) (n : UInt32) :
    Lags interval g (f.withAttempts n) :=
  ⟨h.interval, h.order, h.account⟩

theorem lags_withAttempts (f : Fridge) (n : UInt32) :
    Lags f.settings.pollInterval (f.withAttempts n) f :=
  ⟨rfl, rfl, f.line.now, Nat.le_refl _, rfl⟩

section Resumed

variable {f f₁ f₂ g g' : Fridge} {token : String} {interval left made : Nat} {n : UInt32}
  {polls : List (Asked Fridge)} {e e₂ : Ended (WatchEnd OrderOutcome)}

/-- A wait that may poll so often ends like rounds of that number, from where it lags behind. -/
theorem wait_lags (hn : 1 ≤ n.toNat) (hg : g.Undisturbed token) (hlags : Lags interval g f)
    (hr : watch.Rounds interval n.toNat made g polls e g')
    (hdue : ∀ p ∈ polls, p.before.account.refreshDue = false)
    (h : waitForCompletion.run (f.withAttempts n) = (e₂, f₂)) :
    Watch.EndsAlike Eq made 0 e e₂ ∧ g'.line.cancelAt = none ∧ Lags interval g' f₂ ∧
      ∀ k, e = .done (.timedOut k) → g'.Undisturbed token := by
  have hstart := hlags.withAttempts n
  obtain ⟨polls', e', f', hr', _, hends, ⟨hc, hl⟩, hgoes⟩ :=
    hr.shadowed (watch_shadows token interval) hdue ⟨hg, hstart⟩ 0
  rw [← attempts_withAttempts f hn, ← hstart.interval] at hr'
  have hrun := waitForCompletion_of_rounds (hstart.undisturbed hg).awaiting hr'
  cases hrun.symm.trans h
  exact ⟨hends, hc, hl, fun k he => (hgoes k he).1⟩

/-- Waiting that has run out of attempts and is taken up again comes to what waiting with as many
attempts as both times together comes to. -/
theorem wait_resumed {f' : Fridge} {m : UInt32} (hm : 1 ≤ m.toNat) (hn : 1 ≤ n.toNat)
    (hmn : m.toNat + n.toNat < UInt32.size) (hf : f.Undisturbed token)
    (hdue : (f.withAttempts (m + n)).NeverDue)
    (h₁ : waitForCompletion.run (f.withAttempts m) = (.done (.timedOut made), f₁))
    (h₂ : waitForCompletion.run (f₁.withAttempts n) = (e₂, f₂))
    (h : waitForCompletion.run (f.withAttempts (m + n)) = (e, f')) :
    f₂.order = f'.order ∧ f₂.line.replies = f'.line.replies ∧ f₂.line.sent = f'.line.sent ∧
    ((∃ o, e = .done (.settled o) ∧ e₂ = .done (.settled o)) ∨
      (e = .done (.timedOut (m.toNat + n.toNat)) ∧ e₂ = .done (.timedOut n.toNat))) := by
  have htotal : (m + n).toNat = m.toNat + n.toNat := by
    rw [UInt32.toNat_add]
    exact Nat.mod_eq_of_lt hmn
  have hg := hf.withAttempts (m + n)
  obtain ⟨polls, hr⟩ := waitForCompletion_rounds hg.awaiting h
  have hpolls := hdue polls e f' hr
  rw [attempts_withAttempts f (by omega), htotal] at hr
  have hkept : e ≠ .dropped :=
    (Watch.rounds_finishes watch_line poll_finishes.forget _ _ _ e f' hg.attended hr.run_eq).1
  have hlags := lags_withAttempts f (m + n)
  -- The first wait is what the rounds of the long one are up to the cut, the second wait what they
  -- are after it, but that it comes earlier by the pause in between.
  cases hr.cut hm hn with
  | early hfirst he =>
    obtain ⟨hends, _⟩ := wait_lags hm hg hlags hfirst hpolls h₁
    cases hends with
    | timedOut k => exact absurd rfl (he _)
  | paused hfirst hs hb =>
    obtain ⟨_, _, _, ht⟩ := wait_lags hm hg hlags hfirst hpolls h₁
    rw [(ht _ rfl).pause] at hs
    cases hs
    exact absurd rfl hb
  | resumed hsplit hfirst hs hrest =>
    rw [hsplit, List.forall_mem_append] at hpolls
    obtain ⟨_, _, hl, ht⟩ := wait_lags hm hg hlags hfirst hpolls.1 h₁
    have hu := ht _ rfl
    rw [hu.pause] at hs
    cases hs
    obtain ⟨hends, hc, hsame, _⟩ :=
      wait_lags hn (hu.rested _) (hl.rested _) hrest hpolls.2 h₂
    obtain ⟨now, _, haccount⟩ := hsame.account
    refine ⟨hsame.order, congrArg (·.line.replies) haccount, congrArg (·.line.sent) haccount, ?_⟩
    cases hends with
    | settled ho => exact Or.inl ⟨_, rfl, by rw [ho]⟩
    | timedOut k =>
      obtain ⟨hk, _⟩ := (hr.timedOut_iff _).mp rfl
      refine Or.inr ⟨?_, ?_⟩
      · rw [hk, Nat.zero_add]
      · rw [show 0 + k = n.toNat by omega]
    | cancelled k =>
      obtain ⟨_, _, hcancelled⟩ := hr.cancelled_cases watch_line rfl
      change f'.line.isCancelled = true at hcancelled
      simp only [Line.isCancelled, hc] at hcancelled
      cases hcancelled
    | dropped => exact absurd rfl hkept

end Resumed

/-- A fridge whose order has no record yet when it asks for the first time. -/
def undecided : Fridge where
  settings := .default
  account := {
    line := { replies := [⟨⟨404, .object []⟩, 30, false⟩,
      ⟨⟨200, .object [("data", .object [("status", .text "COMPLETED")])]⟩, 0, false⟩] }
    disk := ⟨[(["cache"], .directory)]⟩
    vault := .ofDirectory ⟨["cache"]⟩
    refreshInterval := 240000
    session := some ⟨"f1", some "a1", some "r1", some 0⟩ }
  order := .confirming ⟨"o1", .empty⟩

theorem undecided_undisturbed : undecided.Undisturbed "a1" := by
  have hbrings : ∀ reply, undecided.line.MayBring reply →
      reply.response.status ≠ 401 ∧ reply.interrupts = false := by
    rintro reply (hm | hm)
    · revert reply
      decide
    · cases hm
      decide
  refine ⟨⟨rfl, rfl, ?_, fun reply h => (hbrings reply h).1⟩, ⟨rfl, rfl⟩, rfl,
    fun reply h => (hbrings reply h).2⟩
  rintro r y ⟨⟩

/-- The first wait brings nothing, and the second one what a longer first one would have. -/
theorem wait_resumed_undecided : ∃ f₁ f₂ f' o,
    undecided.Undisturbed "a1" ∧ (undecided.withAttempts (1 + 1)).NeverDue ∧
    waitForCompletion.run (undecided.withAttempts 1) = (.done (.timedOut 1), f₁) ∧
    waitForCompletion.run (f₁.withAttempts 1) = (.done (.settled o), f₂) ∧
    waitForCompletion.run (undecided.withAttempts (1 + 1)) = (.done (.settled o), f') ∧
    f₂.order = f'.order ∧ f₂.line.replies = f'.line.replies ∧ f₂.line.sent = f'.line.sent := by
  have hdue : (undecided.withAttempts (1 + 1)).NeverDue :=
    neverDue_of_arrivals (by decide +kernel)
  have h₁ : waitForCompletion.run (undecided.withAttempts 1) =
      (.done (.timedOut 1), (waitForCompletion.run (undecided.withAttempts 1)).2) :=
    Prod.ext (by decide +kernel) rfl
  have h₂ := (Prod.eta (waitForCompletion.run
    ((waitForCompletion.run (undecided.withAttempts 1)).2.withAttempts 1))).symm
  have h : waitForCompletion.run (undecided.withAttempts (1 + 1)) =
      (.done (.settled (.completed ⟨"o1", .empty⟩ .zero)),
        (waitForCompletion.run (undecided.withAttempts (1 + 1))).2) :=
    Prod.ext (by decide +kernel) rfl
  obtain ⟨horder, hreplies, hsent, ⟨o, he, he₂⟩ | ⟨he, _⟩⟩ :=
    wait_resumed (by decide) (by decide) (by decide) undecided_undisturbed hdue h₁ h₂ h
  · cases he
    rw [he₂] at h₂
    exact ⟨_, _, _, _, undecided_undisturbed, hdue, h₁, h₂, h, horder, hreplies, hsent⟩
  · cases he

end Fridge

end Larder
