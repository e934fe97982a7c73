import Larder.Proofs.CallOutcomes
import Larder.Proofs.Failures

namespace Larder

open Polling (Asked Watch WatchEnd)

namespace Account

/-- A protected call was dropped during its last request. The session goes on, with the newest
access token that a renewal has brought. -/
structure BreaksOff (a : Account) (t : CallTrace) (a' : Account) : Prop where
  session : ∃ s s', a.session = some s ∧ a'.session = some s' ∧ s'.deviceId = s.deviceId ∧
    s'.refreshToken = s.refreshToken
  accessToken : ∃ held, TokenAfter a.accessToken? t.lead held ∧
    TokenAfter held t.second a'.accessToken?
  renewals : ∀ x, t.lead = some x ∨ t.second = some x → CallTrace.IsRenewal a x
  carried : a.line.Carries t.exchanges a'.line
  unanswered : ∃ leg x, t.legs.getLast? = some (leg, x) ∧ x.response? = none

theorem Renewed.unanswered_of_dropped {a a' : Account} {x : Option Exchange}
    (h : Renewed a x .dropped a') : ∃ y, x = some y ∧ y.response? = none := by
  cases h with
  | unanswered => exact ⟨_, rfl, rfl⟩

theorem Asked.tokenAfter {a a₁ : Account} {r : Request} {lead : Option Exchange}
    {first : Exchange} (h : Asked a r lead first a₁) :
    TokenAfter a.accessToken? lead a₁.accessToken? := by
  rw [h.accessToken h.begins.token]
  exact h.begins.token

/-- The session after two exchanges, the second of which starts from where the first has led. -/
theorem Kept.session_kept {a a₁ a' : Account} {lead second : Option Exchange}
    (h : Kept a lead a₁) (h' : Kept a₁ second a') (hs : a.session ≠ none) :
    ∃ s s', a.session = some s ∧ a'.session = some s' ∧ s'.deviceId = s.deviceId ∧
      s'.refreshToken = s.refreshToken := by
  have hidentity := h'.identity.trans h.identity
  obtain ⟨s, hs⟩ := Option.ne_none_iff_exists'.mp hs
  rw [hs, Option.map_some] at hidentity
  obtain ⟨s', hs', he⟩ := Option.map_eq_some_iff.mp hidentity
  obtain ⟨hd, hr⟩ := Prod.mk.inj he
  exact ⟨s, s', hs, hs', hd, hr⟩

section BreaksOff

variable {a a₁ a' : Account} {r : Request} {lead second : Option Exchange} {first : Exchange}
  {x : Response}

theorem Led.breaksOff (h : Led a lead .dropped a') (hs : a.session.isSome) :
    a.BreaksOff { lead } a' := by
  obtain ⟨x, rfl, hx⟩ : ∃ x, lead = some x ∧ x.response? = none := by
    cases h with
    | dropped _ hr => exact hr.unanswered_of_dropped
  exact {
    session := h.kept.session_kept (.line a'.line) (Option.isSome_iff_ne_none.mp hs)
    accessToken := ⟨_, h.tokenAfter, .kept (by simp)⟩
    renewals := by
      intro y hy
      exact h.request (hy.resolve_right (by simp))
    carried := by simpa [CallTrace.exchanges_eq] using h.carries
    unanswered := ⟨.renewal, x, by simp [CallTrace.legs_getLast?], hx⟩ }

theorem Asked.breaksOff_first (h : Asked a r lead first a') (hx : first.response? = none) :
    a.BreaksOff { lead, first := some first } a' where
  session := h.kept.session_kept (.line a'.line) h.session
  accessToken := ⟨_, h.tokenAfter, .kept (by simp)⟩
  renewals y hy := h.led.request (hy.resolve_right (by simp))
  carried := by simpa [CallTrace.exchanges_eq] using h.carries
  unanswered := ⟨.request, first, by simp [CallTrace.legs_getLast?], hx⟩

theorem Asked.renewals {e : Ended RefreshResult} {y : Exchange} (h : Asked a r lead first a₁)
    (hr : Renewed a₁ second e a') (hy : lead = some y ∨ second = some y) :
    CallTrace.IsRenewal a y := by
  rcases hy with hy | hy
  · exact h.led.request hy
  · exact h.second_request hr hy

theorem Asked.breaksOff_second (h : Asked a r lead first a₁) (hx : first.response? = some x)
    (hr : Renewed a₁ second .dropped a') :
    a.BreaksOff { lead, first := some first, second } a' := by
  obtain ⟨y, rfl, hy⟩ := hr.unanswered_of_dropped
  exact {
    session := h.kept.session_kept hr.kept h.session
    accessToken := ⟨_, h.tokenAfter, hr.tokenAfter⟩
    renewals := fun _ => h.renewals hr
    carried := by simpa [CallTrace.exchanges_eq] using h.second_carries hx hr
    unanswered := ⟨.renewal, y, by simp [CallTrace.legs_getLast?], hy⟩ }

theorem Asked.breaksOff_retry {token : String} {l : Line} (h : Asked a r lead first a₁)
    (hx : first.response? = some x) (hr : Renewed a₁ second (.done .refreshed) a')
    (hl : a'.line.send (r.withBearer token) = (none, l)) :
    a.BreaksOff { lead, first := some first, second, retry := some ⟨r.withBearer token, none⟩ }
      { a' with line := l } where
  session := h.kept.session_kept (hr.kept.then_line l) h.session
  accessToken := ⟨_, h.tokenAfter, hr.tokenAfter⟩
  renewals _ := h.renewals hr
  carried := by
    have hc := (h.second_carries hx hr).append (h.second_answered hx hr (by simp))
      (.unanswered hl)
    simpa [CallTrace.exchanges_eq] using hc
  unanswered := ⟨.request, ⟨r.withBearer token, none⟩, by simp [CallTrace.legs_getLast?], rfl⟩

end BreaksOff

theorem Called.breaksOff {a a' : Account} {r : Request} {t : CallTrace}
    (h : Called a r t .dropped a') : a.BreaksOff t a' := by
  generalize he : (Ended.dropped : Ended Response) = e at h
  cases h with
  | leadDropped hs hl => exact hl.breaksOff hs
  | firstDropped ha hx => exact ha.breaksOff_first hx
  | secondDropped ha hx _ hr => exact ha.breaksOff_second hx hr
  | retryDropped ha hx _ hr _ hl => exact ha.breaksOff_retry hx hr hl
  | retried => split at he <;> cases he
  | _ => cases he

theorem authorizedCall_dropped {r : Request} {a a' : Account}
    (h : (authorizedCall r).run a = (.dropped, a')) : ∃ t, a.BreaksOff t a' := by
  obtain ⟨t, hc⟩ := authorizedCall_cases h
  exact ⟨t, hc.breaksOff⟩

/-- The session that was kept is back, but not its access token. -/
theorem restore_dropped {a a' : Account} (h : restore.run a = (.dropped, a')) :
    ∃ c line, a.vault.load a.disk = some c ∧
      a' = { a with line, session := some ⟨c.deviceId, none, some c.refreshToken, none⟩ } := by
  cases restore_cases h with
  | @dropped c x _ hl hr =>
    have hc : Session.ofCredential c = ⟨c.deviceId, none, some c.refreshToken, none⟩ := by
      simp [Session.ofCredential, Session.nonEmpty?, Storage.Vault.load_refreshToken hl]
    cases hr with
    | unanswered => exact ⟨c, _, hl, by rw [hc]⟩

end Account

namespace Polling.Watch

variable {σ ω : Type} {w : Watch σ ω} {interval left made : Nat} {s s' : σ}
  {polls : List (Asked σ)}

/-- Rounds are dropped during a poll, which is the last one then, or during a pause. -/
theorem Rounds.dropped_split (h : w.Rounds interval left made s polls .dropped s') :
    ∃ completed pending, polls = completed ++ Option.toList pending ∧
      (∀ p ∈ completed, p.ended ≠ .dropped) ∧ ∀ p, pending = some p → p.ended = .dropped := by
  have hbare : ∀ {p}, w.Bare p → p.ended ≠ .dropped := by
    intro p hp
    rcases hp with ⟨he, _⟩ | ⟨x, he, _⟩ <;> simp [he]
  generalize he : (Ended.dropped : Ended (WatchEnd ω)) = e at h
  induction h with
  | @dropped _ _ p _ hd => exact ⟨[], some p, by simp, by simp, by simpa using hd⟩
  | @pauseDropped _ _ p _ _ hb => exact ⟨[p], none, by simp, by simpa using hbare hb, by simp⟩
  | @again _ _ p _ _ _ _ _ hb _ _ ih =>
    obtain ⟨completed, pending, rfl, hc, hp⟩ := ih he
    exact ⟨p :: completed, pending, rfl, by simpa using ⟨hbare hb, hc⟩, hp⟩
  | _ => cases he

end Polling.Watch

namespace Fridge

/-- A protected call for an order was dropped; the order is as it was. -/
def BreaksOff (f f' : Fridge) : Prop :=
  ∃ t account, f' = { f with account } ∧ f.account.BreaksOff t account

/-- Waiting was dropped, in a pause or with one more poll on its way. -/
structure StopsWaiting (f : Fridge) (completed : List (Asked Fridge))
    (pending : Option (Asked Fridge)) (f' : Fridge) : Prop where
  rounds : watch.Rounds f.settings.pollInterval f.attempts 0 f (completed ++ pending.toList)
    .dropped f'
  ran : ∀ p ∈ completed, poll.forget.run p.before = (p.ended, p.after) ∧ p.ended ≠ .dropped
  onItsWay : ∀ p, pending = some p → poll.run p.before = (.dropped, p.after) ∧
    p.before.BreaksOff p.after
  /-- The order is the one that the completed polls have led to. -/
  order : Linked f.order (completed.map Move.ofPoll) f'.order
  unsettled : f'.order.isTerminal = false

/-- What an operation leaves of a fridge when it is dropped. Without a request or a pause it cannot
be. -/
def Operation.Leaves : Operation → Fridge → Fridge → Prop
  | register _, f, f' | login _, f, f' => ∃ line, f' = f.withLine line
  | restore, f, f' => ∃ c line, f.account.vault.load f.account.disk = some c ∧
      f' = { f with account := { f.account with
        line, session := some ⟨c.deviceId, none, some c.refreshToken, none⟩ } }
  | waitForCompletion, f, f' => ∃ completed pending, f.StopsWaiting completed pending f'
  | logout, _, _ | acknowledge, _, _ => False
  | preview _, f, f' | confirm, f, f' | cancel, f, f' | poll, f, f' | history, f, f'
  | lastOrder, f, f' => f.BreaksOff f'

theorem Errand.dropped {α : Type} {r : Errand α} {f f' : Fridge}
    (h : r.call.run f = (.dropped, f')) : f.BreaksOff f' := by
  cases Errand.call_cases h with
  | dropped _ hc =>
    obtain ⟨t, ht⟩ := Account.authorizedCall_dropped hc
    exact ⟨t, _, rfl, ht⟩

theorem poll_dropped {f f' : Fridge} (h : Fridge.poll.forget.run f = (.dropped, f')) :
    f.BreaksOff f' :=
  Errand.dropped (poll_eq ▸ Call.forget_dropped h)

/-- A poll on its way that has not moved the order counts for nothing. -/
theorem Linked.completed {o o' : Order} {completed : List (Asked Fridge)}
    {pending : Option (Asked Fridge)}
    (h : Linked o ((completed ++ pending.toList).map Move.ofPoll) o')
    (hp : ∀ p, pending = some p → p.after.order = p.before.order) :
    Linked o (completed.map Move.ofPoll) o' := by
  rw [List.map_append] at h
  obtain ⟨between, hc, hrest⟩ := h.split
  cases pending with
  | none =>
    cases hrest
    exact hc
  | some p =>
    obtain ⟨hbefore, hafter⟩ := hrest.single
    have hsame : o' = between := by
      rw [hafter, hbefore]
      exact hp p rfl
    rw [hsame]
    exact hc

theorem waitForCompletion_dropped {f f' : Fridge}
    (h : Fridge.waitForCompletion.run f = (.dropped, f')) :
    ∃ completed pending, f.StopsWaiting completed pending f' := by
  rcases waitForCompletion_cases h with ⟨_, _, he, _⟩ | ⟨ho, polls, hr⟩
  · cases he
  obtain ⟨completed, pending, rfl, hcompleted, hpending⟩ := hr.dropped_split
  have hran : ∀ p ∈ completed ++ pending.toList,
      Fridge.poll.forget.run p.before = (p.ended, p.after) :=
    fun p hp => (hr.asks p hp).ran
  have hbreaks : ∀ p, pending = some p →
      Fridge.poll.run p.before = (.dropped, p.after) ∧ p.before.BreaksOff p.after := by
    intro p hp
    have hrun := hran p (by simp [hp])
    rw [hpending p hp] at hrun
    exact ⟨Call.forget_dropped hrun, poll_dropped hrun⟩
  have hunsettled : f'.order.outcome? = none :=
    (waitForCompletion_stays h (by simp)).outcome ho
  refine ⟨completed, pending, hr, ?_, hbreaks, ?_, ?_⟩
  · intro p hp
    exact ⟨hran p (by simp [hp]), hcompleted p hp⟩
  · apply (rounds_linked hr).completed
    intro p hp
    obtain ⟨_, t, account, hafter, _⟩ := hbreaks p hp
    rw [hafter]
  · rw [Bool.eq_false_iff]
    intro ht
    rw [Order.isTerminal_iff, hunsettled] at ht
    cases ht

theorem logout_finishes : Call.Finishes (fun _ => True) logout := by
  have haccount : Call.Finishes (fun _ => True) Account.logout := by
    refine (Call.Finishes.modify fun _ _ => trivial).bind fun _ => ?_
    refine (Call.Finishes.view _).bind fun d => ?_
    cases d with
    | ok disk => exact .modify fun _ _ => trivial
    | error x => exact .fail _
  refine (Call.Finishes.modify fun _ _ => trivial).bind fun _ => ?_
  exact haccount.within (fun _ _ => trivial) fun _ _ _ _ => trivial

theorem acknowledge_finishes : Call.Finishes (fun _ => True) acknowledge :=
  advance_finishes (fun _ _ _ => trivial) _

theorem Operation.leaves {op : Operation} {f f' : Fridge}
    (h : op.call.run f = (.dropped, f')) : op.Leaves f f' := by
  cases op with
  | register r => exact register_line h
  | login l =>
    rcases login_cases h with ⟨hd, _⟩ | ⟨_, hline⟩
    · cases hd
    · exact hline
  | restore =>
    obtain ⟨account, hr, rfl⟩ := onAccount_cases (Call.forget_dropped h)
    obtain ⟨c, line, hl, rfl⟩ := Account.restore_dropped hr
    exact ⟨c, line, hl, rfl⟩
  | logout => exact absurd rfl (logout_finishes _ _ _ trivial h).1
  | acknowledge => exact absurd rfl (acknowledge_finishes _ _ _ trivial (Call.forget_dropped h)).1
  | waitForCompletion => exact waitForCompletion_dropped (Call.forget_dropped h)
  | preview cart =>
    rw [Operation.call, preview_eq] at h
    exact Errand.dropped h
  | confirm =>
    rw [Operation.call, confirm_eq] at h
    exact Errand.dropped h
  | cancel => exact Errand.dropped (cancel_eq ▸ Call.forget_dropped h)
  | poll => exact poll_dropped h
  | history => exact Errand.dropped (history_eq ▸ Call.forget_dropped h)
  | lastOrder => exact Errand.dropped (lastOrder_eq ▸ Call.forget_dropped h)

end Fridge

/-- An operation of a fridge that is dropped, wherever that is, leaves what its steps had come to
until then, and so does a protected call for anything else. -/
theorem drops_leave :
    (∀ (op : Fridge.Operation) (f f' : Fridge), op.call.run f = (.dropped, f') → op.Leaves f f') ∧
    ∀ (r : Request) (a a' : Account), (Account.authorizedCall r).run a = (.dropped, a') →
      ∃ t, a.BreaksOff t a' := by
  constructor
  · intro op f f' h
    exact op.leaves h
  · intro r a a' h
    exact Account.authorizedCall_dropped h

/-- A fridge that finds its order in progress, and does not wait for the second poll. -/
def Fridge.hurried : Fridge :=
  patient.withLine { replies := [⟨⟨404, .null⟩, 0, false⟩], dropAt := some 5 }

/-- A device whose access token is due, and whose line renews it and brings nothing else. -/
def Account.cutOff : Account :=
  { stale with line := {
    outlet := ⟨fun _ => none, none⟩
    now := 240000
    replies := [⟨⟨200, Wire.FreshToken.toJson ⟨"b"⟩⟩, 0, false⟩] } }

theorem drops_leave_midway :
    (∃ f', Fridge.Operation.waitForCompletion.call.run .hurried = (.dropped, f') ∧
      Fridge.Operation.waitForCompletion.Leaves .hurried f' ∧
      f'.order.stateName = "IN_PROGRESS") ∧
    ∃ t a', (Account.authorizedCall (.get "/api/client/orders")).run .cutOff = (.dropped, a') ∧
      Account.cutOff.BreaksOff t a' ∧ a'.accessToken? = some "b" := by
  constructor
  · have h : Fridge.Operation.waitForCompletion.call.run .hurried = (.dropped, _) :=
      Prod.ext (by decide +kernel) rfl
    exact ⟨_, h, drops_leave.1 _ _ _ h, by decide +kernel⟩
  · have h : (Account.authorizedCall (.get "/api/client/orders")).run .cutOff = (.dropped, _) :=
      Prod.ext (by decide +kernel) rfl
    obtain ⟨t, ht⟩ := drops_leave.2 _ _ _ h
    exact ⟨t, _, h, ht, by decide +kernel⟩

end Larder
