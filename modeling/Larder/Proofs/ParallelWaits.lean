import Larder.Proofs.DeliveryWaits
import Larder.Proofs.ParallelLines

namespace Larder

open Polling (Asked Watch WatchEnd)

/-- The delivery came to the same as the order. One that was cancelled has failed. -/
inductive OutcomesAlike : OrderOutcome → RestockOutcome → Prop where
  | completed (t : Ticket) (total : Decimal) :
      OutcomesAlike (.completed t total) (.completed t.orderId total)
  | failed (orderId status : String) :
      OutcomesAlike (.failed orderId status) (.failed orderId status)
  | cancelled (orderId : String) : OutcomesAlike (.cancelled orderId) (.failed orderId "CANCELLED")

/-- A record settles the order and the restock, or neither of them. -/
theorem afterRecord_alike (t : Ticket) (record : Wire.OrderRecord) :
    (∃ o o', OutcomesAlike o o' ∧ (Order.afterRecord t record).outcome? = some o ∧
      (Restock.afterRecord t.orderId record.asRestock).outcome? = some o') ∨
    (Order.afterRecord t record = .inProgress t record.status ∧
      Restock.afterRecord t.orderId record.asRestock = .inProgress t.orderId record.status) := by
  have hstatus : record.asRestock.status = record.status := rfl
  unfold Order.afterRecord Restock.afterRecord
  rw [hstatus]
  rcases Polling.classify_cases record.status with ⟨hc, _⟩ | ⟨hc, _⟩ | ⟨hc, hs⟩ | ⟨hc, _⟩
  · rw [hc]
    exact Or.inl ⟨_, _, .completed t record.totalPrice, rfl, rfl⟩
  · rw [hc]
    exact Or.inl ⟨_, _, .failed t.orderId record.status, rfl, rfl⟩
  · rw [hc, hs]
    exact Or.inl ⟨_, _, .cancelled t.orderId, rfl, rfl⟩
  · rw [hc]
    exact Or.inr ⟨rfl, rfl⟩

section Remembers

variable {o : Order} {t : Ticket} {status : String}

theorem Order.Remembers.isAwaiting (h : o.Remembers t status) : o.isAwaiting = true := by
  cases h <;> rfl

theorem Order.Remembers.outcome (h : o.Remembers t status) : o.outcome? = none := by
  cases h <;> rfl

end Remembers

/-- How a poll goes whose request is answered: a record of the order comes, or nothing does. -/
theorem Fridge.poll_brings {f f' : Fridge} {token status : String} {t : Ticket} {y : Response}
    {line : Line} {e : Ended Unit} (hf : f.Steady token) (hd : f.account.refreshDue = false)
    (ho : f.order.Remembers t status)
    (hl : f.line.send (lastOrderRequest token) = (some y, line))
    (h : poll.forget.run f = (e, f')) :
    (∃ record, lastRecord y = .ok (some record) ∧ e = .done () ∧
      f' = { f.withLine line with order := .afterPoll t status (some record) }) ∨
    ((∀ record, lastRecord y ≠ .ok (some record)) ∧
      (e = .done () ∨ ∃ x, e = .failed x ∧ watch.isFatal x = false) ∧
      ∃ order status', order.Remembers t status' ∧ f' = { f.withLine line with order }) := by
  rcases poll_answered hf hd hl h with
    ⟨x, hy, hfatal, he, hafter⟩ | ⟨record, order, hy, hnoted, he, hafter⟩
  · exact Or.inr ⟨by simp [hy], Or.inr ⟨x, he, hfatal⟩, f.order, status, ho, hafter⟩
  rw [ho.applyPoll] at hnoted
  obtain ⟨_, rfl⟩ := Prod.mk.inj hnoted
  cases record with
  | some record => exact Or.inl ⟨record, hy, he, hafter⟩
  | none => exact Or.inr ⟨by simp [hy], Or.inl he, _, status, .inProgress status, hafter⟩

/-- The request that asks for the delivery with an id. -/
def Supplier.inquiry (orderId : String) : Request :=
  (Request.get statusPath).withQuery "order_id" orderId

/-- A poll whose request is not answered is dropped. -/
theorem Supplier.poll_unanswered {s s' : Supplier} {orderId : String} {line : Line}
    {e : Ended Unit} (hs : s.Awaits orderId) (hl : s.line.send (inquiry orderId) = (none, line))
    (h : poll.forget.run s = (e, s')) : e = .dropped ∧ s' = { s with line } := by
  obtain ⟨r, hc, _, rfl⟩ := hs
  obtain ⟨ended, hrun, rfl⟩ := Call.forget_ended h
  cases poll_cases hrun with
  | untracked hn => cases hc.symm.trans hn
  | dropped hr hsent =>
    cases hc.symm.trans hr
    cases hl.symm.trans hsent
    exact ⟨rfl, rfl⟩
  | unreadable hr hsent =>
    cases hc.symm.trans hr
    cases hl.symm.trans hsent
  | nothing hr hsent =>
    cases hc.symm.trans hr
    cases hl.symm.trans hsent
  | noted hr hsent =>
    cases hc.symm.trans hr
    cases hl.symm.trans hsent

/-- How a poll goes whose request is answered: a record comes, or nothing does. -/
theorem Supplier.poll_brings {s s' : Supplier} {orderId : String} {y : Response} {line : Line}
    {e : Ended Unit} (hs : s.Awaits orderId) (hl : s.line.send (inquiry orderId) = (some y, line))
    (h : poll.forget.run s = (e, s')) :
    (∃ record, reported y = .ok (some record) ∧ e = .done () ∧
      s' = { s with line, current := some (.afterRecord orderId record) }) ∨
    ((∀ record, reported y ≠ .ok (some record)) ∧
      (e = .done () ∨ ∃ x, e = .failed x ∧ watch.isFatal x = false) ∧ s' = { s with line }) := by
  obtain ⟨r, hc, hr, rfl⟩ := hs
  obtain ⟨ended, hrun, rfl⟩ := Call.forget_ended h
  cases poll_cases hrun with
  | untracked hn => cases hc.symm.trans hn
  | dropped hr' hsent =>
    cases hc.symm.trans hr'
    cases hl.symm.trans hsent
  | unreadable hr' hsent hy =>
    cases hc.symm.trans hr'
    cases hl.symm.trans hsent
    exact Or.inr ⟨by simp [hy], Or.inr ⟨_, rfl, reported_isNotAllowed hy⟩, rfl⟩
  | nothing hr' hsent hy =>
    cases hc.symm.trans hr'
    cases hl.symm.trans hsent
    exact Or.inr ⟨by simp [hy], Or.inl rfl, rfl⟩
  | noted hr' hsent hy =>
    cases hc.symm.trans hr'
    cases hl.symm.trans hsent
    rw [Restock.afterPoll_of_unfinished hr]
    exact Or.inl ⟨_, hy, rfl, rfl⟩

/-- The clocks of two lines show the same, and as many requests have gone out over one as over the
other, of one kind over each. -/
structure Line.Tally (sent sent' : List Request) (r q : Request) (l m : Line) : Prop where
  now : m.now = l.now
  asked : ∃ n, l.sent = sent ++ List.replicate n r ∧ m.sent = sent' ++ List.replicate n q

section Tally

variable {sent sent' : List Request} {r q : Request} {l m l' m' : Line}

theorem Line.Tally.send {y? z? : Option Response} (h : l.Tally sent sent' r q m)
    (hl : l.send r = (y?, l')) (hm : m.send q = (z?, m')) (hnow : m'.now = l'.now) :
    l'.Tally sent sent' r q m' := by
  obtain ⟨n, hsent, hsent'⟩ := h.asked
  refine ⟨hnow, n + 1, ?_, ?_⟩
  · rw [Line.send_sent hl, hsent, List.append_assoc, ← List.replicate_succ']
  · rw [Line.send_sent hm, hsent', List.append_assoc, ← List.replicate_succ']

theorem Line.Tally.sleep {interval : Nat} {o o' : Option Bool} (h : l.Tally sent sent' r q m)
    (hl : l.sleep interval = (o, l')) (hm : m.sleep interval = (o', m')) (hnow : m'.now = l'.now) :
    l'.Tally sent sent' r q m' := by
  obtain ⟨_, rfl, _⟩ := Line.sleep_cases hl
  obtain ⟨_, rfl, _⟩ := Line.sleep_cases hm
  exact ⟨hnow, h.asked⟩

end Tally

/-- The fridge waits for the order with the ticket, and the supplier for a delivery with the same
id, over lines with like replies. -/
structure Abreast (token : String) (t : Ticket) (f : Fridge) (s : Supplier) : Prop where
  token : f.account.accessToken? = some token
  order : ∃ status, f.order.Remembers t status
  restock : s.Awaits t.orderId
  lines : f.line.Beside t s.line

section Abreast

variable {token : String} {t : Ticket} {f : Fridge} {s : Supplier} {sent sent' : List Request}

theorem Abreast.steady (h : Abreast token t f s) : f.Steady token := by
  obtain ⟨status, ho⟩ := h.order
  exact ⟨h.token, ho.isAwaiting, h.lines.grants⟩

/-- The requests that both have sent. -/
abbrev Tallies (token : String) (t : Ticket) (sent sent' : List Request) (f : Fridge)
    (s : Supplier) : Prop :=
  f.line.Tally sent sent' (Fridge.lastOrderRequest token) (Supplier.inquiry t.orderId) s.line

/-- A poll of the fridge beside one of the supplier. -/
theorem Abreast.polled {p : Asked Fridge} {q : Asked Supplier} (hp : Fridge.watch.Asks p)
    (hq : Supplier.watch.Asks q) (hd : p.before.account.refreshDue = false)
    (h : Abreast token t p.before q.before) (ht : Tallies token t sent sent' p.before q.before) :
    Watch.PolledAlike Fridge.watch Supplier.watch
      (fun f s => Abreast token t f s ∧ Tallies token t sent sent' f s)
      (Tallies token t sent sent') OutcomesAlike p q := by
  obtain ⟨status, ho⟩ := h.order
  obtain ⟨l, m, hlines, ⟨hl, hm⟩ | ⟨a, b, hab, hl, hm⟩⟩ :=
    h.lines.send (Fridge.lastOrderRequest token) (Supplier.inquiry t.orderId)
  · obtain ⟨he, hafter⟩ := Fridge.poll_unanswered h.steady hd hl hp.ran
    obtain ⟨he', hafter'⟩ := Supplier.poll_unanswered h.restock hm hq.ran
    refine .dropped he he' ?_
    rw [hafter, hafter']
    exact ht.send hl hm hlines.now
  have htally := ht.send hl hm hlines.now
  -- Both are told of a record or neither is, so of the four cases below two cannot be.
  have htold := hab.response.reported_iff
  rcases Fridge.poll_brings h.steady hd ho hl hp.ran with
    ⟨record, hy, he, hafter⟩ | ⟨hy, he, order, status', hremembers, hafter⟩
  · obtain ⟨record', hz, he', hafter'⟩ | ⟨hz, _⟩ := Supplier.poll_brings h.restock hm hq.ran
    · obtain ⟨_, hy', rfl⟩ := (htold record').mp hz
      cases hy.symm.trans hy'
      rw [Order.afterPoll_of_matches (hab.concerns record hy)] at hafter
      rcases afterRecord_alike t record with ⟨o, o', halike, hout, hout'⟩ | ⟨hnext, hnext'⟩
      · refine .settled ⟨he, hafter ▸ hout⟩ ⟨he', hafter' ▸ hout'⟩ halike ?_
        rw [hafter, hafter']
        exact htally
      · rw [hnext] at hafter
        rw [hnext'] at hafter'
        refine .bare (Or.inl ⟨he, hafter ▸ rfl⟩) (Or.inl ⟨he', hafter' ▸ rfl⟩) ?_
        rw [hafter, hafter']
        exact ⟨⟨h.token, ⟨_, .inProgress record.status⟩, ⟨_, rfl, rfl, rfl⟩, hlines⟩, htally⟩
    · exact absurd ((htold _).mpr ⟨record, hy, rfl⟩) (hz _)
  · obtain ⟨record', hz, _⟩ | ⟨_, he', hafter'⟩ := Supplier.poll_brings h.restock hm hq.ran
    · obtain ⟨record, hy', _⟩ := (htold record').mp hz
      exact absurd hy' (hy record)
    · have hout : Fridge.watch.outcome? p.after = none := by
        rw [hafter]
        exact hremembers.outcome
      have hout' : Supplier.watch.outcome? q.after = none := by
        rw [hafter']
        exact h.restock.outcome
      refine .bare (he.imp_left fun hdone => ⟨hdone, hout⟩)
        (he'.imp_left fun hdone => ⟨hdone, hout'⟩) ?_
      rw [hafter, hafter']
      exact ⟨⟨h.token, ⟨_, hremembers⟩, h.restock, hlines⟩, htally⟩

/-- A pause of the fridge beside one of the supplier. -/
theorem Abreast.paused {interval : Nat} {b : Ended Bool} {f' : Fridge} (h : Abreast token t f s)
    (ht : Tallies token t sent sent' f s) (hf : (Fridge.watch.pause interval).run f = (b, f')) :
    ∃ s', (Supplier.watch.pause interval).run s = (b, s') ∧ Abreast token t f' s' ∧
      Tallies token t sent sent' f' s' := by
  have hsame : ((Supplier.watch.line s).sleep interval).1 =
      ((Fridge.watch.line f).sleep interval).1 := (h.lines.sleep interval).1
  have hlines := (h.lines.sleep interval).2
  rw [Watch.pause_eq] at hf ⊢
  cases hf
  rw [hsame]
  refine ⟨_, rfl, ⟨h.token, h.order, h.restock, hlines⟩, ?_⟩
  exact ht.sleep (Prod.eta _).symm (Prod.eta _).symm hlines.now

/-- The wait for a delivery goes the way of the wait for an order. -/
theorem waits_shadow (token : String) (t : Ticket) (sent sent' : List Request) (interval : Nat) :
    Fridge.watch.Shadows Supplier.watch interval (fun f => f.account.refreshDue = false)
      (fun f s => Abreast token t f s ∧ Tallies token t sent sent' f s)
      (Tallies token t sent sent') OutcomesAlike where
  finished h := h.2
  cancelled h := h.1.lines.isCancelled
  polled hp hq hd h := h.1.polled hp hq hd h.2
  paused h hf := h.1.paused h.2 hf

end Abreast

theorem Supplier.waitForCompletion_of_rounds {s s' : Supplier} {orderId : String}
    {polls : List (Asked Supplier)} {e : Ended (WatchEnd RestockOutcome)} (hs : s.Awaits orderId)
    (h : watch.Rounds s.settings.pollInterval s.attempts 0 s polls e s') :
    waitForCompletion.run s = (e, s') := by
  have hwatch : (watch.run (.ofSettings s.settings)).run s = (e, s') :=
    Watch.Rounds.watch_eq hs.outcome h
  unfold Supplier.waitForCompletion
  rw [Call.run_view_bind]
  exact hwatch

/-- Waiting for an order and waiting for a delivery with the same id, told the same by the service,
end alike, after as many requests and as much time. -/
theorem waits_agree {token : String} {t : Ticket} {f f' : Fridge} {s s' : Supplier}
    {e : Ended (WatchEnd OrderOutcome)} {e' : Ended (WatchEnd RestockOutcome)}
    (hinterval : s.settings.pollInterval = f.settings.pollInterval)
    (hattempts : s.settings.maxPollAttempts = f.settings.maxPollAttempts)
    (h : Abreast token t f s) (hdue : f.NeverDue)
    (hf : Fridge.waitForCompletion.run f = (e, f'))
    (hs : Supplier.waitForCompletion.run s = (e', s')) :
    Watch.EndsAlike OutcomesAlike 0 0 e e' ∧ s'.line.now = f'.line.now ∧
    (∃ n, f'.line.sent = f.line.sent ++ List.replicate n (Fridge.lastOrderRequest token) ∧
      s'.line.sent = s.line.sent ++ List.replicate n (Supplier.inquiry t.orderId)) ∧
    (f.line.Attended → ∃ w, e = .done w) := by
  obtain ⟨status, ho⟩ := h.order
  obtain ⟨polls, hr⟩ := Fridge.waitForCompletion_rounds ho.isAwaiting hf
  have hstart : Tallies token t f.line.sent s.line.sent f s :=
    ⟨h.lines.now, 0, by simp, by simp⟩
  obtain ⟨polls', e₁, s₁, hr', _, hends, hfinished, _⟩ :=
    hr.shadowed (waits_shadow token t _ _ _) (hdue polls e f' hr) ⟨h, hstart⟩ 0
  have hlimit : f.attempts = s.attempts := by
    rw [Fridge.attempts, Supplier.attempts, hattempts]
  rw [← hinterval, hlimit] at hr'
  cases (Supplier.waitForCompletion_of_rounds h.restock hr').symm.trans hs
  refine ⟨hends, hfinished.now, hfinished.asked, fun hl => ?_⟩
  have hkept : e ≠ .dropped :=
    (Watch.rounds_finishes Fridge.watch_line Fridge.poll_finishes.forget _ _ _ e f' hl hr.run_eq).1
  cases hends with
  | settled => exact ⟨_, rfl⟩
  | timedOut => exact ⟨_, rfl⟩
  | cancelled => exact ⟨_, rfl⟩
  | dropped => exact absurd rfl hkept

/-- A delivery or an order that is completed and amounts to seven, with this key for the amount. -/
def completedBody (amountKey : String) : Json.Value :=
  .object [("data", .object [("OrderID", .text "o1"), ("Status", .text "COMPLETED"),
    (amountKey, .number (.integer 7))])]

/-- The replies when there is no record at first. -/
def lateReplies (amountKey : String) : List Reply :=
  [⟨⟨404, .object []⟩, 30, false⟩, ⟨⟨200, completedBody amountKey⟩, 5, false⟩]

/-- A fridge that waits for an order. -/
def orderer : Fridge where
  settings := .default
  account := {
    line := { replies := lateReplies "TotalPrice" }
    disk := ⟨[(["cache"], .directory)]⟩
    vault := .ofDirectory ⟨["cache"]⟩
    refreshInterval := 240000
    session := some ⟨"f1", some "a1", some "r1", some 0⟩ }
  order := .confirming ⟨"o1", .empty⟩

/-- A supplier that waits for a delivery with the same id. -/
def deliverer : Supplier where
  settings := .default
  line := { replies := lateReplies "TotalCost" }
  current := some (.submitted "o1")

theorem completedBody_renamed :
    Wire.RenamedBody (completedBody "TotalPrice") (completedBody "TotalCost") := by
  refine .object (.cons (.data (.object ?_)) .nil)
  exact .of_eq rfl

theorem lastRecord_completed : Fridge.lastRecord ⟨200, completedBody "TotalPrice"⟩ =
    .ok (some ⟨"o1", "COMPLETED", { isNegative := false, size := 7, scale := 0 }, none⟩) := by
  decide +kernel

theorem orderer_abreast : Abreast "a1" ⟨"o1", .empty⟩ orderer deliverer := by
  refine ⟨rfl, ⟨_, .confirming⟩, ⟨_, rfl, rfl, rfl⟩, rfl, rfl, rfl, fun _ => ⟨rfl, rfl⟩, ?_, ?_⟩
  · refine .cons ⟨rfl, rfl, ⟨rfl, .object .nil⟩, by decide, ?_⟩
      (.cons ⟨rfl, rfl, ⟨rfl, completedBody_renamed⟩, by decide, ?_⟩ .nil)
    · intro record h
      cases h
    · intro record h
      cases lastRecord_completed.symm.trans h
      exact Or.inr rfl
  · refine .some ⟨rfl, rfl, ⟨rfl, .object (.cons (.other ?_) .nil)⟩, by decide, ?_⟩
    · decide
    · intro record h
      cases h

/-- Both are completed, with the same total. -/
theorem waits_agree_completed : ∃ total f' s',
    Abreast "a1" ⟨"o1", .empty⟩ orderer deliverer ∧ orderer.NeverDue ∧
    Fridge.waitForCompletion.run orderer =
      (.done (.settled (.completed ⟨"o1", .empty⟩ total)), f') ∧
    Supplier.waitForCompletion.run deliverer = (.done (.settled (.completed "o1" total)), s') ∧
    s'.line.now = f'.line.now := by
  have hdue : orderer.NeverDue := Fridge.neverDue_of_arrivals (by decide +kernel)
  let total : Decimal := { isNegative := false, size := 7, scale := 0 }
  have hf : Fridge.waitForCompletion.run orderer =
      (.done (.settled (.completed ⟨"o1", .empty⟩ total)),
        (Fridge.waitForCompletion.run orderer).2) := Prod.ext (by decide +kernel) rfl
  have hs := (Prod.eta (Supplier.waitForCompletion.run deliverer)).symm
  obtain ⟨hends, hnow, _⟩ := waits_agree rfl rfl orderer_abreast hdue hf hs
  generalize hended : (Supplier.waitForCompletion.run deliverer).1 = e at hends hs
  cases hends with
  | settled halike =>
    cases halike
    exact ⟨total, _, _, orderer_abreast, hdue, hf, hs, hnow⟩

end Larder
