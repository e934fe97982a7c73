import Larder.Proofs.Renewals
import Larder.Proofs.Watches
import Larder.Restock.Supplier

namespace Larder

open Polling (Watch WatchEnd)

namespace Supplier

/-- What can be done with a supplier. -/
inductive Operation where
  | register (t : Truck)
  | submit (b : Batch)
  | poll
  | waitForCompletion
  | clear

def Operation.call : Operation → Call Supplier Unit
  | register t => Supplier.register t
  | submit b => (Supplier.submit b).forget
  | poll => Supplier.poll.forget
  | waitForCompletion => Supplier.waitForCompletion.forget
  | clear => Supplier.clear

/-- A call that begins with a request: the response comes and the rest goes on from there, or the
call is dropped. -/
theorem send_bind_cases {α : Type} {r : Request} {f : Response → Call Supplier α}
    {s s' : Supplier} {e : Ended α} (h : (send r >>= f).run s = (e, s')) :
    (∃ x line, s.line.send r = (some x, line) ∧ (f x).run { s with line } = (e, s')) ∨
    (∃ line, s.line.send r = (none, line) ∧ e = .dropped ∧ s' = { s with line }) := by
  rcases Call.wait_bind_cases h with ⟨x, t, hw, hf⟩ | ⟨hw, rfl⟩
  · obtain ⟨hx, rfl⟩ := Prod.mk.inj hw
    exact Or.inl ⟨x, _, Prod.ext hx rfl, hf⟩
  · obtain ⟨hx, rfl⟩ := Prod.mk.inj hw
    exact Or.inr ⟨_, Prod.ext hx rfl, rfl, rfl⟩

/-- The request that registers a truck. -/
def registrationRequest (t : Truck) : Request :=
  (Request.post registerPath).withBody t.registration.toJson

/-- How a registration goes: one request at most, and nothing but the line changes. -/
theorem register_carries {t : Truck} {s s' : Supplier} {e : Ended Unit}
    (h : (register t).run s = (e, s')) : ∃ xs line, s.line.Carries xs line ∧
      s' = { s with line } ∧ ∀ x ∈ xs, x.request = registrationRequest t := by
  unfold register at h
  cases ht : t.validate with
  | error x =>
    rw [ht] at h
    cases h
    exact ⟨[], s.line, .nil _, rfl, by simp⟩
  | ok u =>
    rw [ht, Call.ofExcept_ok_bind] at h
    rcases send_bind_cases h with ⟨x, line, hl, hx⟩ | ⟨line, hl, _, rfl⟩
    · refine ⟨[⟨registrationRequest t, some x⟩], line, .answered hl (.nil _), ?_, by simp⟩
      cases hs : x.success with
      | error y =>
        rw [hs] at hx
        cases hx
        rfl
      | ok y =>
        rw [hs] at hx
        cases hx
        rfl
    · exact ⟨[⟨registrationRequest t, none⟩], line, .unanswered hl, rfl, by simp⟩

/-- At most the line changes in a registration. -/
theorem register_cases {t : Truck} {s s' : Supplier} {e : Ended Unit}
    (h : (register t).run s = (e, s')) : ∃ line, s' = { s with line } := by
  obtain ⟨_, line, _, hs, _⟩ := register_carries h
  exact ⟨line, hs⟩

/-- The request that hands a delivery in. -/
def restockRequest (r : Wire.RestockRequest) : Request :=
  (Request.post restockPath).withBody r.toJson

/-- How handing a batch in goes. -/
inductive Submitted (s : Supplier) (b : Batch) : Ended String → Supplier → Prop where
  | unfinished {x : Failure} (hc : checkCanSubmit s.current = .error x) :
      Submitted s b (.failed x) s
  | invalid {x : Failure} (hc : checkCanSubmit s.current = .ok ()) (hb : b.request = .error x) :
      Submitted s b (.failed x) s
  | dropped {r : Wire.RestockRequest} {line : Line} (hc : checkCanSubmit s.current = .ok ())
      (hb : b.request = .ok r) (hl : s.line.send (restockRequest r) = (none, line)) :
      Submitted s b .dropped { s with line }
  | declined {r : Wire.RestockRequest} {y : Response} {x : Failure} {line : Line}
      (hc : checkCanSubmit s.current = .ok ()) (hb : b.request = .ok r)
      (hl : s.line.send (restockRequest r) = (some y, line)) (hy : acceptedId y = .error x) :
      Submitted s b (.failed x) { s with line }
  | accepted {r : Wire.RestockRequest} {y : Response} {orderId : String} {line : Line}
      (hc : checkCanSubmit s.current = .ok ()) (hb : b.request = .ok r)
      (hl : s.line.send (restockRequest r) = (some y, line)) (hy : acceptedId y = .ok orderId) :
      Submitted s b (.done orderId) { s with line, current := some (.submitted orderId) }

theorem submit_cases {s s' : Supplier} {b : Batch} {e : Ended String}
    (h : (submit b).run s = (e, s')) : Submitted s b e s' := by
  unfold submit at h
  rw [Call.run_view_bind] at h
  cases hc : checkCanSubmit s.current with
  | error x =>
    rw [hc] at h
    cases h
    exact .unfinished hc
  | ok u =>
    rw [hc, Call.ofExcept_ok_bind] at h
    cases hb : b.request with
    | error x =>
      rw [hb] at h
      cases h
      exact .invalid hc hb
    | ok r =>
      rw [hb, Call.ofExcept_ok_bind] at h
      rcases send_bind_cases h with ⟨y, line, hl, hy⟩ | ⟨line, hl, rfl, rfl⟩
      · cases ha : acceptedId y with
        | error x =>
          rw [ha] at hy
          cases hy
          exact .declined hc hb hl ha
        | ok orderId =>
          rw [ha] at hy
          cases hy
          exact .accepted hc hb hl ha
      · exact .dropped hc hb hl

/-- The request that asks for a delivery. -/
def statusRequest (r : Restock) : Request := (Request.get statusPath).withQuery "order_id" r.orderId

/-- What a response says of a delivery, if it says anything. -/
def reported (y : Response) : Except Failure (Option Wire.RestockRecord) :=
  (y.content (Wire.Envelope.decode Wire.RestockRecord.decode)).map Wire.Envelope.data

/-- How asking for a delivery goes. -/
inductive Inquired (s : Supplier) : Ended RestockStatus → Supplier → Prop where
  | untracked (hc : s.current = none) : Inquired s (.failed (.notAllowed "No restock submitted")) s
  | dropped {r : Restock} {line : Line} (hc : s.current = some r)
      (hl : s.line.send (statusRequest r) = (none, line)) : Inquired s .dropped { s with line }
  | unreadable {r : Restock} {y : Response} {x : Failure} {line : Line}
      (hc : s.current = some r) (hl : s.line.send (statusRequest r) = (some y, line))
      (hy : reported y = .error x) : Inquired s (.failed x) { s with line }
  | nothing {r : Restock} {y : Response} {line : Line} (hc : s.current = some r)
      (hl : s.line.send (statusRequest r) = (some y, line)) (hy : reported y = .ok none) :
      Inquired s (.done r.status) { s with line }
  | noted {r : Restock} {y : Response} {record : Wire.RestockRecord} {line : Line}
      (hc : s.current = some r) (hl : s.line.send (statusRequest r) = (some y, line))
      (hy : reported y = .ok (some record)) :
      Inquired s (.done (r.afterPoll record).status)
        { s with line, current := some (r.afterPoll record) }

theorem poll_cases {s s' : Supplier} {e : Ended RestockStatus} (h : poll.run s = (e, s')) :
    Inquired s e s' := by
  unfold poll at h
  rcases Call.bind_cases h with ⟨r, t, ht, hr⟩ | ⟨x, ht, rfl⟩ | ⟨ht, rfl⟩
  all_goals
    unfold tracked at ht
    rw [Call.run_view_bind] at ht
    cases hc : s.current <;> rw [hc] at ht <;> cases ht
  · rcases send_bind_cases hr with ⟨y, line, hl, hy⟩ | ⟨line, hl, rfl, rfl⟩
    · have hreported : reported y =
          (y.content (Wire.Envelope.decode Wire.RestockRecord.decode)).map Wire.Envelope.data := rfl
      cases hx : y.content (Wire.Envelope.decode Wire.RestockRecord.decode) with
      | error x =>
        rw [hx] at hy hreported
        cases hy
        exact .unreadable hc hl hreported
      | ok envelope =>
        rw [hx] at hy hreported
        rw [Call.ofExcept_ok_bind] at hy
        change reported y = .ok envelope.data at hreported
        cases hd : envelope.data with
        | none =>
          rw [hd] at hy hreported
          cases hy
          exact .nothing hc hl hreported
        | some record =>
          rw [hd] at hy hreported
          cases hy
          exact .noted hc hl hreported
    · exact .dropped hc hl
  · exact .untracked hc

section Failed

variable {s s' : Supplier} {x : Failure}

theorem Submitted.failed {b : Batch} (h : Submitted s b (.failed x) s') :
    ∃ line, s' = { s with line } := by
  cases h with
  | unfinished => exact ⟨s.line, rfl⟩
  | invalid => exact ⟨s.line, rfl⟩
  | declined => exact ⟨_, rfl⟩

theorem Inquired.failed (h : Inquired s (.failed x) s') : ∃ line, s' = { s with line } := by
  cases h with
  | untracked => exact ⟨s.line, rfl⟩
  | unreadable => exact ⟨_, rfl⟩

theorem reported_isNotAllowed {y : Response} (h : reported y = .error x) :
    x.isNotAllowed = false := by
  unfold reported at h
  cases hc : y.content (Wire.Envelope.decode Wire.RestockRecord.decode) with
  | ok envelope =>
    rw [hc] at h
    cases h
  | error z =>
    rw [hc] at h
    cases h
    exact Response.content_isNotAllowed hc

/-- Asking is turned down only when there is nothing to ask for. -/
theorem Inquired.untracked_of_fatal (h : Inquired s (.failed x) s') (hx : x.isNotAllowed = true) :
    s.current = none := by
  cases h with
  | untracked hc => exact hc
  | unreadable _ _ hy =>
    rw [reported_isNotAllowed hy] at hx
    cases hx

end Failed

/-- What is followed is followed after a poll. -/
theorem Inquired.tracked {s s' : Supplier} {e : Ended RestockStatus} (h : Inquired s e s')
    (hs : s.current.isSome) : s'.current.isSome := by
  cases h with
  | noted => rfl
  | _ => exact hs

theorem Inquired.of_untracked {s s' : Supplier} {e : Ended RestockStatus}
    (h : Inquired s e s') (hs : s.current = none) : s' = s := by
  cases h with
  | untracked => rfl
  | dropped hc => simp [hs] at hc
  | unreadable hc => simp [hs] at hc
  | nothing hc => simp [hs] at hc
  | noted hc => simp [hs] at hc

theorem waitForCompletion_cases {s s' : Supplier} {e : Ended (WatchEnd RestockOutcome)}
    (h : waitForCompletion.run s = (e, s')) :
    (∃ o, s.current.bind Restock.outcome? = some o ∧ e = .done (.settled o) ∧ s' = s) ∨
    (s.current.bind Restock.outcome? = none ∧ ∃ polls, watch.Rounds s.settings.pollInterval
      (max s.settings.maxPollAttempts.toNat 1) 0 s polls e s') := by
  unfold waitForCompletion at h
  rw [Call.run_view_bind] at h
  exact Watch.run_cases h

/-- Each poll of a watch asks once for the delivery. -/
theorem asked_cases {p : Polling.Asked Supplier} (h : watch.Asks p) :
    Inquired p.before (poll.run p.before).1 p.after := by
  obtain ⟨ended, hr, _⟩ := Call.forget_ended h.ran
  rw [hr]
  exact poll_cases hr

/-- Waiting fails only when nothing is followed, and changes the line at most then. -/
theorem waitForCompletion_failed {s s' : Supplier} {x : Failure}
    (h : waitForCompletion.run s = (.failed x, s')) :
    s.current = none ∧ ∃ line, s' = { s with line } := by
  rcases waitForCompletion_cases h with ⟨o, _, he, _⟩ | ⟨_, polls, hr⟩
  · cases he
  obtain ⟨p, hp, hended, hfatal⟩ := (hr.failed_iff x).mp rfl
  have hrun := (hr.asks p (List.mem_of_getLast? hp)).ran
  rw [hended] at hrun
  have hpoll : Inquired p.before (.failed x) p.after := poll_cases (Call.forget_failed hrun)
  have hnone : s.current = none := by
    rw [← Option.not_isSome_iff_eq_none]
    intro hs
    obtain ⟨hbefore, _⟩ := hr.invariant (P := fun t => t.current.isSome) (fun _ _ ht => ht)
      (fun q hq hb _ => (asked_cases hq).tracked hb) hs
    have hb := hbefore p (List.mem_of_getLast? hp)
    rw [hpoll.untracked_of_fatal hfatal] at hb
    cases hb
  obtain ⟨_, hend⟩ := hr.invariant (P := fun t => ∃ line, t = { s with line })
    (fun l t ht => by
      obtain ⟨line, rfl⟩ := ht
      exact ⟨l, rfl⟩)
    (fun q hq hb _ => by
      obtain ⟨line, hl⟩ := hb
      have hsame := (asked_cases hq).of_untracked (hl ▸ hnone)
      exact ⟨line, hsame.trans hl⟩) ⟨s.line, rfl⟩
  exact ⟨hnone, hend (by simp)⟩

end Supplier

end Larder
