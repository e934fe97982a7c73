import Larder.Proofs.SoundBodies
import Larder.Proofs.Waiting

namespace Larder

open Polling (Watch WatchEnd)

theorem bind_error_iff {ε α β : Type} {x : Except ε α} {f : α → Except ε β} {e : ε} :
    (x >>= f) = .error e ↔ x = .error e ∨ ∃ a, x = .ok a ∧ f a = .error e := by
  cases x <;> simp [bind, Except.bind]

theorem error_of_map {ε α β : Type} {x : Except ε α} {g : α → β} {e : ε}
    (h : x.map g = .error e) : x = .error e := by
  cases x <;> cases h
  rfl

/-- The client turns the operation down by itself. -/
def Failure.IsLocal : Failure → Prop
  | invalid _ | notAllowed _ => True
  | _ => False

theorem Failure.not_isLocal_of_unauthorized {x : Failure} (h : x.isUnauthorized = true) :
    ¬ x.IsLocal := by
  cases x with
  | unauthorized m => exact id
  | _ => cases h

namespace Response

variable {x : Response} {f : Failure}

theorem failure_not_isLocal (x : Response) : ¬ x.failure.IsLocal := by
  unfold failure
  split
  · exact id
  · split <;> exact id

theorem success_error {y : Failure} (h : x.success = .error y) : ¬ y.IsLocal := by
  unfold success at h
  split at h
  · cases h
  · cases h
    exact failure_not_isLocal x

theorem content_not_isLocal {α : Type} {d : Json.Decoder α} (h : x.content d = .error f) :
    ¬ f.IsLocal := by
  rcases content_error h with ⟨_, rfl⟩ | ⟨_, m, rfl⟩
  · exact failure_not_isLocal x
  · exact id

end Response

namespace Call

variable {σ α β : Type} {D : α → Prop} {c : Call σ α}

/-- The client does not turn the call down, and the result is one of `D`. -/
def Admits (D : α → Prop) (c : Call σ α) : Prop :=
  ∀ s e s', c.run s = (e, s') → (∀ a, e = .done a → D a) ∧ ∀ x, e = .failed x → ¬ x.IsLocal

theorem Admits.pure {a : α} (ha : D a) : Admits D (Pure.pure a : Call σ α) := by
  intro s e s' h
  cases h
  exact ⟨fun b hb => by cases hb; exact ha, by simp⟩

theorem Admits.fail {x : Failure} (hx : ¬ x.IsLocal) : Admits D (Call.fail x : Call σ α) := by
  intro s e s' h
  cases h
  exact ⟨by simp, fun y hy => by cases hy; exact hx⟩

theorem Admits.modify (f : σ → σ) : Admits (fun _ => True) (Call.modify f) := by
  intro s e s' h
  cases h
  exact ⟨by simp, by simp⟩

theorem Admits.wait (f : σ → Option α × σ) : Admits (fun _ => True) (Call.wait f) := by
  intro s e s' h
  obtain ⟨_, _, ⟨a, _, rfl⟩ | ⟨_, rfl⟩⟩ := wait_cases h
  · exact ⟨by simp, by simp⟩
  · exact ⟨by simp, by simp⟩

theorem Admits.ofExcept {r : Except Failure α} (hr : ∀ x, r = .error x → ¬ x.IsLocal) :
    Admits (fun _ => True) (Call.ofExcept r : Call σ α) := by
  cases r with
  | ok a => exact .pure trivial
  | error x => exact .fail (hr x rfl)

theorem Admits.bind {E : β → Prop} {f : α → Call σ β} (hc : c.Admits D)
    (hf : ∀ a, D a → (f a).Admits E) : (c >>= f).Admits E := by
  intro s e s' h
  rcases bind_cases h with ⟨a, t, ha, he⟩ | ⟨x, hx, rfl⟩ | ⟨_, rfl⟩
  · exact hf a ((hc s _ t ha).1 a rfl) t e s' he
  · refine ⟨by simp, fun y hy => ?_⟩
    cases hy
    exact (hc s _ s' hx).2 x rfl
  · exact ⟨by simp, by simp⟩

theorem Admits.view_bind {g : σ → β} {f : β → Call σ α} (hf : ∀ b, (f b).Admits D) :
    (Call.view g >>= f).Admits D := by
  intro s e s' h
  rw [run_view_bind] at h
  exact hf (g s) s e s' h

/-- What the client turns down it turns down before anything has changed. -/
def ChecksFirst (c : Call σ α) : Prop :=
  ∀ s x s', c.run s = (.failed x, s') → x.IsLocal → s' = s

theorem Admits.checksFirst (h : c.Admits D) : c.ChecksFirst :=
  fun s x s' hc hx => absurd hx ((h s _ s' hc).2 x rfl)

/-- A check that comes first. -/
theorem ChecksFirst.check {r : Except Failure α} {f : α → Call σ β}
    (hf : ∀ a, r = .ok a → (f a).ChecksFirst) : (Call.ofExcept r >>= f).ChecksFirst := by
  intro s x s' h hx
  cases hr : r with
  | ok a =>
    rw [hr, ofExcept_ok_bind] at h
    exact hf a hr s x s' h hx
  | error y =>
    rw [hr] at h
    cases h
    rfl

theorem ChecksFirst.forget (hc : c.ChecksFirst) : c.forget.ChecksFirst := by
  intro s x s' h hx
  obtain ⟨ended, hr, ⟨_, _, he⟩ | ⟨y, rfl, he⟩ | ⟨_, he⟩⟩ := forget_cases h
  · cases he
  · cases he
    exact hc s x s' hr hx
  · cases he

end Call

/-- A watch whose first poll could not be mended by a later one is over with it. -/
theorem Polling.Watch.Rounds.refused {σ ω : Type} {w : Watch σ ω} {interval left made : Nat}
    {s s' : σ} {polls : List (Asked σ)} {x : Failure}
    (h : w.Rounds interval left made s polls (.failed x) s')
    (hpoll : ∀ e t, w.poll.run s = (e, t) → t = s ∧ ∃ y, e = .failed y ∧ w.isFatal y = true) :
    s' = s := by
  cases h with
  | fatal hp => exact (hpoll _ _ hp.ran).1
  | again hp hb =>
    obtain ⟨_, y, he, hy⟩ := hpoll _ _ hp.ran
    exact absurd ⟨he, hy⟩ (hb.not_fatal y)

namespace Account

theorem freshToken_not_isLocal {x : Response} {f : Failure}
    (h : freshToken x = .error (.unavailable f)) : ¬ f.IsLocal := by
  unfold freshToken at h
  split at h
  · cases h
  · cases hc : x.content Wire.FreshToken.decode with
    | error y =>
      rw [hc] at h
      cases h
      exact Response.content_not_isLocal hc
    | ok t =>
      rw [hc] at h
      dsimp only at h
      split at h
      · cases h
        exact id
      · cases h

theorem loginTokens_not_isLocal {x : Response} {f : Failure} (h : loginTokens x = .error f) :
    ¬ f.IsLocal := by
  simp only [loginTokens, bind_error_iff] at h
  obtain hc | ⟨t, _, h⟩ := h
  · exact Response.content_not_isLocal hc
  · split at h
    · cases h
      exact id
    · cases h

/-- Where an access token could not be got, the client has not turned anything down. -/
def RefreshResult.IsRemote (r : RefreshResult) : Prop := ∀ f, r = .unavailable f → ¬ f.IsLocal

theorem renew_admits : renew.Admits RefreshResult.IsRemote := by
  unfold renew
  refine .view_bind fun token? => ?_
  cases token? with
  | none => exact .pure (by simp [RefreshResult.IsRemote])
  | some token =>
    refine .bind (.wait _) fun response _ => ?_
    cases hf : freshToken response with
    | error result =>
      refine .pure fun f hr => ?_
      rw [hr] at hf
      exact freshToken_not_isLocal hf
    | ok access => exact .bind (.modify _) fun _ _ => .pure (by simp [RefreshResult.IsRemote])

theorem renewIfDue_admits :
    renewIfDue.Admits fun p => ∀ result, p = some result → result.IsRemote := by
  unfold renewIfDue
  refine .view_bind fun due => ?_
  cases due with
  | false => exact .pure (by simp)
  | true =>
    refine .bind renew_admits fun result hr => .pure ?_
    intro r he
    cases he
    exact hr

theorem expire_admits {α : Type} {D : α → Prop} : (expire : Call Account α).Admits D :=
  .bind (.modify _) fun _ _ => .fail id

theorem token_admits {p : Option RefreshResult} (hp : ∀ result, p = some result → result.IsRemote) :
    (token p).Admits fun _ => True := by
  unfold token
  refine .view_bind fun token? => ?_
  split
  · exact .pure trivial
  · exact .fail (hp _ rfl _ rfl)
  · exact expire_admits
  · exact .fail id

theorem retry_admits (r : Request) (refused : Response) :
    (retry r refused).Admits fun _ => True := by
  unfold retry
  refine .bind renew_admits fun result hr => ?_
  cases result with
  | rejected m => exact expire_admits
  | unavailable f => exact .fail (hr f rfl)
  | noRefreshToken => exact .fail (Response.failure_not_isLocal refused)
  | refreshed =>
    refine .view_bind fun token? => ?_
    cases token? with
    | none => exact .fail id
    | some token =>
      refine .bind (.wait _) fun response _ => ?_
      split
      · exact .fail (Response.failure_not_isLocal response)
      · exact .pure trivial

theorem authorizedCall_admits (r : Request) : (authorizedCall r).Admits fun _ => True := by
  unfold authorizedCall
  refine .view_bind fun session => ?_
  split
  · exact .fail id
  · refine .bind renewIfDue_admits fun p hp => ?_
    refine .bind (token_admits hp) fun token _ => ?_
    refine .bind (.wait _) fun response _ => ?_
    split
    · exact retry_admits r response
    · exact .pure trivial

theorem restore_admits : restore.Admits fun _ => True := by
  unfold restore
  refine .view_bind fun credential? => ?_
  cases credential? with
  | none => exact .pure trivial
  | some c =>
    refine .bind (.modify _) fun _ _ => .bind renew_admits fun result hr => ?_
    cases result with
    | refreshed => exact .pure trivial
    | unavailable f => exact .bind (.modify _) fun _ _ => .fail (hr f rfl)
    | rejected m => exact .bind (.modify _) fun _ _ => .pure trivial
    | noRefreshToken => exact .bind (.modify _) fun _ _ => .pure trivial

theorem logout_admits : logout.Admits fun _ => True := by
  unfold logout
  refine .bind (.modify _) fun _ _ => ?_
  refine .view_bind fun disk => ?_
  cases disk with
  | ok disk => exact .modify _
  | error e => exact .fail id

theorem register_checksFirst (r : Wire.Registration) : (register r).ChecksFirst := by
  refine .check fun _ _ => Call.Admits.checksFirst (D := fun _ => True) ?_
  refine .bind (.wait _) fun response _ => ?_
  exact .bind (.ofExcept fun _ => Response.success_error) fun _ _ => .pure trivial

theorem login_checksFirst (l : Wire.Login) : (login l).ChecksFirst := by
  refine .check fun _ _ => Call.Admits.checksFirst (D := fun _ => True) ?_
  refine .bind (.wait _) fun response _ => ?_
  exact .bind (.ofExcept fun _ => loginTokens_not_isLocal) fun _ _ => .modify _

end Account

namespace Fridge

variable {α : Type}

theorem onAccount_checksFirst {c : Call Account α} (hc : c.ChecksFirst) :
    (onAccount c).ChecksFirst := by
  intro f x f' h hx
  obtain ⟨account, ha, rfl⟩ := onAccount_cases h
  rw [hc f.account x account ha hx]

/-- An errand that the order does not call for is refused at once. -/
theorem Errand.checksFirst {r : Errand α} (hs : ∀ {o o' q y x}, r.request o = .ok q →
    r.settle y o = (.error x, o') → ¬ x.IsLocal) : r.call.ChecksFirst := by
  intro f x f' h hx
  cases Errand.call_cases h with
  | refused => rfl
  | failed _ hc => exact absurd hx ((Account.authorizedCall_admits _ _ _ _ hc).2 x rfl)
  | unsettled hr _ hs' => exact absurd hx (hs hr hs')

theorem reserve_error {orderId : String} {items : Wire.Quantities} {x : Failure} {o : Order}
    (h : Order.reserve orderId items .idle = (.error x, o)) : ¬ x.IsLocal := by
  unfold Order.reserve at h
  split at h
  · rename_i hc
    cases hc
  · split at h
    · cases h
      exact id
    · cases h

theorem preview_checksFirst (cart : List Wire.OrderLine) : (preview cart).ChecksFirst := by
  rw [preview_eq]
  apply Errand.checksFirst
  intro o o' q y x hq hs
  simp only [previewErrand, bind_ok] at hq
  obtain ⟨_, ho, lines, hlines, _⟩ := hq
  cases Order.checkCanPreview_ok ho
  rcases Order.Step.given_error hs with he | ⟨_, _, hs⟩
  · cases hlines.symm.trans he
  · rcases Order.Step.given_error hs with hc | ⟨_, _, hr⟩
    · exact Response.content_not_isLocal hc
    · exact reserve_error hr

/-- A step that a reserved order always allows is not turned down after the request. -/
theorem reservedErrand_checksFirst {path wording : String} {step : Order.Step α}
    {hrestores : step.Restores} (hstep : ∀ t x o, step (.reserved t) ≠ (.error x, o)) :
    (reservedErrand path wording step hrestores).call.ChecksFirst := by
  apply Errand.checksFirst
  intro o o' q y x hq hs
  simp only [reservedErrand, bind_ok] at hq
  obtain ⟨_, hid, _⟩ := hq
  obtain ⟨t, rfl, _⟩ := reservedId_ok hid
  rcases Order.Step.given_error hs with hy | ⟨_, _, ho⟩
  · exact Response.success_error hy
  · exact absurd ho (hstep t x o')

theorem lastRecord_not_isLocal {y : Response} {x : Failure} (h : lastRecord y = .error x) :
    ¬ x.IsLocal := by
  unfold lastRecord at h
  split at h
  · cases h
  · exact Response.content_not_isLocal (error_of_map h)

theorem poll_checksFirst : poll.ChecksFirst := by
  rw [poll_eq]
  apply Errand.checksFirst
  intro o o' q y x hq hs
  simp only [pollErrand, bind_ok] at hq
  obtain ⟨_, ho, _⟩ := hq
  rcases Order.Step.given_error hs with hl | ⟨record, _, happly⟩
  · exact lastRecord_not_isLocal hl
  · obtain ⟨after, hok⟩ := Order.applyPoll_of_awaiting record (checkCanPoll_ok ho)
    cases hok.symm.trans happly

theorem query_checksFirst {path : String} {read : Response → Except Failure α}
    (hread : ∀ y x, read y = .error x → ¬ x.IsLocal) : (query path read).call.ChecksFirst := by
  apply Errand.checksFirst
  intro o o' q y x _ hs
  exact hread y x (Prod.mk.inj hs).1

theorem historyErrand_checksFirst : historyErrand.call.ChecksFirst := by
  apply query_checksFirst
  intro y x h
  rcases bind_error_iff.mp h with hc | ⟨_, _, hp⟩
  · exact Response.content_not_isLocal hc
  · cases hp

theorem lastOrderErrand_checksFirst : lastOrderErrand.call.ChecksFirst :=
  query_checksFirst fun _ _ h => lastRecord_not_isLocal h

theorem login_checksFirst (l : Wire.Login) : (login l).ChecksFirst := by
  intro f x f' h hx
  rcases Call.bind_cases h with ⟨_, _, _, hidle⟩ | ⟨_, ha, he⟩ | ⟨_, he⟩
  · cases hidle
  · cases he
    exact onAccount_checksFirst (Account.login_checksFirst l) f x f' ha hx
  · cases he

theorem logout_checksFirst : logout.ChecksFirst := by
  intro f x f' h hx
  unfold logout setOrder at h
  rw [Call.run_modify_bind] at h
  obtain ⟨account, ha, _⟩ := onAccount_cases h
  exact absurd hx ((Account.logout_admits _ _ _ ha).2 x rfl)

theorem advance_checksFirst {step : Order.Step α} (hs : step.Restores) :
    (advance step).ChecksFirst := by
  intro f x f' h hx
  rcases advance_cases hs h with ⟨_, _, _, he, _⟩ | ⟨_, _, _, rfl⟩
  · cases he
  · rfl

/-- A poll of an order that does not await its result is over at once, and so is waiting for it. -/
theorem poll_refused {f f' : Fridge} {e : Ended Unit} (hf : f.order.isAwaiting = false)
    (h : poll.forget.run f = (e, f')) :
    f' = f ∧ ∃ x, e = .failed x ∧ watch.isFatal x = true := by
  obtain ⟨ended, hrun, rfl⟩ := Call.forget_ended h
  rw [poll_eq] at hrun
  have hcheck : checkCanPoll f.order =
      .error (.notAllowed ("Nothing to poll: order is " ++ f.order.stateName)) := by
    simp [checkCanPoll, hf]
  have hrequest : ∀ q, pollErrand.request f.order ≠ .ok q := by
    intro q hq
    simp only [pollErrand, bind_ok, hcheck] at hq
    obtain ⟨_, he, _⟩ := hq
    cases he
  cases Errand.call_cases hrun with
  | refused hr =>
    simp only [pollErrand, bind_error_iff, hcheck] at hr
    rcases hr with he | ⟨_, he, _⟩
    · cases he
      exact ⟨rfl, _, rfl, rfl⟩
    · cases he
  | failed hq => exact absurd hq (hrequest _)
  | dropped hq => exact absurd hq (hrequest _)
  | unsettled hq => exact absurd hq (hrequest _)
  | settled hq => exact absurd hq (hrequest _)

theorem waitForCompletion_checksFirst : waitForCompletion.ChecksFirst := by
  intro f x f' h hx
  cases hf : f.order.isAwaiting with
  | true =>
    obtain ⟨_, polls, hw⟩ := waitForCompletion_waited hf h
    obtain ⟨_, _, _, hu⟩ := (hw.failed x).mp rfl
    exact absurd hx (Failure.not_isLocal_of_unauthorized hu)
  | false =>
    rcases waitForCompletion_cases h with ⟨_, _, he, _⟩ | ⟨_, polls, hrounds⟩
    · cases he
    · exact hrounds.refused fun e g hp => poll_refused hf hp

theorem Operation.checksFirst (op : Operation) : op.call.ChecksFirst := by
  cases op with
  | register r => exact onAccount_checksFirst (Account.register_checksFirst r)
  | login l => exact login_checksFirst l
  | restore => exact (onAccount_checksFirst Account.restore_admits.checksFirst).forget
  | logout => exact logout_checksFirst
  | preview cart => exact preview_checksFirst cart
  | confirm =>
    rw [Operation.call, confirm_eq]
    exact reservedErrand_checksFirst (by simp [Order.confirm])
  | cancel =>
    apply Call.ChecksFirst.forget
    rw [cancel_eq]
    exact reservedErrand_checksFirst (by simp [Order.release])
  | poll => exact poll_checksFirst.forget
  | waitForCompletion => exact waitForCompletion_checksFirst.forget
  | acknowledge => exact (advance_checksFirst Order.acknowledge_restores).forget
  | history =>
    apply Call.ChecksFirst.forget
    rw [history_eq]
    exact historyErrand_checksFirst
  | lastOrder =>
    apply Call.ChecksFirst.forget
    rw [lastOrder_eq]
    exact lastOrderErrand_checksFirst

end Fridge

namespace Supplier

theorem acceptedId_not_isLocal {y : Response} {x : Failure} (h : acceptedId y = .error x) :
    ¬ x.IsLocal := by
  simp only [acceptedId, bind_error_iff] at h
  obtain hc | ⟨_, _, h⟩ := h
  · exact Response.content_not_isLocal hc
  · split at h
    · cases h
      exact id
    · cases h

theorem register_checksFirst (t : Truck) : (register t).ChecksFirst := by
  refine .check fun _ _ => Call.Admits.checksFirst (D := fun _ => True) ?_
  refine .bind (.wait _) fun response _ => ?_
  exact .bind (.ofExcept fun _ => Response.success_error) fun _ _ => .pure trivial

theorem submit_checksFirst (b : Batch) : (submit b).ChecksFirst := by
  intro s x s' h hx
  cases submit_cases h with
  | unfinished => rfl
  | invalid => rfl
  | declined _ _ _ hy => exact absurd hx (acceptedId_not_isLocal hy)

theorem poll_checksFirst : poll.ChecksFirst := by
  intro s x s' h hx
  cases poll_cases h with
  | untracked => rfl
  | unreadable _ _ hy => exact absurd hx (Response.content_not_isLocal (error_of_map hy))

theorem waitForCompletion_checksFirst : waitForCompletion.ChecksFirst := by
  intro s x s' h _
  obtain ⟨hnone, _⟩ := waitForCompletion_failed h
  rcases waitForCompletion_cases h with ⟨_, _, he, _⟩ | ⟨_, polls, hrounds⟩
  · cases he
  · refine hrounds.refused fun e t hp => ?_
    obtain ⟨ended, hr, rfl⟩ := Call.forget_ended hp
    cases poll_cases hr with
    | untracked => exact ⟨rfl, _, rfl, rfl⟩
    | dropped hc => simp [hnone] at hc
    | unreadable hc => simp [hnone] at hc
    | nothing hc => simp [hnone] at hc
    | noted hc => simp [hnone] at hc

theorem Operation.checksFirst (op : Operation) : op.call.ChecksFirst := by
  cases op with
  | register t => exact register_checksFirst t
  | submit b => exact (submit_checksFirst b).forget
  | poll => exact poll_checksFirst.forget
  | waitForCompletion => exact waitForCompletion_checksFirst.forget
  | clear =>
    intro s x s' h
    cases h

end Supplier

namespace Fridge

/-- The fridges that a new one can become. The account can be used by itself, too. -/
inductive Reached : Fridge → Prop where
  | new (settings : Settings) (vault : Storage.Vault) (disk : Storage.Disk) (line : Line) :
      Reached (new settings vault disk line)
  | event {f : Fridge} (event : Event) (h : Reached f) : Reached (event.after f)
  | account {f : Fridge} (o : Account.Operation) (h : Reached f) :
      Reached { f with account := o.after f.account }

theorem Reached.proper {f : Fridge} (h : f.Reached) : f.order.Proper := by
  induction h with
  | new => exact Order.proper_idle
  | event event _ ih =>
    obtain ⟨_, _, _, hp⟩ := event_proper event ih
    exact hp
  | account _ _ ih => exact ih

/-- What the client turns down leaves everything as it was, the record of requests included, and
all that is sent is sound. -/
structure Operation.Careful (op : Operation) (f : Fridge) : Prop where
  refused : ∀ x f', op.call.run f = (.failed x, f') → x.IsLocal → f' = f
  posts : ∀ e f', op.call.run f = (e, f') → f.line.Posts f'.line

end Fridge

/-- The same of an operation of a supplier. -/
structure Supplier.Operation.Careful (op : Operation) (s : Supplier) : Prop where
  refused : ∀ x s', op.call.run s = (.failed x, s') → x.IsLocal → s' = s
  posts : ∀ e s', op.call.run s = (e, s') → s.line.Posts s'.line

/-- Every operation of a fridge is careful, whatever has been done before, and so is every operation
of a supplier. -/
theorem operations_careful :
    (∀ f : Fridge, f.Reached → ∀ op : Fridge.Operation, op.Careful f) ∧
    ∀ (s : Supplier) (op : Supplier.Operation), op.Careful s := by
  constructor
  · intro f hf op
    exact ⟨op.checksFirst f, fun _ _ => op.posts hf.proper⟩
  · intro s op
    exact ⟨op.checksFirst s, fun _ _ => op.posts⟩

namespace Fridge

theorem patient_reached : patient.Reached :=
  .event (.operate .confirm) (.event (.operate (.preview [⟨"MILK-1", 2⟩]))
    (.event (.operate (.login ⟨"f1", "p"⟩)) (.new _ _ _ _)))

/-- A confirmed order can be given up no more, and the client knows that by itself. -/
theorem operations_careful_patient : patient.Reached ∧
    (Operation.cancel.call.run patient).1 =
      .failed (.notAllowed "Only a reserved order can be cancelled: order is CONFIRMING") ∧
    (Operation.cancel.call.run patient).2 = patient := by
  have hfailed : (Operation.cancel.call.run patient).1 =
      .failed (.notAllowed "Only a reserved order can be cancelled: order is CONFIRMING") := by
    decide +kernel
  have hcareful := operations_careful.1 patient patient_reached .cancel
  exact ⟨patient_reached, hfailed, hcareful.refused _ _ (Prod.ext hfailed rfl) trivial⟩

end Fridge

end Larder
