import Larder.Proofs.AlikeAccounts

namespace Larder

open Call (Relates)
open Polling (WatchEnd Watch)

namespace Polling.Watch

variable {σ ω : Type} {S : σ → σ → Prop} {w : Watch σ ω}

/-- What is watched cannot be told apart in related states: not by its polls, not by its outcome,
and not by its line, which the states have as a part. -/
structure IsBlind (w : Watch σ ω) (S : σ → σ → Prop) : Prop where
  poll : Relates S Eq w.poll w.poll
  outcome : ∀ s t, S s t → w.outcome? s = w.outcome? t
  line : ∀ s t, S s t → (w.line s).Alike (w.line t)
  withLine : ∀ s t l m, S s t → l.Alike m → S (w.withLine l s) (w.withLine m t)

theorem IsBlind.ask_relates (h : w.IsBlind S) : Relates S Eq w.ask w.ask := by
  refine h.poll.attempt.bind fun a b hab => ?_
  cases hab with
  | ok => exact .view h.outcome
  | error x => exact .ite (.fail x) (.pure rfl)

theorem IsBlind.pause_relates (h : w.IsBlind S) (interval : Nat) :
    Relates S Eq (w.pause interval) (w.pause interval) :=
  (Relates.wait fun _ _ hl => hl.sleep interval).within h.line h.withLine

theorem IsBlind.rounds_relates (h : w.IsBlind S) (interval left made : Nat) :
    Relates S Eq (w.rounds interval left made) (w.rounds interval left made) := by
  -- By induction on the polls that are left: each round leaves related states to the next one.
  induction left generalizing made with
  | zero => exact .pure rfl
  | succ left ih =>
    refine (Relates.view fun s t hst => (h.line s t hst).isCancelled).bind ?_
    rintro cancelled _ rfl
    refine .ite (.pure rfl) (h.ask_relates.bind ?_)
    rintro outcome _ rfl
    cases outcome with
    | some o => exact .pure rfl
    | none =>
      refine .ite (.pure rfl) ((h.pause_relates interval).bind ?_)
      rintro waited _ rfl
      exact .ite (ih (made + 1)) (.pure rfl)

theorem IsBlind.run_relates (h : w.IsBlind S) (schedule : Schedule) :
    Relates S Eq (w.run schedule) (w.run schedule) := by
  refine (Relates.view h.outcome).bind ?_
  rintro outcome _ rfl
  cases outcome with
  | some o => exact .pure rfl
  | none => exact h.rounds_relates _ _ _

end Polling.Watch

namespace Fridge

/-- Two fridges that nothing but access tokens tells apart. -/
structure Alike (f g : Fridge) : Prop where
  settings : f.settings = g.settings
  account : f.account.Alike g.account
  order : f.order = g.order

section Relates

variable {α β : Type} {R : α → β → Prop}

theorem Alike.with_account {f g : Fridge} {a b : Account} (h : f.Alike g) (hab : a.Alike b) :
    Alike { f with account := a } { g with account := b } :=
  ⟨h.settings, hab, h.order⟩

theorem Alike.with_line {f g : Fridge} {l m : Line} (h : f.Alike g) (hl : l.Alike m) :
    Alike (f.withLine l) (g.withLine m) :=
  h.with_account (h.account.with_line hl)

theorem onAccount_relates {c : Call Account α} {d : Call Account β}
    (h : Relates Account.Alike R c d) : Relates Alike R (onAccount c) (onAccount d) :=
  h.within (fun _ _ h => h.account) fun _ _ _ _ h hab => h.with_account hab

theorem setOrder_relates (o : Order) : Relates Alike Eq (setOrder o) (setOrder o) :=
  .modify fun _ _ h => ⟨h.settings, h.account, rfl⟩

theorem advance_relates {step step' : Order.Step α} (h : ∀ o, step o = step' o) :
    Relates Alike Eq (advance step) (advance step') := by
  refine (Relates.view fun _ _ h => h.order).bind ?_
  rintro o _ rfl
  rw [h o]
  exact (setOrder_relates _).bind fun _ _ _ => Relates.ofExcept (.of_eq rfl)

/-- An errand asks at a protected path only, and makes the same of alike responses. -/
structure Errand.IsBlind (r : Errand α) : Prop where
  path : ∀ {o q}, r.request o = .ok q → q.path ∈ protectedPaths
  settle : ∀ {x y}, Response.Alike x y → ∀ o, r.settle x o = r.settle y o

theorem Errand.IsBlind.relates {r : Errand α} (h : r.IsBlind) :
    Relates Alike Eq r.call r.call := by
  refine (Relates.view fun _ _ h => h.order).bind ?_
  rintro o _ rfl
  cases hq : r.request o with
  | error x => exact .fail x
  | ok q =>
    refine (onAccount_relates (Account.authorizedCall_relates (h.path hq))).bind fun x y hxy => ?_
    exact advance_relates (h.settle hxy)

theorem lastRecord_eq {x y : Response} (h : x.Alike y) : lastRecord x = lastRecord y := by
  unfold lastRecord Response.isNotFound
  rw [h.status, h.content_eq (Wire.envelope_blind _)]

theorem previewErrand_blind (cart : List Wire.OrderLine) : (previewErrand cart).IsBlind where
  path h := ((previewErrand_heeds cart).calls h).path
  settle h o := by simp only [previewErrand, h.content_eq Wire.preview_blind]

theorem reservedErrand_settle {path wording : String} {step : Order.Step α}
    {hs : step.Restores} {x y : Response} (h : x.Alike y) (o : Order) :
    (reservedErrand path wording step hs).settle x o =
      (reservedErrand path wording step hs).settle y o := by
  have hsuccess := h.success
  dsimp only [reservedErrand]
  cases hx : x.success <;> cases hy : y.success <;> rw [hx, hy] at hsuccess <;> cases hsuccess
  all_goals rfl

theorem confirmErrand_blind : confirmErrand.IsBlind :=
  ⟨fun h => (confirmErrand_heeds.calls h).path, reservedErrand_settle⟩

theorem cancelErrand_blind : cancelErrand.IsBlind :=
  ⟨fun h => (cancelErrand_heeds.calls h).path, reservedErrand_settle⟩

theorem pollErrand_blind : pollErrand.IsBlind where
  path h := (pollErrand_heeds.calls h).path
  settle h o := by simp only [pollErrand, lastRecord_eq h]

theorem historyErrand_blind : historyErrand.IsBlind where
  path h := (historyErrand_heeds.calls h).path
  settle h o := by simp only [historyErrand, query, h.content_eq (Wire.envelope_blind _)]

theorem lastOrderErrand_blind : lastOrderErrand.IsBlind where
  path h := (lastOrderErrand_heeds.calls h).path
  settle h o := by simp only [lastOrderErrand, query, lastRecord_eq h]

theorem watch_blind : watch.IsBlind Alike where
  poll := by
    change Relates Alike Eq poll.forget poll.forget
    rw [poll_eq]
    exact pollErrand_blind.relates.bind fun _ _ _ => .pure rfl
  outcome _ _ h := congrArg Order.outcome? h.order
  line _ _ h := h.account.line
  withLine _ _ _ _ h hl := h.with_line hl

theorem login_relates (l : Wire.Login) : Relates Alike Eq (login l) (login l) :=
  (onAccount_relates (Account.login_relates l)).bind fun _ _ _ => setOrder_relates .idle

theorem logout_relates : Relates Alike Eq logout logout :=
  (setOrder_relates .idle).bind fun _ _ _ => onAccount_relates Account.logout_relates

theorem waitForCompletion_relates : Relates Alike Eq waitForCompletion waitForCompletion := by
  refine (Relates.view fun _ _ h => h.settings).bind ?_
  rintro settings _ rfl
  exact watch_blind.run_relates _

end Relates

/-- What an operation that is done tells the caller. -/
inductive Answer where
  | nothing
  | restored (isBack : Bool)
  | cancelled (orderId : String)
  | polled (status : OrderStatus)
  | watched (e : WatchEnd OrderOutcome)
  | acknowledged (outcome : OrderOutcome)
  | history (records : List Wire.OrderRecord)
  | lastOrder (record? : Option Wire.OrderRecord)

/-- An operation with what it tells the caller. -/
def Operation.answer : Operation → Call Fridge Answer
  | register r => (fun _ => .nothing) <$> Fridge.register r
  | login l => (fun _ => .nothing) <$> Fridge.login l
  | restore => .restored <$> Fridge.restore
  | logout => (fun _ => .nothing) <$> Fridge.logout
  | preview cart => (fun _ => .nothing) <$> Fridge.preview cart
  | confirm => (fun _ => .nothing) <$> Fridge.confirm
  | cancel => .cancelled <$> Fridge.cancel
  | poll => .polled <$> Fridge.poll
  | waitForCompletion => .watched <$> Fridge.waitForCompletion
  | acknowledge => .acknowledged <$> Fridge.acknowledge
  | history => .history <$> Fridge.history
  | lastOrder => .lastOrder <$> Fridge.lastOrder

/-- To forget what the caller is told gives the operation back. -/
theorem Operation.answer_forget (op : Operation) : op.answer.forget = op.call := by
  cases op <;> simp [Operation.answer, Operation.call, Call.forget]

theorem Operation.answer_relates (op : Operation) : Relates Alike Eq op.answer op.answer := by
  cases op with
  | register r => exact (onAccount_relates (Account.register_relates r)).map _
  | login l => exact (login_relates l).map _
  | restore => exact (onAccount_relates Account.restore_relates).map _
  | logout => exact logout_relates.map _
  | preview cart =>
    rw [Operation.answer, preview_eq]
    exact (previewErrand_blind cart).relates.map _
  | confirm =>
    rw [Operation.answer, confirm_eq]
    exact confirmErrand_blind.relates.map _
  | cancel =>
    rw [Operation.answer, cancel_eq]
    exact cancelErrand_blind.relates.map _
  | poll =>
    rw [Operation.answer, poll_eq]
    exact pollErrand_blind.relates.map _
  | waitForCompletion => exact waitForCompletion_relates.map _
  | acknowledge => exact (advance_relates fun _ => rfl).map _
  | history =>
    rw [Operation.answer, history_eq]
    exact historyErrand_blind.relates.map _
  | lastOrder =>
    rw [Operation.answer, lastOrder_eq]
    exact lastOrderErrand_blind.relates.map _

/-- What the caller is told of an event: how an operation has ended. -/
def Event.told (f : Fridge) : Event → Option (Ended Answer)
  | operate op => some (op.answer.run f).1
  | line _ => none
  | disk _ => none

/-- What an event comes to. -/
structure Outcome where
  told : Option (Ended Answer)
  fridge : Fridge

/-- What events come to, one after the other. -/
def outcomes (f : Fridge) : List Event → List Outcome
  | [] => []
  | event :: events => ⟨event.told f, event.after f⟩ :: outcomes (event.after f) events

/-- The same is done, over lines whose replies differ in access tokens only. -/
inductive Event.Alike : Event → Event → Prop where
  | operate (op : Operation) : Alike (.operate op) (.operate op)
  | line {l m : Line} (h : l.Alike m) : Alike (.line l) (.line m)
  | disk (d : Storage.Disk) : Alike (.disk d) (.disk d)

/-- All is the same but the access token in memory and the bearers of protected requests. -/
structure Outcome.Alike (p q : Outcome) : Prop where
  told : p.told = q.told
  order : p.fridge.order = q.fridge.order
  disk : p.fridge.account.disk = q.fridge.account.disk
  now : p.fridge.line.now = q.fridge.line.now
  session : Option.Rel Session.Alike p.fridge.account.session q.fridge.account.session
  diagnostics : p.fridge.account.session.map Session.diagnosticText =
    q.fridge.account.session.map Session.diagnosticText
  sent : List.Forall₂ Request.Alike p.fridge.line.sent q.fridge.line.sent

section Runs

variable {f g : Fridge} {event event' : Event}

/-- The same fridge over lines that access tokens alone tell apart. -/
theorem new_alike {settings : Settings} {vault : Storage.Vault} {disk : Storage.Disk} {l m : Line}
    (h : l.Alike m) : (new settings vault disk l).Alike (new settings vault disk m) :=
  ⟨rfl, ⟨h, rfl, rfl, rfl, .none⟩, rfl⟩

theorem Alike.outcome (h : f.Alike g) (o : Option (Ended Answer)) :
    Outcome.Alike ⟨o, f⟩ ⟨o, g⟩ where
  told := rfl
  order := h.order
  disk := h.account.disk
  now := h.account.line.now
  session := h.account.session
  diagnostics := h.account.session_eq fun _ _ hst => congrArg some hst.diagnosticText
  sent := h.account.line.sent

/-- An event tells the same of alike fridges, and leaves alike ones. -/
theorem Event.Alike.step (he : event.Alike event') (h : f.Alike g) :
    event.told f = event'.told g ∧ (event.after f).Alike (event'.after g) := by
  cases he with
  | operate op =>
    -- The answer adds nothing to the run, so the fridges after it are those after the call.
    obtain ⟨htold, _⟩ := op.answer_relates f g h
    obtain ⟨_, hafter⟩ := op.answer_relates.forget f g h
    rw [op.answer_forget] at hafter
    exact ⟨congrArg some htold.eq, hafter⟩
  | line hl => exact ⟨rfl, h.with_line hl⟩
  | disk d => exact ⟨rfl, h.with_account
      ⟨h.account.line, rfl, h.account.vault, h.account.refreshInterval, h.account.session⟩⟩

/-- Whatever is done with two fridges that only access tokens tell apart, over replies that differ
in access tokens only, each event comes to the same in both. -/
theorem tokens_unseen {events events' : List Event} (h : f.Alike g)
    (hs : List.Forall₂ Event.Alike events events') :
    List.Forall₂ Outcome.Alike (f.outcomes events) (g.outcomes events') := by
  induction hs generalizing f g with
  | nil => exact .nil
  | @cons event event' events events' he _ ih =>
    obtain ⟨htold, hafter⟩ := he.step h
    refine .cons ?_ (ih hafter)
    rw [htold]
    exact hafter.outcome _

end Runs

/-- A fridge that will be given one access token when it logs in and another one when that is turned
down. -/
def expected (first second : String) : Fridge :=
  new .default Account.stale.vault Account.stale.disk {
    replies := [
      ⟨⟨200, .object [("access_token", .text first), ("refresh_token", .text "q1")]⟩, 0, false⟩,
      ⟨⟨401, .object []⟩, 0, false⟩,
      ⟨⟨200, .object [("access_token", .text second)]⟩, 0, false⟩,
      ⟨⟨201, .object [("order_id", .text "o1")]⟩, 0, false⟩] }

theorem expected_alike {first second first' second' : String} (h : first ≠ "")
    (h' : first' ≠ "") (hs : second ≠ "") (hs' : second' ≠ "") :
    (expected first second).Alike (expected first' second') := by
  have hreply : ∀ {x y : Response}, x.Alike y → Reply.Alike ⟨x, 0, false⟩ ⟨y, 0, false⟩ :=
    fun hxy => ⟨hxy, rfl, rfl⟩
  refine new_alike ⟨rfl, Outlet.direct_isBlind, ?_, .nil⟩
  refine .cons (hreply ⟨rfl, .object (.cons (.token h h') (.cons (.same _) .nil))⟩) ?_
  refine .cons (hreply (.refl _)) ?_
  refine .cons (hreply ⟨rfl, .object (.cons (.token hs hs') .nil)⟩) ?_
  exact .cons (hreply (.refl _)) .nil

/-- Logging in and reserving an order. -/
def ordering : List Event :=
  [.operate (.login ⟨"pantry", "secret"⟩), .operate (.preview [⟨"MILK-1", 2⟩])]

/-- The tokens of the two runs have nothing in common, and the second request for the order carries
the second token of each. -/
theorem tokens_unseen_expected :
    (expected "p1" "p2").Alike (expected "s-1" "s-2") ∧
    List.Forall₂ Event.Alike ordering ordering ∧
    List.Forall₂ Outcome.Alike ((expected "p1" "p2").outcomes ordering)
      ((expected "s-1" "s-2").outcomes ordering) ∧
    ((expected "p1" "p2").outcomes ordering).getLast?.map (·.fridge.line.sent.map Request.bearer) =
      some [none, some "p1", some "q1", some "p2"] ∧
    ((expected "s-1" "s-2").outcomes ordering).getLast?.map
      (·.fridge.line.sent.map Request.bearer) =
      some [none, some "s-1", some "q1", some "s-2"] := by
  have halike : (expected "p1" "p2").Alike (expected "s-1" "s-2") :=
    expected_alike (by decide) (by decide) (by decide) (by decide)
  have hevents : List.Forall₂ Event.Alike ordering ordering :=
    .cons (.operate _) (.cons (.operate _) .nil)
  refine ⟨halike, hevents, tokens_unseen halike hevents, ?_, ?_⟩
  · decide +kernel
  · decide +kernel

end Fridge

end Larder
