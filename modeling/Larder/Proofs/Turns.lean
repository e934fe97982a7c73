import Larder.Proofs.OrderAnswers
import Larder.Proofs.ProperOrders
import Larder.Proofs.RepeatedRequests

namespace Larder

namespace Fridge

/-- The request that an operation makes with an access token, if the order allows it. -/
inductive Calls : Operation → Order → Request → Prop where
  | preview {cart lines : List Wire.OrderLine} (h : Cart.prepare cart = .ok lines) :
      Calls (.preview cart) .idle
        ((Request.post previewPath).withBody (Wire.PreviewRequest.mk lines).toJson)
  | confirm (t : Ticket) : Calls .confirm (.reserved t)
      ((Request.post confirmPath).withBody (Wire.OrderRef.mk t.orderId).toJson)
  | cancel (t : Ticket) : Calls .cancel (.reserved t)
      ((Request.post cancelPath).withBody (Wire.OrderRef.mk t.orderId).toJson)
  | poll {o : Order} (h : o.isAwaiting = true) : Calls .poll o (.get lastOrderPath)
  | lastOrder (o : Order) : Calls .lastOrder o (.get lastOrderPath)
  | history (o : Order) : Calls .history o (.get historyPath)

/-- Where the requests go that are made with an access token. -/
def protectedPaths : List String :=
  [previewPath, confirmPath, cancelPath, historyPath, lastOrderPath]

theorem protectedPaths_ne : ∀ p ∈ protectedPaths,
    p ≠ Account.registerPath ∧ p ≠ Account.loginPath ∧ p ≠ Account.refreshPath := by
  decide

theorem Calls.path {op : Operation} {o : Order} {r : Request} (h : Calls op o r) :
    r.path ∈ protectedPaths := by
  cases h <;> simp [protectedPaths, Request.withBody, Request.post, Request.get]

/-- What is sent to one of these paths carries the access token. -/
theorem sends_protected {P : Request → Prop} {a : Account} {r : Request}
    (h : Account.Sends P a r) (hp : r.path ∈ protectedPaths) :
    ∃ q token, P q ∧ a.accessToken? = some token ∧ r = q.withBearer token := by
  have hne := protectedPaths_ne _ hp
  cases h with
  | registration r => exact absurd rfl hne.1
  | login l => exact absurd rfl hne.2.1
  | renewal ht => exact absurd rfl hne.2.2
  | request hr ht => exact ⟨_, _, hr, ht, rfl⟩

/-- The device that an operation gets a session for, if it gets one. -/
inductive SignsIn (f : Fridge) : Operation → String → Prop where
  | login (l : Wire.Login) : SignsIn f (.login l) l.deviceId
  | restore {c : Storage.Credential} (h : f.account.vault.load f.account.disk = some c) :
      SignsIn f .restore c.deviceId

/-- The request would settle what becomes of a reservation. -/
def IsDecision (r : Request) : Prop := r.path = confirmPath ∨ r.path = cancelPath

/-- The request would take the order a step further. -/
def IsStep (r : Request) : Prop := r.path = previewPath ∨ IsDecision r

/-- A request for a step goes out twice at most, the second time after it was answered 401 and a
new access token was got. -/
inductive Sparing : List Exchange → Prop where
  | never {xs : List Exchange} (h : ∀ x ∈ xs, ¬ IsStep x.request) : Sparing xs
  | once {xs ys : List Exchange} {x : Exchange} (h : ∀ y ∈ xs ++ ys, ¬ IsStep y.request) :
      Sparing (xs ++ x :: ys)
  | twice {xs ys zs : List Exchange} {x y : Exchange} {r : Request} {token token' : String}
      (h : ∀ z ∈ xs ++ ys ++ zs, ¬ IsStep z.request)
      (hx : Exchange.Brings (some x) (·.status = 401))
      (hm : ∃ z ∈ ys, z.request.path = Account.refreshPath ∧
        ∃ fresh, Exchange.Brings (some z) (·.Mints fresh))
      (first : x.request = r.withBearer token) (again : y.request = r.withBearer token') :
      Sparing (xs ++ x :: ys ++ y :: zs)

theorem IsStep.path {r : Request} (h : IsStep r) : r.path ∈ protectedPaths := by
  rcases h with hp | hp | hp <;> rw [hp] <;> decide

theorem not_isDecision_of_path {r : Request} (h : r.path = previewPath ∨
    r.path = lastOrderPath ∨ r.path = historyPath) : ¬ IsDecision r := by
  rcases h with h | h | h
  all_goals rintro (hp | hp) <;> rw [h] at hp <;> exact absurd hp (by decide)

/-- Renewing an access token is no step of an order. -/
theorem not_isStep_of_renewal {r : Request} (h : r.path = Account.refreshPath) : ¬ IsStep r :=
  fun hs => (protectedPaths_ne _ hs.path).2.2 h

/-- The caller's own request is in its places, and the renewals are in theirs. -/
theorem sparing_of_repeats {t : CallTrace} {r : Request} (h : t.Repeats r) :
    Sparing t.exchanges := by
  obtain ⟨lead, first, second, retry⟩ := t
  have hrenewal : ∀ x ∈ lead.toList ++ second.toList, ¬ IsStep x.request := by
    intro x hx
    apply not_isStep_of_renewal
    rcases List.mem_append.mp hx with hx | hx
    · exact h.renewals x (Or.inl (by simpa using hx))
    · exact h.renewals x (Or.inr (by simpa using hx))
  simp only [CallTrace.exchanges_eq]
  cases first with
  | none =>
    have hretry : retry = none := by
      simpa using fun hn => h.turnedDown hn
    subst hretry
    exact .never (by simpa using hrenewal)
  | some x =>
    cases retry with
    | none =>
      have honce : Sparing (lead.toList ++ x :: second.toList) := .once hrenewal
      simpa using honce
    | some y =>
      obtain ⟨_, fresh, hm⟩ := h.retried rfl
      obtain ⟨z, hz⟩ := Option.isSome_iff_exists.mp hm.isSome
      dsimp only at hz
      subst hz
      obtain ⟨token, hfirst⟩ := h.requests x (Or.inl rfl)
      obtain ⟨token', hagain⟩ := h.requests y (Or.inr rfl)
      have htwice : Sparing (lead.toList ++ x :: [z] ++ y :: []) :=
        .twice (by simpa using hrenewal) (h.turnedDown rfl)
          ⟨z, by simp, h.renewals z (Or.inr rfl), fresh, hm⟩ hfirst hagain
      simpa using htwice

/-- Of two requests for a step the first was answered 401. -/
theorem Sparing.pairwise {xs : List Exchange} (h : Sparing xs) : xs.Pairwise fun x y =>
    IsStep x.request → IsStep y.request → Exchange.Brings (some x) (·.status = 401) := by
  have hnone : ∀ {l : List Exchange}, (∀ x ∈ l, ¬ IsStep x.request) → l.Pairwise fun x y =>
      IsStep x.request → IsStep y.request → Exchange.Brings (some x) (·.status = 401) := by
    intro l hl
    exact List.pairwise_of_forall_mem_list fun x hx _ _ hs => absurd hs (hl x hx)
  cases h with
  | never h => exact hnone h
  | @once xs ys x h =>
    obtain ⟨hxs, hys⟩ := List.forall_mem_append.mp h
    refine List.pairwise_append.mpr ⟨hnone hxs, List.pairwise_cons.mpr ⟨?_, hnone hys⟩, ?_⟩
    · exact fun y hy _ hs => absurd hs (hys y hy)
    · exact fun y hy _ _ hs => absurd hs (hxs y hy)
  | @twice xs ys zs x y r token token' h hx =>
    obtain ⟨hxys, hzs⟩ := List.forall_mem_append.mp h
    obtain ⟨hxs, hys⟩ := List.forall_mem_append.mp hxys
    rw [List.append_assoc, List.cons_append]
    refine List.pairwise_append.mpr ⟨hnone hxs, List.pairwise_cons.mpr ⟨fun _ _ _ _ => hx, ?_⟩, ?_⟩
    · refine List.pairwise_append.mpr ⟨hnone hys, List.pairwise_cons.mpr ⟨?_, hnone hzs⟩, ?_⟩
      · exact fun z hz _ hs => absurd hs (hzs z hz)
      · exact fun z hz _ _ hs => absurd hs (hys z hz)
    · exact fun z hz _ _ hs => absurd hs (hxs z hz)

/-- What happens to a fridge when an operation takes it to another. -/
structure Tells (op : Operation) (f : Fridge) (hs : List Account.Happening) (f' : Fridge) :
    Prop where
  story : Account.Story (Calls op f.order) (SignsIn f op) f.account hs f'.account
  sparing : Sparing (Account.exchanges hs)
  /-- A decision that the service accepts ends the reservation. -/
  accepted : ∀ x ∈ Account.exchanges hs, IsDecision x.request →
    Exchange.Brings (some x) (·.isSuccess = true) → ∀ t, f'.order ≠ .reserved t

section Tells

variable {α : Type} {op : Operation} {f f' : Fridge} {hs : List Account.Happening}

/-- Nothing is asked for the order when no request carries an access token. -/
theorem tells_of_story
    (h : Account.Story (fun _ => False) (SignsIn f op) f.account hs f'.account) :
    Tells op f hs f' := by
  have htold : Account.Story (Calls op f.order) (SignsIn f op) f.account hs f'.account :=
    h.mono (fun _ hr => hr.elim) fun _ hd => hd
  have hstep : ∀ x ∈ Account.exchanges hs, ¬ IsStep x.request := by
    intro x hx hs
    obtain ⟨a, ha⟩ := Account.mem_exchanges.mp hx
    obtain ⟨_, _, hnone, _⟩ := sends_protected (h.sends ha) hs.path
    exact hnone
  refine ⟨htold, .never hstep, ?_⟩
  exact fun x hx hd => absurd (Or.inr hd) (hstep x hx)

/-- A protected call tells all that happens when the order is left as an accepted decision has
it. -/
theorem tells_of_called {q : Request} {t : CallTrace} {e : Ended Response} {account : Account}
    (hq : Calls op f.order q) (hc : Account.Called f.account q t e account) (order : Order)
    (ho : ∀ y, IsDecision q → y.isSuccess = true → e = .done y → ∀ t, order ≠ .reserved t) :
    ∃ hs, Tells op f hs { f with account, order } := by
  obtain ⟨hs, hstory, hx⟩ := hc.story hq
  refine ⟨hs, hstory, hx ▸ sparing_of_repeats hc.repeats, ?_⟩
  rw [hx]
  intro x hmem hd hb
  have hrenewal : x.request.path ≠ Account.refreshPath := by
    intro hp
    exact not_isStep_of_renewal hp (Or.inr hd)
  have hplace : t.first = some x ∨ t.retry = some x := by
    rw [CallTrace.exchanges_eq] at hmem
    simp only [List.mem_append, Option.mem_toList] at hmem
    rcases hmem with hl | hf | hs | hr
    · exact absurd (hc.repeats.renewals x (Or.inl hl)) hrenewal
    · exact Or.inl hf
    · exact absurd (hc.repeats.renewals x (Or.inr hs)) hrenewal
    · exact Or.inr hr
  obtain ⟨token, hrequest⟩ := hc.repeats.requests x hplace
  rw [hrequest] at hd
  obtain ⟨r, y, hy, hs⟩ := hb
  cases hy
  exact ho y hd hs (hc.accepted hplace rfl hs)

/-- An errand asks only for what its order calls for, and moves the order on when a decision is
accepted. -/
structure Errand.Heeds (op : Operation) (r : Errand α) : Prop where
  calls : ∀ {o q}, r.request o = .ok q → Calls op o q
  accepted : ∀ {o q y}, r.request o = .ok q → IsDecision q → y.isSuccess = true →
    ∃ a o', r.settle y o = (.ok a, o') ∧ ∀ t, o' ≠ .reserved t

theorem Errand.Heeds.tells {r : Errand α} {e : Ended α} (hr : r.Heeds op)
    (h : r.call.run f = (e, f')) : ∃ hs, Tells op f hs f' := by
  cases Errand.call_cases h with
  | refused => exact ⟨[], tells_of_story (.nil _)⟩
  | failed hq hc =>
    obtain ⟨t, hc⟩ := Account.authorizedCall_cases hc
    exact tells_of_called (hr.calls hq) hc f.order (by simp)
  | dropped hq hc =>
    obtain ⟨t, hc⟩ := Account.authorizedCall_cases hc
    exact tells_of_called (hr.calls hq) hc f.order (by simp)
  | unsettled hq hc hs =>
    obtain ⟨t, hc⟩ := Account.authorizedCall_cases hc
    refine tells_of_called (hr.calls hq) hc f.order ?_
    intro y hd hy he
    cases he
    obtain ⟨a, o', hok, _⟩ := hr.accepted hq hd hy
    rw [hs] at hok
    cases hok
  | settled hq hc hs =>
    obtain ⟨t, hc⟩ := Account.authorizedCall_cases hc
    refine tells_of_called (hr.calls hq) hc _ ?_
    intro y hd hy he
    cases he
    obtain ⟨a, o', hok, ho⟩ := hr.accepted hq hd hy
    rw [hs] at hok
    cases hok
    exact ho

theorem previewErrand_heeds (cart : List Wire.OrderLine) :
    (previewErrand cart).Heeds (.preview cart) where
  calls {o q} h := by
    simp only [previewErrand, bind_ok] at h
    obtain ⟨_, ho, lines, hlines, h⟩ := h
    cases h
    cases Order.checkCanPreview_ok ho
    exact .preview hlines
  accepted h hd := absurd hd (not_isDecision_of_path (Or.inl (previewErrand_path h)))

theorem reservedId_ok {wording id : String} {o : Order} (h : reservedId wording o = .ok id) :
    ∃ t, o = .reserved t ∧ id = t.orderId := by
  cases o with
  | reserved t =>
    cases h
    exact ⟨t, rfl, rfl⟩
  | _ => cases h

/-- Two errands are for a reserved order, and a success settles what becomes of it. -/
theorem reservedErrand_heeds {path wording : String} {step : Order.Step α}
    {hrestores : step.Restores}
    (hcalls : ∀ t, Calls op (.reserved t)
      ((Request.post path).withBody (Wire.OrderRef.mk t.orderId).toJson))
    (hstep : ∀ t, ∃ a o', step (.reserved t) = (.ok a, o') ∧ ∀ u, o' ≠ .reserved u) :
    (reservedErrand path wording step hrestores).Heeds op where
  calls {o q} h := by
    simp only [reservedErrand, bind_ok] at h
    obtain ⟨id, hid, h⟩ := h
    obtain ⟨t, rfl, rfl⟩ := reservedId_ok hid
    cases h
    exact hcalls t
  accepted {o q y} h _ hy := by
    simp only [reservedErrand, bind_ok] at h
    obtain ⟨id, hid, _⟩ := h
    obtain ⟨t, rfl, _⟩ := reservedId_ok hid
    have hsuccess : y.success = .ok y := by simp [Response.success, hy]
    simp only [reservedErrand, hsuccess, Order.Step.given]
    exact hstep t

theorem confirmErrand_heeds : confirmErrand.Heeds .confirm :=
  reservedErrand_heeds .confirm fun t => ⟨(), .confirming t, rfl, by simp⟩

theorem cancelErrand_heeds : cancelErrand.Heeds .cancel :=
  reservedErrand_heeds .cancel fun t => ⟨t.orderId, .idle, rfl, by simp⟩

theorem checkCanPoll_ok {o : Order} (h : checkCanPoll o = .ok ()) : o.isAwaiting = true := by
  unfold checkCanPoll at h
  split at h
  · assumption
  · cases h

theorem pollErrand_heeds : pollErrand.Heeds .poll where
  calls {o q} h := by
    simp only [pollErrand, bind_ok] at h
    obtain ⟨_, ho, h⟩ := h
    cases h
    exact .poll (checkCanPoll_ok ho)
  accepted h hd := absurd hd (not_isDecision_of_path (Or.inr (Or.inl (pollErrand_path h))))

theorem query_heeds {path : String} {read : Response → Except Failure α}
    (hcalls : ∀ o, Calls op o (.get path)) (hpath : ¬ IsDecision (.get path)) :
    (query path read).Heeds op where
  calls {o q} h := by
    cases h
    exact hcalls o
  accepted h hd := by
    cases h
    exact absurd hd hpath

theorem historyErrand_heeds : historyErrand.Heeds .history :=
  query_heeds .history (not_isDecision_of_path (Or.inr (Or.inr rfl)))

theorem lastOrderErrand_heeds : lastOrderErrand.Heeds .lastOrder :=
  query_heeds .lastOrder (not_isDecision_of_path (Or.inr (Or.inl rfl)))

theorem tells_of_onAccount {c : Call Account α} {e : Ended α}
    (hc : ∀ {e a'}, c.run f.account = (e, a') →
      ∃ hs, Account.Story (fun _ => False) (SignsIn f op) f.account hs a')
    (h : (onAccount c).run f = (e, f')) : ∃ hs, Tells op f hs f' := by
  obtain ⟨account, ha, rfl⟩ := onAccount_cases h
  obtain ⟨hs, hstory⟩ := hc ha
  exact ⟨hs, tells_of_story hstory⟩

theorem login_tells {l : Wire.Login} {e : Ended Unit} (h : (login l).run f = (e, f')) :
    ∃ hs, Tells (.login l) f hs f' := by
  rcases Call.bind_cases h with ⟨u, f₁, ha, hidle⟩ | ⟨x, ha, rfl⟩ | ⟨ha, rfl⟩
  · obtain ⟨account, hl, rfl⟩ := onAccount_cases ha
    obtain ⟨hs, hstory⟩ := Account.login_story (P := fun _ => False) (SignsIn.login (f := f) l) hl
    cases hidle
    exact ⟨hs, tells_of_story hstory⟩
  · exact tells_of_onAccount (Account.login_story (.login l)) ha
  · exact tells_of_onAccount (Account.login_story (.login l)) ha

theorem logout_tells {e : Ended Unit} (h : logout.run f = (e, f')) : ∃ hs, Tells op f hs f' := by
  unfold logout setOrder at h
  rw [Call.run_modify_bind] at h
  obtain ⟨account, ha, rfl⟩ := onAccount_cases h
  exact ⟨_, tells_of_story (Account.logout_story ha)⟩

theorem acknowledge_tells {e : Ended OrderOutcome} (h : acknowledge.run f = (e, f')) :
    ∃ hs, Tells op f hs f' := by
  rcases advance_cases Order.acknowledge_restores h with ⟨_, order, _, _, rfl⟩ | ⟨_, _, _, rfl⟩
  · exact ⟨[], tells_of_story (.nil _)⟩
  · exact ⟨[], tells_of_story (.nil _)⟩

/-- All that happens in an operation other than a watch can be told. -/
theorem Operation.tells {op : Operation} {e : Ended Unit} (hop : op ≠ .waitForCompletion)
    (h : op.call.run f = (e, f')) : ∃ hs, Tells op f hs f' := by
  cases op with
  | waitForCompletion => exact absurd rfl hop
  | register r => exact tells_of_onAccount Account.register_story h
  | login l => exact login_tells h
  | logout => exact logout_tells h
  | restore =>
    obtain ⟨ended, hr, _⟩ := Call.forget_cases h
    exact tells_of_onAccount (fun ha => (Account.restore_cases ha).story fun _ => .restore) hr
  | acknowledge =>
    obtain ⟨ended, hr, _⟩ := Call.forget_cases h
    exact acknowledge_tells hr
  | preview cart =>
    rw [Operation.call, preview_eq] at h
    exact (previewErrand_heeds cart).tells h
  | confirm =>
    rw [Operation.call, confirm_eq] at h
    exact confirmErrand_heeds.tells h
  | cancel =>
    obtain ⟨ended, hr, _⟩ := Call.forget_cases h
    rw [cancel_eq] at hr
    exact cancelErrand_heeds.tells hr
  | poll =>
    obtain ⟨ended, hr, _⟩ := Call.forget_cases h
    rw [poll_eq] at hr
    exact pollErrand_heeds.tells hr
  | history =>
    obtain ⟨ended, hr, _⟩ := Call.forget_cases h
    rw [history_eq] at hr
    exact historyErrand_heeds.tells hr
  | lastOrder =>
    obtain ⟨ended, hr, _⟩ := Call.forget_cases h
    rw [lastOrder_eq] at hr
    exact lastOrderErrand_heeds.tells hr

end Tells

/-- A move with all that happens to the account in it. -/
structure Turn extends Move where
  happenings : List Account.Happening

namespace Turn

def exchanges (t : Turn) : List Exchange := Account.exchanges t.happenings

/-- The turn is what its operation does, an edge of the order, and nothing that happens in it is
left out. -/
structure Told (t : Turn) : Prop extends Tells t.operation t.before t.happenings t.after where
  ran : t.Ran
  isEdge : t.IsEdge

/-- The record of all requests grows by just those of the turn. -/
theorem Told.sent_eq {t : Turn} (h : t.Told) :
    t.after.line.sent = t.before.line.sent ++ t.exchanges.map Exchange.request :=
  h.story.sent_eq

end Turn

theorem exists_turns {moves : List Move} (hop : ∀ m ∈ moves, m.operation ≠ .waitForCompletion)
    (hm : ∀ m ∈ moves, m.Ran ∧ m.IsEdge) :
    ∃ turns : List Turn, turns.map Turn.toMove = moves ∧ ∀ t ∈ turns, t.Told := by
  induction moves with
  | nil => exact ⟨[], rfl, by simp⟩
  | cons m moves ih =>
    obtain ⟨hfirst, hrest⟩ := List.forall_mem_cons.mp hm
    obtain ⟨hop, hops⟩ := List.forall_mem_cons.mp hop
    obtain ⟨hs, htells⟩ := Operation.tells hop hfirst.1
    obtain ⟨turns, hmap, htold⟩ := ih hops hrest
    have hturn : Turn.Told ⟨m, hs⟩ := ⟨htells, hfirst.1, hfirst.2⟩
    exact ⟨⟨m, hs⟩ :: turns, by simp [hmap], List.forall_mem_cons.mpr ⟨hturn, htold⟩⟩

/-- The moves of an event can be told as turns. -/
theorem event_turns (f : Fridge) (event : Event) : ∃ turns : List Turn,
    Makes f event (turns.map Turn.toMove) (event.after f) ∧ ∀ t ∈ turns, t.Told := by
  obtain ⟨moves, hmakes, _, hm⟩ := makes_moves f event
  obtain ⟨turns, rfl, htold⟩ := exists_turns hmakes.operation_ne hm
  exact ⟨turns, hmakes, htold⟩

/-- Whatever is done with a fridge is a row of turns. -/
theorem exists_course (f : Fridge) (events : List Event) : ∃ turns : List Turn,
    Course f events (turns.map Turn.toMove) (events.foldl Event.after f) ∧
      ∀ t ∈ turns, t.Told := by
  induction events generalizing f with
  | nil => exact ⟨[], .nil f, by simp⟩
  | cons event events ih =>
    obtain ⟨turns, hmakes, htold⟩ := event_turns f event
    obtain ⟨rest, hcourse, hrest⟩ := ih (event.after f)
    refine ⟨turns ++ rest, ?_, List.forall_mem_append.mpr ⟨htold, hrest⟩⟩
    rw [List.map_append]
    exact .cons hmakes hcourse

/-- What lasts of a fridge from one move to the next. -/
def standing (f : Fridge) : Order × Option Session := (f.order, f.account.session)

/-- Each move starts with the order and the session that the one before it has left. -/
inductive Joined : Order × Option Session → List Move → Order × Option Session → Prop where
  | nil (p : Order × Option Session) : Joined p [] p
  | cons {m : Move} {moves : List Move} {p : Order × Option Session}
      (h : Joined m.after.standing moves p) : Joined m.before.standing (m :: moves) p

section Joined

variable {p q r : Order × Option Session} {moves rest : List Move}

theorem Joined.append (h : Joined p moves q) (h' : Joined q rest r) :
    Joined p (moves ++ rest) r := by
  induction h with
  | nil => exact h'
  | cons _ ih => exact .cons (ih h')

theorem Joined.linked (h : Joined p moves q) : Linked p.1 moves q.1 := by
  induction h with
  | nil => exact .nil _
  | cons _ ih => exact .cons ih

theorem rounds_joined {interval left made : Nat} {f f' : Fridge}
    {polls : List (Polling.Asked Fridge)} {e : Ended (Polling.WatchEnd OrderOutcome)}
    (h : watch.Rounds interval left made f polls e f') :
    Joined f.standing (polls.map Move.ofPoll) f'.standing := by
  have hpause : ∀ {t u : Fridge} {b : Ended Bool},
      (watch.pause interval).run t = (b, u) → u.standing = t.standing := by
    intro t u b ht
    obtain ⟨o, l, _, rfl, _⟩ := Polling.Watch.pause_cases ht
    rfl
  have hone : ∀ p : Polling.Asked Fridge,
      Joined p.before.standing [Move.ofPoll p] p.after.standing :=
    fun p => Joined.cons (m := Move.ofPoll p) (.nil _)
  induction h with
  | exhausted => exact .nil _
  | cancelled => exact .nil _
  | settled => exact hone _
  | fatal => exact hone _
  | dropped => exact hone _
  | last => exact hone _
  | @again left made p u v polls e hp hb hs rest ih =>
    rw [hpause hs] at ih
    exact Joined.cons (m := Move.ofPoll p) ih
  | interrupted _ _ hs =>
    rw [hpause hs]
    exact hone _
  | pauseDropped _ _ hs =>
    rw [hpause hs]
    exact hone _

theorem Makes.joined {f f' : Fridge} {event : Event} (h : Makes f event moves f') :
    Joined f.standing moves f'.standing := by
  cases h with
  | @operate op e f' hop h => exact Joined.cons (m := ⟨op, e, f, f'⟩) (.nil _)
  | settled => exact .nil _
  | watch _ hr => exact rounds_joined hr
  | line => exact .nil _
  | disk => exact .nil _

/-- Between two moves a fridge keeps its order and its session. -/
theorem Course.joined {f f' : Fridge} {events : List Event} (h : Course f events moves f') :
    Joined f.standing moves f'.standing := by
  induction h with
  | nil => exact .nil _
  | cons hm _ ih => exact hm.joined.append ih

end Joined

end Fridge

end Larder
