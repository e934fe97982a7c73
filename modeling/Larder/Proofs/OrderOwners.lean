import Larder.Proofs.KeptSessions
import Larder.Proofs.OrderRequests

namespace Larder

namespace Account

/-- The session that is held, if any, is the device's. -/
def IsOf (device : String) (a : Account) : Prop :=
  ∀ s, a.session = some s → s.deviceId = device

section IsOf

variable {P : Request → Prop} {D : String → Prop} {a a' : Account} {device : String}
  {h : Happening} {hs : List Happening}

theorem Renewed.isOf {x : Option Exchange} {e : Ended RefreshResult} (hr : Renewed a x e a')
    (ha : a.IsOf device) : a'.IsOf device := by
  cases hr with
  | tokenless => exact ha
  | unanswered => exact ha
  | rejected => exact ha
  | unavailable => exact ha
  | @refreshed s _ _ _ _ hs =>
    rintro s' ⟨rfl⟩
    exact ha s hs

theorem Happens.isOf (hD : ∀ d, D d → d = device) (h₁ : Happens P D a h a') (ha : a.IsOf device) :
    a'.IsOf device := by
  cases h₁ with
  | registration => exact ha
  | loginRefused => exact ha
  | loggedIn _ _ hd =>
    rintro s ⟨rfl⟩
    exact hD _ hd
  | renewal hr => exact hr.isOf ha
  | request => exact ha
  | readBack _ hd =>
    rintro s ⟨rfl⟩
    exact hD _ hd
  | ended =>
    rintro s ⟨⟩

/-- Where no other device gets a session, the session stays the device's, before each request and in
the end. -/
theorem Story.isOf (hD : ∀ d, D d → d = device) (h₁ : Story P D a hs a') (ha : a.IsOf device) :
    (∀ b x, .sent b x ∈ hs → b.IsOf device) ∧ a'.IsOf device :=
  h₁.invariant (fun h₂ hb => h₂.isOf hD hb) ha

theorem authorizedCall_session {r : Request} {x : Response}
    (h : (authorizedCall r).run a = (.done x, a')) : ∃ s, a.session = some s := by
  cases hs : a.session with
  | some s => exact ⟨s, rfl⟩
  | none =>
    unfold authorizedCall at h
    rw [Call.run_view_bind, hs] at h
    cases h

end IsOf

end Account

namespace Order

theorem isActive_iff (o : Order) : o.isActive = true ↔ o ≠ idle := by
  cases o <;> simp [isActive, ticket?]

theorem Polled.isActive {t : Ticket} {o : Order} (h : Polled t o) : o.isActive = true := by
  cases h <;> rfl

end Order

namespace Fridge

/-- A device that is the owner of the order, if there is one, is the one that holds the session, if
there is one. -/
def Bound (owner : Option String) (p : Order × Option Session) : Prop :=
  p.1.isActive = true → ∃ device, owner = some device ∧ ∀ s, p.2 = some s → s.deviceId = device

/-- Whose order it is when a fridge has become another: that of the device that held the session
when the order was reserved. -/
def ownerAfter (owner : Option String) (f f' : Fridge) : Option String :=
  if f'.order.isActive then
    if f.order.isActive then owner else f.account.session.map Session.deviceId
  else none

theorem ownerAfter_eq {owner : Option String} {f f' : Fridge}
    (h : f'.order.isActive = f.order.isActive) (ha : f'.order.isActive = true) :
    ownerAfter owner f f' = owner := by
  rw [ownerAfter, if_pos ha, if_pos (h ▸ ha)]

/-- Over an order no other device's session is read back than its owner's. -/
def Faithful (owner : Option String) (f : Fridge) (op : Operation) : Prop :=
  op = .restore → f.order.isActive = true →
    ∀ c, f.account.vault.load f.account.disk = some c → owner = some c.deviceId

theorem Edge.started {op : Operation} {e : Ended Unit} {o : Order} (h : Edge op e .idle o)
    (ho : o.isActive = true) : (∃ cart, op = .preview cart) ∧ e = .done () := by
  cases h with
  | reserve => exact ⟨⟨_, rfl⟩, rfl⟩
  | acknowledge => cases ho
  | login => cases ho
  | logout => cases ho

theorem preview_session {cart : List Wire.OrderLine} {f f' : Fridge}
    (h : (preview cart).run f = (.done (), f')) : ∃ s, f.account.session = some s := by
  rw [preview_eq] at h
  generalize he : (Ended.done () : Ended Unit) = e at h
  cases Errand.call_cases h with
  | settled _ hc => exact Account.authorizedCall_session hc
  | _ => cases he

section Turns

variable {t : Turn} {owner : Option String} {device : String}

theorem Calls.not_signsIn {f : Fridge} {op : Operation} {o : Order} {r : Request}
    (h : Calls op o r) : ¬ SignsIn f op device := by
  intro hs
  cases hs <;> cases h

/-- An order that a turn brings about was reserved by the device that holds the session. -/
theorem Turn.Told.bound_reserved (ht : t.Told) (hb : t.before.order.isActive = false)
    (ha : t.after.order.isActive = true) :
    ∃ device, t.before.account.session.map Session.deviceId = some device ∧
      t.after.account.IsOf device := by
  rcases ht.isEdge with hs | hedge
  · rw [hs, hb] at ha
    cases ha
  · have hidle : t.before.order = .idle :=
      Classical.byContradiction fun hne => by simp [(Order.isActive_iff _).mpr hne] at hb
    rw [hidle] at hedge
    obtain ⟨⟨cart, hop⟩, he⟩ := hedge.started ha
    have hran : t.operation.call.run t.before = (t.ended, t.after) := ht.ran
    rw [hop, he] at hran
    obtain ⟨s, hs⟩ := preview_session hran
    have hsigns : ∀ d, SignsIn t.before t.operation d → d = s.deviceId := by
      rw [hop]
      rintro d ⟨⟩
    have hof : t.before.account.IsOf s.deviceId := by
      intro s' hs'
      rw [hs] at hs'
      cases hs'
      rfl
    exact ⟨s.deviceId, by simp [hs], (ht.story.isOf hsigns hof).2⟩

/-- An order that lasts over a turn keeps its device. -/
theorem Turn.Told.isOf (ht : t.Told) (ha : t.after.order.isActive = true)
    (hrestore : t.operation = .restore → ∀ c,
      t.before.account.vault.load t.before.account.disk = some c → c.deviceId = device)
    (hof : t.before.account.IsOf device) : t.after.account.IsOf device := by
  by_cases hlogin : ∃ l, t.operation = .login l
  · obtain ⟨l, hop⟩ := hlogin
    have hran : t.operation.call.run t.before = (t.ended, t.after) := ht.ran
    rw [hop] at hran
    rcases login_cases hran with ⟨_, account, hafter⟩ | ⟨_, line, hafter⟩
    · rw [hafter] at ha
      cases ha
    · rw [hafter]
      exact hof
  · refine (ht.story.isOf ?_ hof).2
    intro d hd
    generalize hop : t.operation = op at hd
    cases hd with
    | login l => exact absurd ⟨l, hop⟩ hlogin
    | restore hc => exact hrestore hop _ hc

theorem Turn.Told.bound (ht : t.Told) (hb : Bound owner t.before.standing)
    (hf : Faithful owner t.before t.operation) :
    Bound (ownerAfter owner t.before t.after) t.after.standing := by
  intro ha
  have ha : t.after.order.isActive = true := ha
  rw [ownerAfter, if_pos ha]
  cases hactive : t.before.order.isActive with
  | false => exact ht.bound_reserved hactive ha
  | true =>
    obtain ⟨device, rfl, hof⟩ := hb hactive
    refine ⟨device, rfl, ht.isOf ha ?_ hof⟩
    intro hop c hc
    exact (Option.some.inj (hf hop hactive c hc)).symm

/-- A poll neither reserves an order nor forgets it. -/
theorem Turn.Told.poll_isActive (ht : t.Told) (hop : t.operation = .poll) :
    t.after.order.isActive = t.before.order.isActive := by
  rcases ht.isEdge with hs | hedge
  · rw [hs]
  · rw [hop] at hedge
    generalize t.before.order = o at hedge ⊢
    generalize t.after.order = o' at hedge ⊢
    generalize t.ended = e at hedge
    cases hedge with
    | pollFirst hp => exact hp.isActive
    | pollAgain hp => exact hp.isActive

theorem polls_bound {p q : Order × Option Session} {turns : List Turn}
    (h : Joined p (turns.map Turn.toMove) q) (ht : ∀ t ∈ turns, t.Told)
    (hop : ∀ t ∈ turns, t.operation = .poll) (hb : Bound owner p) :
    (∀ t ∈ turns, Bound owner t.before.standing) ∧ Bound owner q ∧
      q.1.isActive = p.1.isActive := by
  induction turns generalizing p with
  | nil =>
    cases h with
    | nil => exact ⟨by simp, hb, rfl⟩
  | cons t turns ih =>
    obtain ⟨ht, hts⟩ := List.forall_mem_cons.mp ht
    obtain ⟨hop, hops⟩ := List.forall_mem_cons.mp hop
    cases h with
    | cons h =>
      have hactive := ht.poll_isActive hop
      have hafter : Bound owner t.after.standing := by
        intro ha
        have hfaithful : Faithful owner t.before t.operation := by simp [Faithful, hop]
        have hbound := ht.bound hb hfaithful ha
        rwa [ownerAfter_eq hactive ha] at hbound
      obtain ⟨hrest, hend, hsame⟩ := ih h hts hops hafter
      exact ⟨List.forall_mem_cons.mpr ⟨hb, hrest⟩, hend, hsame.trans hactive⟩

/-- A request that settles an order or asks how it is doing. -/
def Turn.Pursues (t : Turn) (r : Request) : Prop :=
  IsDecision r ∨ (t.operation = .poll ∧ r.path = lastOrderPath)

theorem Turn.Pursues.path {r : Request} (h : t.Pursues r) : r.path ∈ protectedPaths := by
  rcases h with hd | ⟨_, hp⟩
  · exact IsStep.path (Or.inr hd)
  · rw [hp]
    decide

theorem Turn.Pursues.isActive {r : Request} (h : t.Pursues r)
    (hr : Calls t.operation t.before.order r) : t.before.order.isActive = true := by
  rcases h with hd | ⟨hop, _⟩
  · obtain ⟨u, ho, _⟩ := calls_decision hr hd
    rw [ho]
    rfl
  · rw [hop] at hr
    generalize t.before.order = o at hr ⊢
    cases hr with
    | poll ha =>
      obtain ⟨u, rfl | ⟨status, rfl⟩⟩ := Order.isAwaiting_cases ha
      · rfl
      · rfl

/-- What is asked for an order is asked by the device it belongs to, with that device's access
token. -/
theorem Turn.Told.pursued (ht : t.Told) (hb : Bound owner t.before.standing) {a : Account}
    {x : Exchange} (hm : .sent a x ∈ t.happenings) (hx : t.Pursues x.request) :
    ∃ s, a.session = some s ∧ owner = some s.deviceId ∧ x.request.bearer = s.accessToken := by
  obtain ⟨q, token, hq, hheld, hrequest⟩ := sends_protected (ht.story.sends hm) hx.path
  have hpursues : t.Pursues q := by
    rw [hrequest] at hx
    exact hx
  obtain ⟨device, rfl, hof⟩ := hb (hpursues.isActive hq)
  have hdevice := (ht.story.isOf (fun d hd => absurd hd hq.not_signsIn) hof).1 a x hm
  obtain ⟨s, hs, htoken⟩ := Option.bind_eq_some_iff.mp hheld
  refine ⟨s, hs, congrArg some (hdevice s hs).symm, ?_⟩
  rw [hrequest, htoken]
  rfl

end Turns

/-- The event reads no other device's session back over an order than its owner's. -/
def Event.IsFaithful (owner : Option String) (f : Fridge) : Event → Prop
  | operate op => Faithful owner f op
  | _ => True

theorem bound_same {f f' : Fridge} {owner : Option String} (h : f'.standing = f.standing)
    (hb : Bound owner f.standing) : Bound (ownerAfter owner f f') f'.standing := by
  obtain ⟨horder, _⟩ := Prod.mk.inj h
  intro ha
  rw [ownerAfter_eq (congrArg Order.isActive horder) ha]
  rw [h] at ha ⊢
  exact hb ha

/-- An order stays with its owner over all turns of an event, and after it. -/
theorem makes_bound {f f' : Fridge} {owner : Option String} {event : Event} {turns : List Turn}
    (hm : Makes f event (turns.map Turn.toMove) f') (ht : ∀ t ∈ turns, t.Told)
    (hb : Bound owner f.standing) :
    (∀ t ∈ turns, Bound owner t.before.standing) ∧
      (event.IsFaithful owner f → Bound (ownerAfter owner f f') f'.standing) := by
  generalize hmoves : turns.map Turn.toMove = moves at hm
  cases hm with
  | operate hop h =>
    obtain ⟨⟨m, hs⟩, rfl, rfl⟩ := List.map_eq_singleton_iff.mp hmoves
    have htold := ht _ (List.mem_singleton.mpr rfl)
    exact ⟨by simpa using hb, htold.bound hb⟩
  | settled =>
    rw [List.map_eq_nil_iff.mp hmoves]
    exact ⟨by simp, fun _ => bound_same rfl hb⟩
  | watch _ hr =>
    have hpolls : ∀ t ∈ turns, t.operation = .poll := by
      intro t hmem
      have hmove : t.toMove ∈ turns.map Turn.toMove := List.mem_map_of_mem hmem
      rw [hmoves] at hmove
      obtain ⟨p, _, hp⟩ := List.mem_map.mp hmove
      rw [← hp]
      rfl
    obtain ⟨hall, hend, hactive⟩ := polls_bound (hmoves ▸ rounds_joined hr) ht hpolls hb
    refine ⟨hall, fun _ ha => ?_⟩
    rw [ownerAfter_eq hactive ha]
    exact hend ha
  | line =>
    rw [List.map_eq_nil_iff.mp hmoves]
    exact ⟨by simp, fun _ => bound_same rfl hb⟩
  | disk =>
    rw [List.map_eq_nil_iff.mp hmoves]
    exact ⟨by simp, fun _ => bound_same rfl hb⟩

/-- The fridges that a new one can become while no other device's session is read back over an order
than its owner's, with that owner. -/
inductive Owned : Fridge → Option String → Prop where
  | new (settings : Settings) (vault : Storage.Vault) (disk : Storage.Disk) (line : Line) :
      Owned (new settings vault disk line) none
  | event {f : Fridge} {owner : Option String} (event : Event) (h : Owned f owner)
      (hf : event.IsFaithful owner f) : Owned (event.after f) (ownerAfter owner f (event.after f))

theorem Owned.bound {f : Fridge} {owner : Option String} (h : Owned f owner) :
    Bound owner f.standing := by
  induction h with
  | new => exact fun ha => absurd ha (by simp [standing, Fridge.new, Order.isActive, Order.ticket?])
  | @event f owner event _ hf ih =>
    obtain ⟨turns, hmakes, htold⟩ := event_turns f event
    exact (makes_bound hmakes htold ih).2 hf

/-- The session that is held over an order is its owner's, and whatever is done next, all that is
asked for the order is asked with the access token of that session. -/
theorem order_owner {f : Fridge} {owner : Option String} (h : Owned f owner) :
    (f.order.isActive = true → ∃ device, owner = some device ∧
      ∀ s, f.account.session = some s → s.deviceId = device) ∧
    ∀ event : Event, ∃ turns : List Turn,
      Makes f event (turns.map Turn.toMove) (event.after f) ∧
      (∀ t ∈ turns, t.Told ∧
        t.after.line.sent = t.before.line.sent ++ t.exchanges.map Exchange.request) ∧
      ∀ t ∈ turns, ∀ a x, .sent a x ∈ t.happenings → t.Pursues x.request →
        ∃ s, a.session = some s ∧ owner = some s.deviceId ∧
          x.request.bearer = s.accessToken := by
  refine ⟨h.bound, ?_⟩
  intro event
  obtain ⟨turns, hmakes, htold⟩ := event_turns f event
  obtain ⟨hbound, _⟩ := makes_bound hmakes htold h.bound
  refine ⟨turns, hmakes, fun t ht => ⟨htold t ht, (htold t ht).sent_eq⟩, ?_⟩
  exact fun t ht a x hm hx => (htold t ht).pursued (hbound t ht) hm hx

/-- A fridge that has logged in and reserved an order. -/
def reserving : Fridge :=
  (Deed.operate (.preview [⟨"MILK-1", 2⟩])).after
    ((Deed.line { replies := [⟨⟨201, .object [("order_id", .text "o1")]⟩, 0, false⟩] }).after
      signedIn)

theorem reserving_alone : reserving.Alone := .deed _ (.deed (.line _) signedIn_alone)

theorem reserving_order : reserving.order =
    .reserved ⟨"o1", requested [⟨"MILK-1", 2⟩]⟩ := by
  decide +kernel

theorem reserving_owned : Owned reserving (some "pantry") := by
  have hin : Owned signedIn none :=
    .event (.operate (.login ⟨"pantry", "secret"⟩)) (.new _ _ _ _) (by rintro ⟨⟩)
  have hline : Owned (signedIn.withLine
      { replies := [⟨⟨201, .object [("order_id", .text "o1")]⟩, 0, false⟩] }) none :=
    .event (.line _) hin trivial
  exact .event (.operate (.preview [⟨"MILK-1", 2⟩])) hline (by rintro ⟨⟩)

theorem order_owner_reserving : Owned reserving (some "pantry") ∧
    reserving.order.isActive = true ∧
    (∃ s, reserving.account.session = some s ∧ s.deviceId = "pantry") ∧
    ∀ event : Event, ∃ turns : List Turn,
      Makes reserving event (turns.map Turn.toMove) (event.after reserving) ∧
      (∀ t ∈ turns, t.Told ∧
        t.after.line.sent = t.before.line.sent ++ t.exchanges.map Exchange.request) ∧
      ∀ t ∈ turns, ∀ a x, .sent a x ∈ t.happenings → t.Pursues x.request →
        ∃ s, a.session = some s ∧ some "pantry" = some s.deviceId ∧
          x.request.bearer = s.accessToken := by
  obtain ⟨hbound, hturns⟩ := order_owner reserving_owned
  have hactive : reserving.order.isActive = true := by rw [reserving_order]; rfl
  have hsession : reserving.account.session = some ⟨"pantry", some "p1", some "q1", some 0⟩ := by
    decide +kernel
  obtain ⟨device, hdevice, hof⟩ := hbound hactive
  cases hdevice
  exact ⟨reserving_owned, hactive, ⟨_, hsession, hof _ hsession⟩, hturns⟩

/-- The same fridge when another device's credential has come onto its disk. -/
def swapped : Fridge :=
  ((Event.disk (reserving.account.vault.save ⟨"shelf", "q2"⟩ reserving.account.disk).2).after
    reserving).withLine {
      replies := [⟨⟨200, Wire.FreshToken.toJson ⟨"p2"⟩⟩, 0, false⟩, ⟨⟨200, .null⟩, 0, false⟩] }

theorem swapped_load :
    swapped.account.vault.load swapped.account.disk = some ⟨"shelf", "q2"⟩ :=
  reserving_alone.inStep.served.load_save (by simp)

/-- What is read back is the other device's session, and the order is still there. -/
theorem swapped_restore : (Event.operate .restore).after swapped = { swapped with
    account := { swapped.account with
      line := { replies := [⟨⟨200, .null⟩, 0, false⟩], sent := [Account.refreshRequest "q2"] }
      disk := (swapped.account.vault.save ⟨"shelf", "q2"⟩ swapped.account.disk).2
      session := some ⟨"shelf", some "p2", some "q2", some 0⟩ } } := by
  have hrun : Account.restore.run swapped.account = (.done true, { swapped.account with
      line := { replies := [⟨⟨200, .null⟩, 0, false⟩], sent := [Account.refreshRequest "q2"] }
      disk := (swapped.account.vault.save ⟨"shelf", "q2"⟩ swapped.account.disk).2
      session := some ⟨"shelf", some "p2", some "q2", some 0⟩ }) := by
    unfold Account.restore
    simp only [Call.run_view_bind, swapped_load]
    rfl
  obtain ⟨ended, hr, _⟩ :=
    Call.forget_cases (Prod.eta (Operation.restore.call.run swapped)).symm
  obtain ⟨account, ha, hafter⟩ := onAccount_cases hr
  rw [hrun] at ha
  cases ha
  exact hafter

/-- The order that one device has reserved is confirmed with another one's access token. -/
theorem restored_over_order : Owned reserving (some "pantry") ∧
    reserving.order = .reserved ⟨"o1", requested [⟨"MILK-1", 2⟩]⟩ ∧
    ((Event.operate .restore).after swapped).order =
      .reserved ⟨"o1", requested [⟨"MILK-1", 2⟩]⟩ ∧
    ((Event.operate .restore).after swapped).account.session =
      some ⟨"shelf", some "p2", some "q2", some 0⟩ ∧
    ((confirm.run ((Event.operate .restore).after swapped)).2.line.sent.getLast?.map fun r =>
      (r.path, r.bearer)) = some ("/api/client/order/confirm", some "p2") := by
  have hsent : ((confirm.run ((Event.operate .restore).after swapped)).2.line.sent.getLast?.map
      fun r => (r.path, r.bearer)) = some ("/api/client/order/confirm", some "p2") := by
    rw [swapped_restore]
    decide +kernel
  refine ⟨reserving_owned, reserving_order, ?_, ?_, hsent⟩
  · rw [swapped_restore]
    exact reserving_order
  · rw [swapped_restore]

end Fridge

end Larder
