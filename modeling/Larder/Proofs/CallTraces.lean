import Larder.Proofs.Sessions

namespace Larder

/-- What a request of a protected call is for. -/
inductive Leg where
  | renewal
  | request
  deriving DecidableEq, Repr

namespace CallTrace

/-- The requests that were sent, in order. -/
def legs (t : CallTrace) : List (Leg × Exchange) :=
  t.lead.toList.map (Leg.renewal, ·) ++ (t.first.toList.map (Leg.request, ·) ++
    (t.second.toList.map (Leg.renewal, ·) ++ t.retry.toList.map (Leg.request, ·)))

def exchanges (t : CallTrace) : List Exchange := t.legs.map Prod.snd

/-- What the requests of a protected call can be for, one after the other. -/
def shapes : List (List Leg) :=
  [[], [.renewal], [.request], [.renewal, .request], [.request, .renewal],
    [.renewal, .request, .renewal], [.request, .renewal, .request],
    [.renewal, .request, .renewal, .request]]

theorem exchanges_eq (t : CallTrace) : t.exchanges =
    t.lead.toList ++ (t.first.toList ++ (t.second.toList ++ t.retry.toList)) := by
  simp [exchanges, legs, Function.comp_def]

theorem legs_getLast? (t : CallTrace) : t.legs.getLast? =
    (t.retry.map (Leg.request, ·)).or ((t.second.map (Leg.renewal, ·)).or
      ((t.first.map (Leg.request, ·)).or (t.lead.map (Leg.renewal, ·)))) := by
  obtain ⟨lead, first, second, retry⟩ := t
  cases lead <;> cases first <;> cases second <;> cases retry <;> simp [legs]

/-- The renewal is the one that the account's refresh token is for. -/
def IsRenewal (a : Account) (x : Exchange) : Prop :=
  ∃ token, a.refreshToken? = some token ∧
    x.request = ⟨"POST", "/api/client/refresh", [], none, some token⟩

/-- The renewal before the request goes out when it is due, and the request when an access token is
held after it, with that token. -/
structure Begins (a : Account) (r : Request) (held : Option String)
    (lead first : Option Exchange) : Prop where
  leadSent : lead.isSome ↔ ∃ s, a.session = some s ∧
    s.needsRefresh a.refreshInterval a.line.now = true
  leadRequest : ∀ x, lead = some x → IsRenewal a x
  token : Account.TokenAfter a.accessToken? lead held
  firstSent : first.isSome ↔ held.isSome
  firstRequest : ∀ x, first = some x →
    ∃ token, held = some token ∧ x.request = { r with bearer := some token }

/-- What a protected call sends over the line, and how each request follows from the responses
before it. -/
structure Follows (t : CallTrace) (a : Account) (r : Request) (held : Option String)
    (l : Line) : Prop where
  begins : Begins a r held t.lead t.first
  secondSent : t.second.isSome ↔
    Exchange.Brings t.first (·.status = 401) ∧ a.refreshToken?.isSome
  secondRequest : ∀ x, t.second = some x → IsRenewal a x
  retrySent : t.retry.isSome ↔ ∃ token, Exchange.Brings t.second (·.Mints token)
  retryRequest : ∀ x, t.retry = some x → ∃ token,
    Exchange.Brings t.second (·.Mints token) ∧ x.request = { r with bearer := some token }
  carried : a.line.Carries t.exchanges l
  answered : ∀ x ∈ t.exchanges, x.response?.isSome

theorem Follows.shape {t : CallTrace} {a : Account} {r : Request} {held : Option String}
    {l : Line} (h : t.Follows a r held l) : t.legs.map Prod.fst ∈ shapes := by
  obtain ⟨lead, first, second, retry⟩ := t
  have hsecond : first = none → second = none := by
    rintro rfl
    have hs := h.secondSent
    cases second <;> simp_all
  have hretry : second = none → retry = none := by
    rintro rfl
    have hr := h.retrySent
    cases retry <;> simp_all
  cases lead <;> cases first <;> cases second <;> cases retry <;>
    simp_all [legs, shapes]

end CallTrace

namespace Account

theorem refreshDue_iff (a : Account) : a.refreshDue = true ↔
    ∃ s, a.session = some s ∧ s.needsRefresh a.refreshInterval a.line.now = true := by
  unfold refreshDue
  cases a.session <;> simp

theorem refreshDue_refreshToken {a : Account} (h : a.refreshDue = true) :
    a.refreshToken?.isSome := by
  obtain ⟨s, hs, hn⟩ := (refreshDue_iff a).mp h
  simp only [Session.needsRefresh, Bool.and_eq_true] at hn
  simpa [refreshToken?, hs] using hn.1

section Led

variable {a a' : Account} {x : Option Exchange} {e : Ended (Option RefreshResult)}

theorem Led.isSome_iff (h : Led a x e a') : x.isSome ↔ a.refreshDue = true := by
  cases h with
  | notDue hd => simp [hd]
  | due hd hr => simp [hd, hr.isSome_iff, refreshDue_refreshToken hd]
  | dropped hd hr => simp [hd, hr.isSome_iff, refreshDue_refreshToken hd]

theorem Led.request {y : Exchange} (h : Led a x e a') (hx : x = some y) :
    CallTrace.IsRenewal a y := by
  cases h with
  | notDue => cases hx
  | due _ hr => exact hr.request hx
  | dropped _ hr => exact hr.request hx

theorem Led.carries (h : Led a x e a') : a.line.Carries x.toList a'.line := by
  cases h with
  | notDue => exact .nil _
  | due _ hr => exact hr.carries
  | dropped _ hr => exact hr.carries

theorem Led.answered {y : Exchange} (h : Led a x e a') (he : e ≠ .dropped) (hx : x = some y) :
    y.response?.isSome := by
  cases h with
  | notDue => cases hx
  | due _ hr => exact hr.answered (by simp) hx
  | dropped => exact absurd rfl he

theorem Led.tokenAfter (h : Led a x e a') : TokenAfter a.accessToken? x a'.accessToken? := by
  cases h with
  | notDue => exact .kept (by simp)
  | due _ hr => exact hr.tokenAfter
  | dropped _ hr => exact hr.tokenAfter

theorem Led.refreshToken (h : Led a x e a') : a'.refreshToken? = a.refreshToken? := by
  cases h with
  | notDue => rfl
  | due _ hr => exact hr.refreshToken
  | dropped _ hr => exact hr.refreshToken

end Led

section Follows

variable {a a₁ a₂ : Account} {r : Request} {lead second : Option Exchange} {first : Exchange}
  {p : Option RefreshResult} {result : RefreshResult} {x : Response}

/-- Without an access token nothing is sent after the renewal. -/
theorem Led.follows (h : Led a lead (.done p) a₁) (ht : a₁.accessToken? = none) :
    CallTrace.Follows { lead } a r none a₁.line where
  begins := {
    leadSent := h.isSome_iff.trans (refreshDue_iff a)
    leadRequest := fun _ => h.request
    token := ht ▸ h.tokenAfter
    firstSent := by simp
    firstRequest := by simp }
  secondSent := by simp
  secondRequest := by simp
  retrySent := by simp
  retryRequest := by simp
  carried := by simpa [CallTrace.exchanges_eq] using h.carries
  answered := by
    intro y hy
    exact h.answered (by simp) (by simpa [CallTrace.exchanges_eq] using hy)

theorem Asked.begins (h : Asked a r lead first a₁) :
    CallTrace.Begins a r (some h.token) lead (some first) where
  leadSent := h.led.isSome_iff.trans (refreshDue_iff a)
  leadRequest := fun _ => h.led.request
  token := h.held ▸ h.led.tokenAfter
  firstSent := by simp
  firstRequest := by
    intro y hy
    cases hy
    exact ⟨h.token, rfl, h.request⟩

theorem Asked.refreshToken (h : Asked a r lead first a₁) :
    a₁.refreshToken? = a.refreshToken? := by
  rw [h.after]
  exact h.led.refreshToken

theorem Asked.answered (h : Asked a r lead first a₁) (hx : first.response? = some x) :
    ∀ y ∈ lead.toList ++ [first], y.response?.isSome := by
  intro y hy
  rcases List.mem_append.mp hy with hy | hy
  · exact h.led.answered (by simp) (by simpa using hy)
  · rw [List.mem_singleton.mp hy, hx]
    rfl

theorem Asked.carries (h : Asked a r lead first a₁) :
    a.line.Carries (lead.toList ++ [first]) a₁.line := by
  refine h.led.carries.append (fun y hy => h.led.answered (by simp) (by simpa using hy)) ?_
  obtain ⟨request, response?⟩ := first
  have hline : a₁.line = h.line := congrArg Account.line h.after
  have hsent := (congrArg h.middle.line.send h.request).trans h.sent
  rw [hline]
  cases response? with
  | none => exact .unanswered hsent
  | some x => exact .answered hsent (.nil _)

/-- The request alone, when it is not answered 401 or there is no refresh token. -/
theorem Asked.follows (h : Asked a r lead first a₁) (hx : first.response? = some x)
    (hn : x.status ≠ 401 ∨ a.refreshToken? = none) :
    CallTrace.Follows { lead, first := some first } a r (some h.token) a₁.line where
  begins := h.begins
  secondSent := by
    rcases hn with hn | hn <;> simp [hn, Exchange.brings_iff hx]
  secondRequest := by simp
  retrySent := by simp
  retryRequest := by simp
  carried := by simpa [CallTrace.exchanges_eq] using h.carries
  answered := by simpa [CallTrace.exchanges_eq] using h.answered hx

section Second

variable {e : Ended RefreshResult}

theorem Asked.second_sent (h : Asked a r lead first a₁) (hx : first.response? = some x)
    (hu : x.status = 401) (hr : Renewed a₁ second e a₂) :
    second.isSome ↔ Exchange.Brings (some first) (·.status = 401) ∧ a.refreshToken?.isSome := by
  have hs := hr.isSome_iff
  rw [h.refreshToken] at hs
  simpa [hu, Exchange.brings_iff hx] using hs

theorem Asked.second_request {y : Exchange} (h : Asked a r lead first a₁)
    (hr : Renewed a₁ second e a₂) (hy : second = some y) : CallTrace.IsRenewal a y := by
  obtain ⟨token, ht, hy⟩ := hr.request hy
  exact ⟨token, h.refreshToken ▸ ht, hy⟩

theorem Asked.second_answered (h : Asked a r lead first a₁) (hx : first.response? = some x)
    (hr : Renewed a₁ second e a₂) (he : e ≠ .dropped) :
    ∀ y ∈ lead.toList ++ [first] ++ second.toList, y.response?.isSome := by
  intro y hy
  rcases List.mem_append.mp hy with hy | hy
  · exact h.answered hx y hy
  · exact hr.answered he (by simpa using hy)

theorem Asked.second_carries (h : Asked a r lead first a₁) (hx : first.response? = some x)
    (hr : Renewed a₁ second e a₂) :
    a.line.Carries (lead.toList ++ [first] ++ second.toList) a₂.line :=
  h.carries.append (h.answered hx) hr.carries

end Second

/-- Without a new token the request is not repeated. -/
theorem Asked.follows_renewal {y : Exchange} (h : Asked a r lead first a₁)
    (hx : first.response? = some x) (hu : x.status = 401)
    (hr : Renewed a₁ (some y) (.done result) a₂)
    (hm : ∀ token, ¬ Exchange.Brings (some y) (·.Mints token)) :
    CallTrace.Follows { lead, first := some first, second := some y } a r (some h.token)
      a₂.line where
  begins := h.begins
  secondSent := h.second_sent hx hu hr
  secondRequest _ := h.second_request hr
  retrySent := by simpa using hm
  retryRequest := by simp
  carried := by simpa [CallTrace.exchanges_eq] using h.second_carries hx hr
  answered := by simpa [CallTrace.exchanges_eq] using h.second_answered hx hr (by simp)

/-- The whole course: renewal, request, renewal and the request again. -/
theorem Asked.follows_retry {y : Response} {token : String} {l : Line}
    (h : Asked a r lead first a₁) (hx : first.response? = some x) (hu : x.status = 401)
    (hr : Renewed a₁ second (.done .refreshed) a₂) (ht : a₂.accessToken? = some token)
    (hl : a₂.line.send (r.withBearer token) = (some y, l)) :
    CallTrace.Follows
      { lead, first := some first, second, retry := some ⟨r.withBearer token, some y⟩ }
      a r (some h.token) l where
  begins := h.begins
  secondSent := h.second_sent hx hu hr
  secondRequest _ := h.second_request hr
  retrySent := by
    obtain ⟨token, hm, _⟩ := hr.minted
    simpa using ⟨token, hm⟩
  retryRequest := by
    intro z hz
    cases hz
    obtain ⟨token', hm, ha⟩ := hr.minted
    rw [ht] at ha
    cases ha
    exact ⟨token, hm, rfl⟩
  carried := by
    have hc := (h.second_carries hx hr).append (h.second_answered hx hr (by simp))
      (.answered hl (.nil _))
    simpa [CallTrace.exchanges_eq] using hc
  answered := by
    intro z hz
    have hsecond := h.second_answered hx hr (by simp)
    simp only [CallTrace.exchanges_eq, Option.toList_some, ← List.append_assoc] at hz
    rcases List.mem_append.mp hz with hz | hz
    · exact hsecond z hz
    · rw [List.mem_singleton.mp hz]
      rfl

end Follows

section Called

variable {a a' : Account} {r : Request} {t : CallTrace} {e : Ended Response}

theorem Called.follows (h : Called a r t e a') (he : e ≠ .dropped) :
    ∃ held, t.Follows a r held a'.line := by
  cases h with
  | loggedOut hs =>
    exact ⟨none, Led.follows (.notDue (by simp [refreshDue, hs])) (by simp [accessToken?, hs])⟩
  | leadUnavailable _ _ hl ht => exact ⟨none, hl.follows ht⟩
  | leadRejected _ _ hl ht => exact ⟨none, hl.follows ht⟩
  | tokenless _ _ hl ht _ => exact ⟨none, hl.follows ht⟩
  | answered ha hx hu => exact ⟨_, ha.follows hx (Or.inl hu)⟩
  | secondRejected ha hx hu hr =>
    obtain ⟨_, y, rfl, hy⟩ := hr.turned_down
    have hf := ha.follows_renewal hx hu hr fun token hm =>
      ((Exchange.brings_answered ..).mp hm).not_rejection hy
    exact ⟨_, hf⟩
  | secondUnavailable ha hx hu hr =>
    obtain ⟨_, y, rfl, hy⟩ := hr.in_trouble
    have hf := ha.follows_renewal hx hu hr fun token hm =>
      hy.not_mints token ((Exchange.brings_answered ..).mp hm)
    exact ⟨_, hf⟩
  | secondTokenless ha hx _ hr =>
    obtain ⟨rfl, ht, rfl⟩ := hr.nothing_sent
    exact ⟨_, ha.follows hx (Or.inr (ha.refreshToken ▸ ht))⟩
  | retried ha hx hu hr ht hl => exact ⟨_, ha.follows_retry hx hu hr ht hl⟩
  | leadDropped => exact absurd rfl he
  | firstDropped => exact absurd rfl he
  | secondDropped => exact absurd rfl he
  | retryDropped => exact absurd rfl he

/-- The result is the response to the last request, if that is no renewal and not answered 401. -/
theorem Called.done_iff (h : Called a r t e a') (x : Response) : e = .done x ↔
    x.status ≠ 401 ∧ ∃ y, t.legs.getLast? = some (.request, y) ∧ y.response? = some x := by
  cases h with
  | loggedOut => simp [CallTrace.legs_getLast?]
  | leadDropped => simp [CallTrace.legs_getLast?]
  | leadUnavailable => simp [CallTrace.legs_getLast?]
  | leadRejected => simp [CallTrace.legs_getLast?]
  | tokenless => simp [CallTrace.legs_getLast?]
  | firstDropped _ hx => simp [CallTrace.legs_getLast?, hx]
  | answered _ hx hu =>
    simp only [CallTrace.legs_getLast?, Ended.done.injEq]
    constructor
    · rintro rfl
      exact ⟨hu, _, rfl, hx⟩
    · rintro ⟨_, y, hy, hxy⟩
      cases hy
      rw [hx] at hxy
      cases hxy
      rfl
  | secondDropped _ _ _ hr =>
    cases hr
    simp [CallTrace.legs_getLast?]
  | secondRejected _ _ _ hr =>
    obtain ⟨_, y, rfl, _⟩ := hr.turned_down
    simp [CallTrace.legs_getLast?]
  | secondUnavailable _ _ _ hr =>
    obtain ⟨_, y, rfl, _⟩ := hr.in_trouble
    simp [CallTrace.legs_getLast?]
  | secondTokenless _ hx hu hr =>
    cases hr
    simp only [CallTrace.legs_getLast?, reduceCtorEq, false_iff]
    rintro ⟨hn, y, hy, hxy⟩
    cases hy
    rw [hx] at hxy
    cases hxy
    exact hn hu
  | retryDropped => simp [CallTrace.legs_getLast?]
  | @retried _ _ _ _ y =>
    simp only [CallTrace.legs_getLast?]
    constructor
    · intro he
      split at he
      · cases he
      · rename_i hy
        cases he
        exact ⟨fun hs => hy ((Response.isUnauthorized_iff x).mpr hs), _, rfl, rfl⟩
    · rintro ⟨hs, z, hz, hxz⟩
      cases hz
      cases hxz
      rw [if_neg fun hu => hs ((Response.isUnauthorized_iff x).mp hu)]

end Called

/-- A protected call that is not dropped sends what its account and the responses call for, and
its result is the response to the last request. -/
theorem authorizedCall_trace {a a' : Account} {r : Request} {e : Ended Response}
    (h : (authorizedCall r).run a = (e, a')) (hd : e ≠ .dropped) :
    ∃ (t : CallTrace) (held : Option String), t.Follows a r held a'.line ∧
      t.legs.map Prod.fst ∈ CallTrace.shapes ∧
      a'.line.sent = a.line.sent ++ t.exchanges.map Exchange.request ∧
      ∀ x, e = .done x ↔ x.status ≠ 401 ∧
        ∃ y, t.legs.getLast? = some (.request, y) ∧ y.response? = some x := by
  obtain ⟨t, hc⟩ := authorizedCall_cases h
  obtain ⟨held, hf⟩ := hc.follows hd
  exact ⟨t, held, hf, hf.shape, hf.carried.sent, hc.done_iff⟩

/-- A device that has logged in and whose access token is due by now. The line renews it, turns
the new one down, renews it once more and answers. -/
def stale : Account :=
  let new : Account := ⟨{ replies := [⟨⟨200, Wire.Tokens.toJson ⟨"a", "r"⟩⟩, 0, false⟩] },
    ⟨[(["cache"], .directory)]⟩, .ofDirectory ⟨["cache"]⟩, 240000, none⟩
  { Operation.after new (.login ⟨"fridge", "secret"⟩) with
    line := {
      now := 240000
      replies := [⟨⟨200, Wire.FreshToken.toJson ⟨"b"⟩⟩, 0, false⟩, ⟨⟨401, .null⟩, 0, false⟩,
        ⟨⟨200, Wire.FreshToken.toJson ⟨"c"⟩⟩, 0, false⟩, ⟨⟨200, .null⟩, 0, false⟩] } }

/-- All four requests are sent for it. -/
theorem authorizedCall_trace_stale :
    ((authorizedCall (.get "/api/client/orders")).run stale).1 ≠ .dropped ∧
    ∃ (t : CallTrace) (held : Option String),
      t.Follows stale (.get "/api/client/orders") held
        ((authorizedCall (.get "/api/client/orders")).run stale).2.line ∧
      t.legs.map Prod.fst = [.renewal, .request, .renewal, .request] := by
  have hd : ((authorizedCall (.get "/api/client/orders")).run stale).1 ≠ .dropped := by
    decide +kernel
  have hsent : ((authorizedCall (.get "/api/client/orders")).run stale).2.line.sent.length = 4 := by
    decide +kernel
  obtain ⟨t, held, hf, hs, hl, _⟩ := authorizedCall_trace (a := stale) (Prod.eta _).symm hd
  refine ⟨hd, t, held, hf, ?_⟩
  have hfour : (t.legs.map Prod.fst).length = 4 := by
    rw [hl] at hsent
    simpa [stale, CallTrace.exchanges] using hsent
  simp only [CallTrace.shapes, List.mem_cons, List.not_mem_nil, or_false] at hs
  rcases hs with hs | hs | hs | hs | hs | hs | hs | hs <;> rw [hs] at hfour
  case inr.inr.inr.inr.inr.inr.inr => exact hs
  all_goals cases hfour

end Account

end Larder
