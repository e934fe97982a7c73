import Larder.Proofs.Renewals

namespace Larder

/-- What a protected call sent, each request in its place if it was sent at all. -/
structure CallTrace where
  lead : Option Exchange := none
  first : Option Exchange := none
  second : Option Exchange := none
  retry : Option Exchange := none

namespace Account

/-- How the renewal before a request goes, which is made only when it is due. -/
inductive Led (a : Account) : Option Exchange → Ended (Option RefreshResult) → Account → Prop where
  | notDue (hd : a.refreshDue = false) : Led a none (.done none) a
  | due {x : Option Exchange} {result : RefreshResult} {a' : Account}
      (hd : a.refreshDue = true) (hr : Renewed a x (.done result) a') :
      Led a x (.done (some result)) a'
  | dropped {x : Option Exchange} {a' : Account} (hd : a.refreshDue = true)
      (hr : Renewed a x .dropped a') : Led a x .dropped a'

theorem renewIfDue_cases {a a' : Account} {e : Ended (Option RefreshResult)}
    (h : renewIfDue.run a = (e, a')) : ∃ x, Led a x e a' := by
  unfold renewIfDue at h
  rw [Call.run_view_bind] at h
  cases hd : a.refreshDue with
  | false =>
    rw [hd] at h
    cases h
    exact ⟨none, .notDue hd⟩
  | true =>
    rw [hd, if_pos rfl] at h
    rcases Call.bind_cases h with ⟨result, a₁, hr, h⟩ | ⟨f, hr, _⟩ | ⟨hr, rfl⟩
    · cases h
      obtain ⟨x, hx⟩ := renew_cases hr
      exact ⟨x, .due hd hx⟩
    · obtain ⟨x, hx⟩ := renew_cases hr
      cases hx
    · obtain ⟨x, hx⟩ := renew_cases hr
      exact ⟨x, .dropped hd hx⟩

/-- The renewal before a request is over, and the request has gone out with the access token that
is held then. -/
structure Asked (a : Account) (r : Request) (lead : Option Exchange) (first : Exchange)
    (a' : Account) where
  {proactive : Option RefreshResult}
  {middle : Account}
  {token : String}
  {line : Line}
  ran : renewIfDue.run a = (.done proactive, middle)
  led : Led a lead (.done proactive) middle
  held : middle.accessToken? = some token
  sent : middle.line.send (r.withBearer token) = (first.response?, line)
  request : first.request = r.withBearer token
  after : a' = { middle with line }

/-- How a protected call goes. -/
inductive Called (a : Account) (r : Request) : CallTrace → Ended Response → Account → Prop where
  | loggedOut (hs : a.session = none) :
      Called a r {} (.failed (.unauthorized "Not logged in")) a
  | leadDropped {lead : Option Exchange} {a' : Account} (hs : a.session.isSome)
      (hl : Led a lead .dropped a') : Called a r { lead } .dropped a'
  | leadUnavailable {lead : Option Exchange} {f : Failure} {a' : Account} (hs : a.session.isSome)
      (ran : renewIfDue.run a = (.done (some (.unavailable f)), a'))
      (hl : Led a lead (.done (some (.unavailable f))) a') (ht : a'.accessToken? = none) :
      Called a r { lead } (.failed f) a'
  | leadRejected {lead : Option Exchange} {m : String} {a' : Account} (hs : a.session.isSome)
      (ran : renewIfDue.run a = (.done (some (.rejected m)), a'))
      (hl : Led a lead (.done (some (.rejected m))) a') (ht : a'.accessToken? = none) :
      Called a r { lead } (.failed sessionExpired) a'.discard
  | tokenless {lead : Option Exchange} {p : Option RefreshResult} {a' : Account}
      (hs : a.session.isSome) (ran : renewIfDue.run a = (.done p, a'))
      (hl : Led a lead (.done p) a') (ht : a'.accessToken? = none)
      (hp : p = none ∨ p = some .noRefreshToken ∨ p = some .refreshed) :
      Called a r { lead } (.failed sessionExpired) a'
  | firstDropped {lead : Option Exchange} {first : Exchange} {a' : Account}
      (ha : Asked a r lead first a') (hx : first.response? = none) :
      Called a r { lead, first := some first } .dropped a'
  | answered {lead : Option Exchange} {first : Exchange} {x : Response} {a' : Account}
      (ha : Asked a r lead first a') (hx : first.response? = some x) (hu : x.status ≠ 401) :
      Called a r { lead, first := some first } (.done x) a'
  | secondDropped {lead second : Option Exchange} {first : Exchange} {x : Response}
      {a₁ a' : Account} (ha : Asked a r lead first a₁) (hx : first.response? = some x)
      (hu : x.status = 401) (hr : Renewed a₁ second .dropped a') :
      Called a r { lead, first := some first, second } .dropped a'
  | secondRejected {lead second : Option Exchange} {first : Exchange} {x : Response} {m : String}
      {a₁ a' : Account} (ha : Asked a r lead first a₁) (hx : first.response? = some x)
      (hu : x.status = 401) (hr : Renewed a₁ second (.done (.rejected m)) a') :
      Called a r { lead, first := some first, second } (.failed sessionExpired) a'.discard
  | secondUnavailable {lead second : Option Exchange} {first : Exchange} {x : Response}
      {f : Failure} {a₁ a' : Account} (ha : Asked a r lead first a₁)
      (hx : first.response? = some x) (hu : x.status = 401)
      (hr : Renewed a₁ second (.done (.unavailable f)) a') :
      Called a r { lead, first := some first, second } (.failed f) a'
  | secondTokenless {lead second : Option Exchange} {first : Exchange} {x : Response}
      {a₁ a' : Account} (ha : Asked a r lead first a₁) (hx : first.response? = some x)
      (hu : x.status = 401) (hr : Renewed a₁ second (.done .noRefreshToken) a') :
      Called a r { lead, first := some first, second } (.failed x.failure) a'
  | retryDropped {lead second : Option Exchange} {first : Exchange} {x : Response}
      {token : String} {a₁ a₂ : Account} {l : Line} (ha : Asked a r lead first a₁)
      (hx : first.response? = some x) (hu : x.status = 401)
      (hr : Renewed a₁ second (.done .refreshed) a₂) (ht : a₂.accessToken? = some token)
      (hl : a₂.line.send (r.withBearer token) = (none, l)) :
      Called a r { lead, first := some first, second, retry := some ⟨r.withBearer token, none⟩ }
        .dropped { a₂ with line := l }
  | retried {lead second : Option Exchange} {first : Exchange} {x y : Response}
      {token : String} {a₁ a₂ : Account} {l : Line} (ha : Asked a r lead first a₁)
      (hx : first.response? = some x) (hu : x.status = 401)
      (hr : Renewed a₁ second (.done .refreshed) a₂) (ht : a₂.accessToken? = some token)
      (hl : a₂.line.send (r.withBearer token) = (some y, l)) :
      Called a r { lead, first := some first, second, retry := some ⟨r.withBearer token, some y⟩ }
        (if y.isUnauthorized then .failed y.failure else .done y) { a₂ with line := l }

/-- The access token for a request is the one that is held, and without one the renewal says why
there is none. -/
theorem token_cases {p : Option RefreshResult} {a a' : Account} {e : Ended String}
    (h : (token p).run a = (e, a')) :
    (∃ t, a.accessToken? = some t ∧ e = .done t ∧ a' = a) ∨
    (a.accessToken? = none ∧
      ((∃ f, p = some (.unavailable f) ∧ e = .failed f ∧ a' = a) ∨
       (∃ m, p = some (.rejected m) ∧ e = .failed sessionExpired ∧ a' = a.discard) ∨
       ((p = none ∨ p = some .noRefreshToken ∨ p = some .refreshed) ∧
         e = .failed sessionExpired ∧ a' = a))) := by
  unfold token at h
  rw [Call.run_view_bind] at h
  cases ht : a.accessToken? with
  | some t =>
    rw [ht] at h
    cases h
    exact Or.inl ⟨t, rfl, rfl, rfl⟩
  | none =>
    rw [ht] at h
    refine Or.inr ⟨rfl, ?_⟩
    cases p with
    | none =>
      cases h
      exact Or.inr (Or.inr ⟨Or.inl rfl, rfl, rfl⟩)
    | some result =>
      cases result with
      | refreshed =>
        cases h
        exact Or.inr (Or.inr ⟨Or.inr (Or.inr rfl), rfl, rfl⟩)
      | rejected m =>
        cases h
        exact Or.inr (Or.inl ⟨m, rfl, rfl, rfl⟩)
      | unavailable f =>
        cases h
        exact Or.inl ⟨f, rfl, rfl, rfl⟩
      | noRefreshToken =>
        cases h
        exact Or.inr (Or.inr ⟨Or.inr (Or.inl rfl), rfl, rfl⟩)

/-- The part of a protected call after a request that was answered 401. -/
theorem retry_cases {a a₁ a' : Account} {r : Request} {x : Response} {e : Ended Response}
    {lead : Option Exchange} {first : Exchange} (ha : Asked a r lead first a₁)
    (hx : first.response? = some x) (hu : x.status = 401) (h : (retry r x).run a₁ = (e, a')) :
    ∃ t, Called a r t e a' := by
  unfold retry at h
  rcases Call.bind_cases h with ⟨result, a₂, hr, h⟩ | ⟨f, hr, _⟩ | ⟨hr, rfl⟩
  · obtain ⟨second, hr⟩ := renew_cases hr
    cases result with
    | rejected m =>
      cases h
      exact ⟨_, .secondRejected ha hx hu hr⟩
    | unavailable f =>
      cases h
      exact ⟨_, .secondUnavailable ha hx hu hr⟩
    | noRefreshToken =>
      cases h
      exact ⟨_, .secondTokenless ha hx hu hr⟩
    | refreshed =>
      dsimp only at h
      rw [Call.run_view_bind] at h
      cases ht : a₂.accessToken? with
      | none =>
        cases hr
        simp [accessToken?, Session.withAccessToken] at ht
      | some token =>
        rw [ht] at h
        rcases send_bind_cases h with ⟨y, l, hl, hy⟩ | ⟨l, hl, rfl, rfl⟩
        · have hc := Called.retried ha hx hu hr ht hl
          cases hyu : y.isUnauthorized <;> rw [hyu] at hy hc <;> cases hy <;> exact ⟨_, hc⟩
        · exact ⟨_, .retryDropped ha hx hu hr ht hl⟩
  · obtain ⟨second, hr⟩ := renew_cases hr
    cases hr
  · obtain ⟨second, hr⟩ := renew_cases hr
    exact ⟨_, .secondDropped ha hx hu hr⟩

/-- The part of a protected call after the renewal that was due. -/
theorem request_cases {a a₁ a' : Account} {r : Request} {e : Ended Response}
    {lead : Option Exchange} {p : Option RefreshResult} (hs : a.session.isSome)
    (hran : renewIfDue.run a = (.done p, a₁)) (hl : Led a lead (.done p) a₁)
    (h : (token p >>= fun t => send (r.withBearer t) >>= fun x =>
      if x.isUnauthorized then retry r x else Pure.pure x).run a₁ = (e, a')) :
    ∃ t, Called a r t e a' := by
  rcases Call.bind_cases h with ⟨t, a₂, ht, h₂⟩ | ⟨f, ht, rfl⟩ | ⟨ht, rfl⟩
  all_goals rcases token_cases ht with ⟨u, hu, he, rfl⟩ |
      ⟨hn, ⟨g, rfl, he, rfl⟩ | ⟨m, rfl, he, rfl⟩ | ⟨hp, he, rfl⟩⟩
  all_goals cases he
  · rcases send_bind_cases h₂ with ⟨x, l, hline, hx⟩ | ⟨l, hline, rfl, rfl⟩
    · have ha : Asked a r lead ⟨r.withBearer t, some x⟩ { a₂ with line := l } :=
        ⟨hran, hl, hu, hline, rfl, rfl⟩
      cases hxu : x.isUnauthorized with
      | true =>
        rw [hxu] at hx
        exact retry_cases ha rfl ((Response.isUnauthorized_iff x).mp hxu) hx
      | false =>
        rw [hxu] at hx
        cases hx
        refine ⟨_, .answered ha rfl fun hs => ?_⟩
        rw [(Response.isUnauthorized_iff x).mpr hs] at hxu
        cases hxu
    · have ha : Asked a r lead ⟨r.withBearer t, none⟩ { a₂ with line := l } :=
        ⟨hran, hl, hu, hline, rfl, rfl⟩
      exact ⟨_, .firstDropped ha rfl⟩
  · exact ⟨_, .leadUnavailable hs hran hl hn⟩
  · exact ⟨_, .leadRejected hs hran hl hn⟩
  · exact ⟨_, .tokenless hs hran hl hn hp⟩

theorem authorizedCall_cases {a a' : Account} {r : Request} {e : Ended Response}
    (h : (authorizedCall r).run a = (e, a')) : ∃ t, Called a r t e a' := by
  unfold authorizedCall at h
  rw [Call.run_view_bind] at h
  cases hs : a.session with
  | none =>
    rw [hs] at h
    cases h
    exact ⟨_, .loggedOut hs⟩
  | some s =>
    have hsome : a.session.isSome := by simp [hs]
    rw [hs] at h
    change (renewIfDue >>= _).run a = (e, a') at h
    rcases Call.bind_cases h with ⟨p, a₁, hran, h₁⟩ | ⟨f, hran, _⟩ | ⟨hran, rfl⟩
    all_goals obtain ⟨lead, hl⟩ := renewIfDue_cases hran
    · exact request_cases hsome hran hl h₁
    · cases hl
    · exact ⟨_, .leadDropped hsome hl⟩

section Invariant

variable {P : Account → Prop} {a a' : Account} {r : Request} {lead : Option Exchange}

theorem Led.invariant {e : Ended (Option RefreshResult)}
    (hrenew : ∀ {a x e a'}, Renewed a x e a' → P a → P a') (h : Led a lead e a') (ha : P a) :
    P a' := by
  cases h with
  | notDue => exact ha
  | due _ hr => exact hrenew hr ha
  | dropped _ hr => exact hrenew hr ha

theorem Asked.invariant {first : Exchange} (hline : ∀ {a} line, P a → P { a with line })
    (hrenew : ∀ {a x e a'}, Renewed a x e a' → P a → P a') (h : Asked a r lead first a')
    (ha : P a) : P a' := by
  rw [h.after]
  exact hline h.line (h.led.invariant hrenew ha)

/-- A protected call renews, sends and discards, and does nothing else to the account. -/
theorem Called.invariant {t : CallTrace} {e : Ended Response}
    (hline : ∀ {a} line, P a → P { a with line })
    (hrenew : ∀ {a x e a'}, Renewed a x e a' → P a → P a')
    (hdiscard : ∀ {a}, P a → P a.discard) (h : Called a r t e a') (ha : P a) : P a' := by
  cases h with
  | loggedOut => exact ha
  | leadDropped _ hl => exact hl.invariant hrenew ha
  | leadUnavailable _ _ hl => exact hl.invariant hrenew ha
  | leadRejected _ _ hl => exact hdiscard (hl.invariant hrenew ha)
  | tokenless _ _ hl => exact hl.invariant hrenew ha
  | firstDropped hf => exact hf.invariant hline hrenew ha
  | answered hf => exact hf.invariant hline hrenew ha
  | secondDropped hf _ _ hr => exact hrenew hr (hf.invariant hline hrenew ha)
  | secondRejected hf _ _ hr => exact hdiscard (hrenew hr (hf.invariant hline hrenew ha))
  | secondUnavailable hf _ _ hr => exact hrenew hr (hf.invariant hline hrenew ha)
  | secondTokenless hf _ _ hr => exact hrenew hr (hf.invariant hline hrenew ha)
  | retryDropped hf _ _ hr => exact hline _ (hrenew hr (hf.invariant hline hrenew ha))
  | retried hf _ _ hr => exact hline _ (hrenew hr (hf.invariant hline hrenew ha))

end Invariant

/-- A protected call is never told that its state does not allow it. -/
theorem authorizedCall_isNotAllowed {a a' : Account} {r : Request} {x : Failure}
    (h : (authorizedCall r).run a = (.failed x, a')) : x.isNotAllowed = false := by
  obtain ⟨t, hc⟩ := authorizedCall_cases h
  generalize he : (Ended.failed x : Ended Response) = e at hc
  cases hc with
  | loggedOut =>
    cases he
    rfl
  | leadUnavailable _ _ hl =>
    cases he
    cases hl with
    | due _ hr => exact hr.trouble_kind.2
  | leadRejected =>
    cases he
    rfl
  | tokenless =>
    cases he
    rfl
  | secondRejected =>
    cases he
    rfl
  | secondUnavailable _ _ _ hr =>
    cases he
    exact hr.trouble_kind.2
  | secondTokenless =>
    cases he
    exact Response.failure_isNotAllowed _
  | retried =>
    split at he <;> cases he
    exact Response.failure_isNotAllowed _
  | _ => cases he

section Finishes

theorem send_finishes (r : Request) : Call.Finishes (fun a => a.line.Attended) (send r) := by
  refine Call.Finishes.wait fun a o a' ha h => ?_
  cases h
  exact ha.send rfl

theorem withAccessToken_line (token : String) (a : Account) :
    (a.withAccessToken token).line = a.line := by
  unfold withAccessToken
  split
  · unfold hold keep
    split <;> rfl
  · rfl

theorem renew_finishes : Call.Finishes (fun a => a.line.Attended) renew := by
  refine (Call.Finishes.view _).bind fun token => ?_
  cases token with
  | none => exact .pure _
  | some token =>
    refine (send_finishes _).bind fun response => ?_
    split
    · exact .pure _
    · refine Call.Finishes.bind (.modify fun a ha => ?_) fun _ => .pure _
      rwa [withAccessToken_line]

theorem expire_finishes {α : Type} :
    Call.Finishes (fun a => a.line.Attended) (expire : Call Account α) := by
  unfold expire
  exact Call.Finishes.bind (.modify fun _ ha => ha) fun _ => .fail _

theorem token_finishes (p : Option RefreshResult) :
    Call.Finishes (fun a => a.line.Attended) (token p) := by
  refine (Call.Finishes.view _).bind fun held => ?_
  split
  · exact .pure _
  · exact .fail _
  · exact expire_finishes
  · exact .fail _

theorem retry_finishes (r : Request) (x : Response) :
    Call.Finishes (fun a => a.line.Attended) (retry r x) := by
  refine renew_finishes.bind fun result => ?_
  cases result with
  | rejected m => exact expire_finishes
  | unavailable f => exact .fail f
  | noRefreshToken => exact .fail _
  | refreshed =>
    refine (Call.Finishes.view _).bind fun held => ?_
    cases held with
    | none => exact .fail _
    | some token =>
      refine (send_finishes _).bind fun response => ?_
      split
      · exact .fail _
      · exact .pure _

/-- A protected call comes to an end when every request is answered. -/
theorem authorizedCall_finishes (r : Request) :
    Call.Finishes (fun a => a.line.Attended) (authorizedCall r) := by
  refine (Call.Finishes.view _).bind fun held => ?_
  split
  · exact .fail _
  · have hlead : Call.Finishes (fun a => a.line.Attended) renewIfDue := by
      refine (Call.Finishes.view _).bind fun due => ?_
      split
      · exact renew_finishes.bind fun _ => .pure _
      · exact .pure _
    refine hlead.bind fun p => (token_finishes p).bind fun t => (send_finishes _).bind fun x => ?_
    split
    · exact retry_finishes r x
    · exact .pure x

end Finishes

end Account

end Larder
