import Larder.Proofs.Calls
import Larder.Proofs.Lines
import Larder.Session.Account

namespace Larder

namespace Response

/-- The service turns a token down. -/
def IsRejection (x : Response) : Prop := x.status = 401 ∨ x.status = 403

/-- A success with an access token that can be used. -/
def Mints (x : Response) (token : String) : Prop :=
  x.isSuccess = true ∧ Wire.FreshToken.decode.ofValue x.body = .ok ⟨token⟩ ∧ token ≠ ""

/-- No connection, a refusal that says nothing of the token, or a success without an access token
that can be used. -/
def IsTrouble (x : Response) : Prop :=
  x.status = 0 ∨ (x.isSuccess = false ∧ ¬ x.IsRejection) ∨ (x.isSuccess = true ∧ ∀ t, ¬ x.Mints t)

theorem isUnauthorized_iff (x : Response) : x.isUnauthorized = true ↔ x.status = 401 := by
  simp [isUnauthorized]

theorem IsRejection.not_success {x : Response} (h : x.IsRejection) : x.isSuccess = false := by
  rcases h with h | h <;> simp [isSuccess, h]

theorem Mints.not_rejection {x : Response} {t : String} (h : x.Mints t) : ¬ x.IsRejection := by
  intro hr
  rw [Mints, hr.not_success] at h
  cases h.1

theorem Mints.unique {x : Response} {t u : String} (h : x.Mints t) (h' : x.Mints u) : t = u := by
  have he := h.2.1.symm.trans h'.2.1
  cases he
  rfl

theorem IsTrouble.not_rejection {x : Response} (h : x.IsTrouble) : ¬ x.IsRejection := by
  rcases h with h | ⟨_, h⟩ | ⟨h, _⟩
  · rintro (hr | hr) <;> rw [h] at hr <;> cases hr
  · exact h
  · intro hr
    rw [hr.not_success] at h
    cases h

theorem IsTrouble.not_mints {x : Response} (h : x.IsTrouble) (t : String) : ¬ x.Mints t := by
  rcases h with h | ⟨h, _⟩ | ⟨_, h⟩
  · intro hm
    have hs := hm.1
    simp [isSuccess, h] at hs
  · intro hm
    rw [hm.1] at h
    cases h
  · exact h t

/-- A response that is no success fails with the kind of failure its status says. -/
theorem failure_kind (x : Response) (h : x.status ≠ 401) : x.failure.isUnauthorized = false := by
  unfold failure
  split
  · rfl
  · rfl

theorem failure_unauthorized {x : Response} (h : x.isUnauthorized = true) :
    ∃ m, x.failure = .unauthorized m := by
  have hs : x.status = 401 := by simpa [isUnauthorized] using h
  exact ⟨x.errorText?.getD "Unauthorized", by simp [failure, hs, noConnection]⟩

theorem failure_isNotAllowed (x : Response) : x.failure.isNotAllowed = false := by
  unfold failure
  repeat' split
  all_goals rfl

/-- What is wrong with the content of a response: it is no success, or its body is not what it
should be. -/
theorem content_error {α : Type} {d : Json.Decoder α} {x : Response} {f : Failure}
    (h : x.content d = .error f) :
    (x.isSuccess = false ∧ f = x.failure) ∨ (x.isSuccess = true ∧ ∃ m, f = .badReply m) := by
  unfold content success at h
  cases hs : x.isSuccess with
  | false =>
    simp only [hs, Bool.false_eq_true, ↓reduceIte] at h
    cases h
    exact Or.inl ⟨rfl, rfl⟩
  | true =>
    simp only [hs, ↓reduceIte] at h
    change (d.ofValue x.body).mapError (fun f => Failure.badReply f.message) = .error f at h
    cases hd : d.ofValue x.body with
    | error e =>
      rw [hd] at h
      cases h
      exact Or.inr ⟨rfl, _, rfl⟩
    | ok a =>
      rw [hd] at h
      cases h

theorem content_isNotAllowed {α : Type} {d : Json.Decoder α} {x : Response} {f : Failure}
    (h : x.content d = .error f) : f.isNotAllowed = false := by
  rcases content_error h with ⟨_, rfl⟩ | ⟨_, m, rfl⟩
  · exact failure_isNotAllowed x
  · rfl

theorem content_ok {α : Type} {d : Json.Decoder α} {x : Response} {a : α}
    (h : x.content d = .ok a) : x.isSuccess = true ∧ d.ofValue x.body = .ok a := by
  unfold content success at h
  cases hs : x.isSuccess with
  | false =>
    simp only [hs, Bool.false_eq_true, ↓reduceIte] at h
    cases h
  | true =>
    simp only [hs, ↓reduceIte] at h
    change (d.ofValue x.body).mapError (fun f => Failure.badReply f.message) = .ok a at h
    cases hd : d.ofValue x.body with
    | error e =>
      rw [hd] at h
      cases h
    | ok b =>
      rw [hd] at h
      cases h
      exact ⟨rfl, rfl⟩

theorem content_of_ok {α : Type} {d : Json.Decoder α} {x : Response} {a : α}
    (hs : x.isSuccess = true) (hd : d.ofValue x.body = .ok a) : x.content d = .ok a := by
  unfold content success
  rw [if_pos hs]
  change (d.ofValue x.body).mapError (fun f => Failure.badReply f.message) = .ok a
  rw [hd]
  rfl

end Response

namespace Account

/-- The request that exchanges a refresh token for an access token. -/
def refreshRequest (token : String) : Request := (Request.post refreshPath).withBearer token

/-- A call that begins with a request: the response comes and the rest goes on from there, or the
call is dropped. -/
theorem send_bind_cases {α : Type} {r : Request} {f : Response → Call Account α}
    {a a' : Account} {e : Ended α} (h : (send r >>= f).run a = (e, a')) :
    (∃ x l, a.line.send r = (some x, l) ∧ (f x).run { a with line := l } = (e, a')) ∨
    (∃ l, a.line.send r = (none, l) ∧ e = .dropped ∧ a' = { a with line := l }) := by
  rcases Call.wait_bind_cases h with ⟨x, b, hw, hf⟩ | ⟨hw, rfl⟩
  · obtain ⟨hx, rfl⟩ := Prod.mk.inj hw
    exact Or.inl ⟨x, _, Prod.ext hx rfl, hf⟩
  · obtain ⟨hx, rfl⟩ := Prod.mk.inj hw
    exact Or.inr ⟨_, Prod.ext hx rfl, rfl, rfl⟩

/-- The three things that a refresh reply can say. -/
inductive Verdict (x : Response) : Except RefreshResult String → Prop where
  | rejected {m : String} (hx : x.IsRejection) : Verdict x (.error (.rejected m))
  | unavailable {f : Failure} (hx : x.IsTrouble) (hf : f.isUnauthorized = false)
      (hn : f.isNotAllowed = false) : Verdict x (.error (.unavailable f))
  | minted {token : String} (hx : x.Mints token) : Verdict x (.ok token)

theorem freshToken_verdict (x : Response) : Verdict x (freshToken x) := by
  unfold freshToken
  split
  · rename_i hr
    exact .rejected hr
  · rename_i hr
    cases hc : x.content Wire.FreshToken.decode with
    | error f =>
      rcases Response.content_error hc with ⟨hs, rfl⟩ | ⟨hs, m, rfl⟩
      · exact .unavailable (Or.inr (Or.inl ⟨hs, hr⟩))
          (Response.failure_kind x fun he => hr (Or.inl he)) (Response.failure_isNotAllowed x)
      · refine .unavailable (Or.inr (Or.inr ⟨hs, ?_⟩)) rfl rfl
        rintro t ⟨_, hd, _⟩
        rw [Response.content_of_ok hs hd] at hc
        cases hc
    | ok t =>
      obtain ⟨hs, hd⟩ := Response.content_ok hc
      dsimp only
      split
      · rename_i he
        refine .unavailable (Or.inr (Or.inr ⟨hs, ?_⟩)) rfl rfl
        rintro u ⟨_, hd', hu⟩
        rw [hd] at hd'
        cases hd'
        exact hu (by simpa using he)
      · rename_i he
        exact .minted ⟨hs, hd, by simpa using he⟩

@[simp] theorem hold_line (a : Account) (s : Session) : (a.hold s).line = a.line := by
  unfold hold keep
  split <;> rfl

@[simp] theorem hold_vault (a : Account) (s : Session) : (a.hold s).vault = a.vault := by
  unfold hold keep
  split <;> rfl

@[simp] theorem hold_refreshInterval (a : Account) (s : Session) :
    (a.hold s).refreshInterval = a.refreshInterval := by
  unfold hold keep
  split <;> rfl

/-- A new access token is held, and the credential is saved once more. -/
theorem withAccessToken_eq {a : Account} {s : Session} {token : String} (access : String)
    (hs : a.session = some s) (ht : s.refreshToken = some token) :
    a.withAccessToken access = { a with
      disk := (a.vault.save ⟨s.deviceId, token⟩ a.disk).2
      session := some (s.withAccessToken access a.line.now) } := by
  simp [withAccessToken, hs, hold, keep, Session.credential?, Session.withAccessToken, ht]

/-- How an attempt to renew the access token goes, with the exchange that it takes. -/
inductive Renewed (a : Account) : Option Exchange → Ended RefreshResult → Account → Prop where
  | tokenless (ht : a.refreshToken? = none) : Renewed a none (.done .noRefreshToken) a
  | unanswered {s : Session} {token : String} {l : Line} (hs : a.session = some s)
      (ht : s.refreshToken = some token) (hl : a.line.send (refreshRequest token) = (none, l)) :
      Renewed a (some ⟨refreshRequest token, none⟩) .dropped { a with line := l }
  | rejected {s : Session} {token m : String} {x : Response} {l : Line} (hs : a.session = some s)
      (ht : s.refreshToken = some token) (hl : a.line.send (refreshRequest token) = (some x, l))
      (hx : x.IsRejection) :
      Renewed a (some ⟨refreshRequest token, some x⟩) (.done (.rejected m)) { a with line := l }
  | unavailable {s : Session} {token : String} {f : Failure} {x : Response} {l : Line}
      (hs : a.session = some s) (ht : s.refreshToken = some token)
      (hl : a.line.send (refreshRequest token) = (some x, l)) (hx : x.IsTrouble)
      (hf : f.isUnauthorized = false) (hn : f.isNotAllowed = false) :
      Renewed a (some ⟨refreshRequest token, some x⟩) (.done (.unavailable f)) { a with line := l }
  | refreshed {s : Session} {token access : String} {x : Response} {l : Line}
      (hs : a.session = some s) (ht : s.refreshToken = some token)
      (hl : a.line.send (refreshRequest token) = (some x, l)) (hx : x.Mints access) :
      Renewed a (some ⟨refreshRequest token, some x⟩) (.done .refreshed)
        { a with
          line := l
          disk := (a.vault.save ⟨s.deviceId, token⟩ a.disk).2
          session := some (s.withAccessToken access l.now) }

theorem renew_cases {a a' : Account} {e : Ended RefreshResult} (h : renew.run a = (e, a')) :
    ∃ x, Renewed a x e a' := by
  unfold renew at h
  rw [Call.run_view_bind] at h
  cases ht : a.refreshToken? with
  | none =>
    rw [ht] at h
    cases h
    exact ⟨none, .tokenless ht⟩
  | some token =>
    obtain ⟨s, hs, hst⟩ := Option.bind_eq_some_iff.mp ht
    rw [ht] at h
    dsimp only at h
    rcases send_bind_cases h with ⟨x, l, hl, h⟩ | ⟨l, hl, rfl, rfl⟩
    · have hv := freshToken_verdict x
      cases hx : freshToken x with
      | error result =>
        rw [hx] at h hv
        cases h
        cases hv with
        | rejected hr => exact ⟨_, .rejected hs hst hl hr⟩
        | unavailable hr hf hn => exact ⟨_, .unavailable hs hst hl hr hf hn⟩
      | ok access =>
        rw [hx] at h hv
        cases h
        cases hv with
        | minted hm =>
          rw [withAccessToken_eq (a := { a with line := l }) access hs hst]
          exact ⟨_, .refreshed hs hst hl hm⟩
    · exact ⟨_, .unanswered hs hst hl⟩

section Renewed

variable {a a' : Account} {x : Option Exchange} {e : Ended RefreshResult}

theorem Renewed.refreshToken (h : Renewed a x e a') : a'.refreshToken? = a.refreshToken? := by
  cases h <;> simp_all [refreshToken?, Session.withAccessToken]

/-- Something is sent just when there is a refresh token to send. -/
theorem Renewed.isSome_iff (h : Renewed a x e a') : x.isSome ↔ a.refreshToken?.isSome := by
  cases h <;> simp_all [refreshToken?]

theorem Renewed.request {y : Exchange} (h : Renewed a x e a') (hx : x = some y) :
    ∃ token, a.refreshToken? = some token ∧ y.request = refreshRequest token := by
  cases h <;> cases hx <;> simp_all [refreshToken?]

theorem Renewed.carries (h : Renewed a x e a') : a.line.Carries x.toList a'.line := by
  cases h with
  | tokenless => exact .nil _
  | unanswered _ _ hl => exact .unanswered hl
  | rejected _ _ hl => exact .answered hl (.nil _)
  | unavailable _ _ hl => exact .answered hl (.nil _)
  | refreshed _ _ hl => exact .answered hl (.nil _)

theorem Renewed.answered {y : Exchange} (h : Renewed a x e a') (he : e ≠ .dropped)
    (hx : x = some y) : y.response?.isSome := by
  cases h <;> cases hx <;> first | rfl | exact absurd rfl he

theorem Renewed.minted (h : Renewed a x (.done .refreshed) a') :
    ∃ token, Exchange.Brings x (·.Mints token) ∧ a'.accessToken? = some token := by
  cases h with
  | refreshed _ _ _ hx => exact ⟨_, (Exchange.brings_answered ..).mpr hx, rfl⟩

theorem Renewed.turned_down {m : String} (h : Renewed a x (.done (.rejected m)) a') :
    Exchange.Brings x Response.IsRejection := by
  cases h with
  | rejected _ _ _ hx => exact (Exchange.brings_answered ..).mpr hx

theorem Renewed.in_trouble {f : Failure} (h : Renewed a x (.done (.unavailable f)) a') :
    Exchange.Brings x Response.IsTrouble := by
  cases h with
  | unavailable _ _ _ hx => exact (Exchange.brings_answered ..).mpr hx

theorem Renewed.trouble_kind {f : Failure} (h : Renewed a x (.done (.unavailable f)) a') :
    f.isUnauthorized = false ∧ f.isNotAllowed = false := by
  cases h with
  | unavailable _ _ _ _ hf hn => exact ⟨hf, hn⟩

theorem Renewed.nothing_sent (h : Renewed a x (.done .noRefreshToken) a') :
    x = none ∧ a.refreshToken? = none ∧ a' = a := by
  cases h with
  | tokenless ht => exact ⟨rfl, ht, rfl⟩

end Renewed

/-- The access token after an exchange: the one that it mints, or else the one before. -/
inductive TokenAfter (before : Option String) (x : Option Exchange) : Option String → Prop where
  | minted {token : String} (hx : Exchange.Brings x (·.Mints token)) :
      TokenAfter before x (some token)
  | kept (hx : ∀ token, ¬ Exchange.Brings x (·.Mints token)) : TokenAfter before x before

theorem Renewed.tokenAfter {a a' : Account} {x : Option Exchange} {e : Ended RefreshResult}
    (h : Renewed a x e a') : TokenAfter a.accessToken? x a'.accessToken? := by
  cases h with
  | tokenless => exact .kept (by simp)
  | unanswered => exact .kept (by simp)
  | rejected _ _ _ hx =>
    have hn : ∀ t, ¬ Response.Mints _ t := fun t ht => ht.not_rejection hx
    exact .kept (by simpa using hn)
  | unavailable _ _ _ hx => exact .kept (by simpa using hx.not_mints)
  | refreshed _ _ _ hx => exact .minted ((Exchange.brings_answered ..).mpr hx)

end Account

end Larder
