import Larder.Proofs.CallTraces

namespace Larder

/-- What stays the same as long as a session lasts. -/
def Session.identity (s : Session) : String × Option String := (s.deviceId, s.refreshToken)

namespace Account

/-- The vault holds the credential of the session. -/
def Cached (a : Account) : Prop := ∀ s token, a.session = some s → s.refreshToken = some token →
  a.disk.read a.vault.route = .ok (Storage.Credential.fileText ⟨s.deviceId, token⟩)

end Account

namespace CallTrace

/-- The service turned the refresh token down when the call could not go on without a new access
token. -/
def EndsSession (t : CallTrace) (a : Account) : Prop :=
  (a.accessToken? = none ∧ Exchange.Brings t.lead Response.IsRejection) ∨
  (Exchange.Brings t.first (·.status = 401) ∧ Exchange.Brings t.second Response.IsRejection)

/-- There is no session, or the service lets nothing through that it can be shown. -/
def IsUnauthorized (t : CallTrace) (a : Account) : Prop :=
  a.session = none ∨
  (a.accessToken? = none ∧ Exchange.Brings t.lead Response.IsRejection) ∨
  (Exchange.Brings t.first (·.status = 401) ∧
    (a.refreshToken? = none ∨ Exchange.Brings t.second Response.IsRejection ∨
      ((∃ token, Exchange.Brings t.second (·.Mints token)) ∧
        Exchange.Brings t.retry (·.status = 401))))

/-- A renewal that the call could not go on without came to nothing. -/
def IsInTrouble (t : CallTrace) (a : Account) : Prop :=
  (a.accessToken? = none ∧ Exchange.Brings t.lead Response.IsTrouble) ∨
  (Exchange.Brings t.first (·.status = 401) ∧ Exchange.Brings t.second Response.IsTrouble)

/-- The session goes on, with the newest access token, and so does the cache. -/
structure Keeps (t : CallTrace) (a : Account) (held : Option String) (a' : Account) : Prop where
  identity : a'.session.map Session.identity = a.session.map Session.identity
  accessToken : Account.TokenAfter held t.second a'.accessToken?
  untouched : (∀ token, ¬ Exchange.Brings t.lead (·.Mints token) ∧
    ¬ Exchange.Brings t.second (·.Mints token)) → a'.session = a.session ∧ a'.disk = a.disk
  cached : ∀ token, Exchange.Brings t.lead (·.Mints token) ∨
    Exchange.Brings t.second (·.Mints token) → a'.Cached

/-- What a protected call comes to. -/
structure Settles (t : CallTrace) (a : Account) (held : Option String) (e : Ended Response)
    (a' : Account) : Prop where
  unauthorized : (∃ m, e = .failed (.unauthorized m)) ↔ t.IsUnauthorized a
  trouble : (∃ f, e = .failed f ∧ f.isUnauthorized = false) ↔ t.IsInTrouble a
  ended : a.session.isSome → (a'.session = none ↔ t.EndsSession a)
  deleted : t.EndsSession a → a'.vault.isThere a'.disk = false
  kept : ¬ t.EndsSession a → t.Keeps a held a'

end CallTrace

namespace Account

/-- What an exchange that may mint an access token leaves of an account. -/
structure Kept (a : Account) (x : Option Exchange) (a' : Account) : Prop where
  identity : a'.session.map Session.identity = a.session.map Session.identity
  vault : a'.vault = a.vault
  leads : a.vault.Leads a.disk a'.disk
  untouched : (∀ token, ¬ Exchange.Brings x (·.Mints token)) →
    a'.session = a.session ∧ a'.disk = a.disk
  cached : a.vault.ServedBy a.disk → ∀ token, Exchange.Brings x (·.Mints token) → a'.Cached

theorem Kept.unminted {a : Account} {x : Option Exchange} (line : Line)
    (hx : ∀ token, ¬ Exchange.Brings x (·.Mints token)) : Kept a x { a with line } where
  identity := rfl
  vault := rfl
  leads := .here
  untouched _ := ⟨rfl, rfl⟩
  cached _ token hm := absurd hm (hx token)

theorem Kept.line {a : Account} (line : Line) : Kept a none { a with line } :=
  .unminted line (by simp)

theorem Renewed.kept {a a' : Account} {x : Option Exchange} {e : Ended RefreshResult}
    (h : Renewed a x e a') : Kept a x a' := by
  cases h with
  | tokenless => exact .line a.line
  | unanswered => exact .unminted _ (by simp)
  | rejected _ _ _ hx =>
    have hn : ∀ t, ¬ Response.Mints _ t := fun t ht => ht.not_rejection hx
    exact .unminted _ (by simpa using hn)
  | unavailable _ _ _ hx => exact .unminted _ (by simpa using hx.not_mints)
  | @refreshed s token access x l hs ht hl hx =>
    exact {
      identity := by simp [hs, Session.identity, Session.withAccessToken]
      vault := rfl
      leads := .save _ .here
      untouched := fun hn => absurd ((Exchange.brings_answered ..).mpr hx) (hn access)
      cached := by
        intro hv _ _ s' token' hs' ht'
        cases hs'
        rw [show s.refreshToken = some token' from ht'] at ht
        cases ht
        exact hv.read_save _ }

theorem Led.kept {a a' : Account} {x : Option Exchange} {e : Ended (Option RefreshResult)}
    (h : Led a x e a') : Kept a x a' := by
  cases h with
  | notDue => exact .line a.line
  | due _ hr => exact hr.kept
  | dropped _ hr => exact hr.kept

theorem Kept.then_line {a a' : Account} {x : Option Exchange} (h : Kept a x a') (line : Line) :
    Kept a x { a' with line } :=
  ⟨h.identity, h.vault, h.leads, h.untouched, h.cached⟩

theorem Asked.kept {a a' : Account} {r : Request} {lead : Option Exchange} {first : Exchange}
    (h : Asked a r lead first a') : Kept a lead a' := by
  rw [h.after]
  exact h.led.kept.then_line h.line

/-- Two exchanges, the second of which starts from where the first has led. -/
theorem Kept.keeps {a a₁ a₂ : Account} {t : CallTrace} {held : Option String}
    (h : Kept a t.lead a₁) (h' : Kept a₁ t.second a₂) (hv : a.vault.ServedBy a.disk)
    (ht : TokenAfter held t.second a₂.accessToken?) : t.Keeps a held a₂ where
  identity := h'.identity.trans h.identity
  accessToken := ht
  untouched := by
    intro hn
    obtain ⟨hs, hd⟩ := h.untouched fun token => (hn token).1
    obtain ⟨hs', hd'⟩ := h'.untouched fun token => (hn token).2
    exact ⟨hs'.trans hs, hd'.trans hd⟩
  cached := by
    intro token hm
    by_cases hm' : ∃ token, Exchange.Brings t.second (·.Mints token)
    · obtain ⟨token', hm'⟩ := hm'
      exact h'.cached (h.vault ▸ hv.leads h.leads) token' hm'
    · obtain ⟨hs, hd⟩ := h'.untouched fun token' hb => hm' ⟨token', hb⟩
      have hc := h.cached hv token (hm.resolve_right fun hb => hm' ⟨token, hb⟩)
      intro s token' hs' ht'
      rw [hd, h'.vault]
      exact hc s token' (hs ▸ hs') ht'

theorem discard_isThere {a : Account} (h : a.vault.ServedBy a.disk) :
    a.discard.vault.isThere a.discard.disk = false := by
  obtain ⟨d, hd⟩ := (h a.disk .here).2
  have hdisk : a.discard.disk = d := by simp [discard, hd, Except.toOption]
  rw [hdisk]
  exact Storage.Vault.isThere_delete hd

/-- An account without an access token that is as it should be renews before every request. -/
theorem Proper.refreshDue {a : Account} (h : a.Proper) (hs : a.session.isSome)
    (ht : a.accessToken? = none) : a.refreshDue = true := by
  have hr := h.refreshToken hs ht
  obtain ⟨s, hs⟩ := Option.isSome_iff_exists.mp hs
  simp only [accessToken?, refreshToken?, hs, Option.bind_some] at ht hr
  exact (refreshDue_iff a).mpr ⟨s, hs, by simp [Session.needsRefresh, ht, hr]⟩

theorem TokenAfter.unique {before after after' : Option String} {x : Option Exchange}
    (h : TokenAfter before x after) (h' : TokenAfter before x after') : after = after' := by
  cases h with
  | minted hx =>
    cases h' with
    | minted hx' =>
      obtain ⟨y, hy, hy'⟩ := hx.both hx'
      rw [hy.unique hy']
    | kept hn => exact absurd hx (hn _)
  | kept hn =>
    cases h' with
    | minted hx => exact absurd hx (hn _)
    | kept => rfl

theorem TokenAfter.none_before {before : Option String} {x : Option Exchange}
    (h : TokenAfter before x none) : before = none := by
  cases h
  rfl

theorem TokenAfter.fresh {x : Option Exchange} {token : String}
    (h : TokenAfter none x (some token)) : Exchange.Brings x (·.Mints token) := by
  cases h with
  | minted hx => exact hx

/-- A renewal that leaves an account without access token, though it was as it should be, was turned
down or has met trouble. -/
theorem Led.tokenless {a a' : Account} {x : Option Exchange} {p : Option RefreshResult}
    (h : Led a x (.done p) a') (hp : a.Proper) (hs : a.session.isSome)
    (ht : a'.accessToken? = none) : a'.refreshToken?.isSome ∧
      ((∃ m, p = some (.rejected m)) ∨ ∃ f, p = some (.unavailable f)) := by
  have hn : a.accessToken? = none := (ht ▸ h.tokenAfter).none_before
  have hrefresh := hp.refreshToken hs hn
  have hdue := hp.refreshDue hs hn
  refine ⟨h.refreshToken ▸ hrefresh, ?_⟩
  cases h with
  | notDue hd => simp [hd] at hdue
  | @due _ result _ _ hr =>
    cases result with
    | refreshed =>
      obtain ⟨token, _, htoken⟩ := hr.minted
      simp [htoken] at ht
    | rejected m => exact Or.inl ⟨m, rfl⟩
    | unavailable f => exact Or.inr ⟨f, rfl⟩
    | noRefreshToken => simp [hr.nothing_sent.2.1] at hrefresh

theorem Kept.session_iff {a a' : Account} {x : Option Exchange} (h : Kept a x a') :
    a'.session = none ↔ a.session = none := by
  have hi := h.identity
  cases hs : a.session <;> cases hs' : a'.session <;> simp_all

section Called

variable {a a₁ a' : Account} {r : Request} {t : CallTrace} {e : Ended Response}
  {lead second : Option Exchange} {first : Exchange} {held : Option String}

/-- A renewal that the request waited for and that brought no token leaves no request. -/
theorem Asked.lead_served {p : Response → Prop} (h : Asked a r lead first a₁)
    (hp : ∀ y, p y → ∀ token, ¬ y.Mints token) :
    ¬ (a.accessToken? = none ∧ Exchange.Brings lead p) := by
  rintro ⟨hn, hb⟩
  have ht := h.led.tokenAfter
  rw [h.held, hn] at ht
  obtain ⟨y, hy, hm⟩ := hb.both ht.fresh
  exact hp y hy _ hm

theorem Asked.session (h : Asked a r lead first a₁) : a.session ≠ none := by
  intro hn
  have hs := h.led.kept.session_iff.mpr hn
  have ht := h.held
  simp [accessToken?, hs] at ht

theorem Asked.accessToken (h : Asked a r lead first a₁)
    (hh : TokenAfter a.accessToken? lead held) : a₁.accessToken? = held := by
  have ht : a₁.accessToken? = some h.token := (congrArg accessToken? h.after).trans h.held
  exact ht.trans (h.begins.token.unique hh)

theorem Led.settles_trouble {f : Failure} (hl : Led a lead (.done (some (.unavailable f))) a')
    (hs : a.session.isSome) (ht : a'.accessToken? = none)
    (hh : TokenAfter a.accessToken? lead held) (hv : a.vault.ServedBy a.disk) :
    CallTrace.Settles { lead } a held (.failed f) a' := by
  have hn : a.accessToken? = none := (ht ▸ hl.tokenAfter).none_before
  have hheld : a'.accessToken? = held := hl.tokenAfter.unique hh
  obtain ⟨hb, hk⟩ : Exchange.Brings lead Response.IsTrouble ∧ f.isUnauthorized = false := by
    cases hl with
    | due _ hr => exact ⟨hr.in_trouble, hr.trouble_kind.1⟩
  have hr := hb.excludes fun y hy => hy.not_rejection
  have hsession : a.session ≠ none := Option.isSome_iff_ne_none.mp hs
  exact {
    unauthorized := by
      simp only [CallTrace.IsUnauthorized, hsession, hr, Exchange.brings_none, and_false,
        false_and, or_false, iff_false]
      rintro ⟨m, hm⟩
      cases hm
      cases hk
    trouble := by simp [CallTrace.IsInTrouble, hn, hb, hk]
    ended := by simp [CallTrace.EndsSession, hr, hl.kept.session_iff, hsession]
    deleted := by simp [CallTrace.EndsSession, hr]
    kept := fun _ => hl.kept.keeps (.line a'.line) hv (hheld ▸ .kept (by simp)) }

theorem Led.settles_ended {m : String} (hl : Led a lead (.done (some (.rejected m))) a')
    (ht : a'.accessToken? = none) (hv : a.vault.ServedBy a.disk) :
    CallTrace.Settles { lead } a held (.failed sessionExpired) a'.discard := by
  have hn : a.accessToken? = none := (ht ▸ hl.tokenAfter).none_before
  have hb : Exchange.Brings lead Response.IsRejection := by
    cases hl with
    | due _ hr => exact hr.turned_down
  have hr := hb.excludes fun y hy (ht : y.IsTrouble) => ht.not_rejection hy
  have hends : CallTrace.EndsSession { lead } a := Or.inl ⟨hn, hb⟩
  exact {
    unauthorized := by simp [CallTrace.IsUnauthorized, hn, hb, sessionExpired]
    trouble := by simp [CallTrace.IsInTrouble, hr, sessionExpired, Failure.isUnauthorized]
    ended := by simp [hends, discard]
    deleted := fun _ => discard_isThere (hl.kept.vault ▸ hv.leads hl.kept.leads)
    kept := fun h => absurd hends h }

section Answers

variable {x : Response} (retry : Option Exchange)

theorem Asked.isUnauthorized_iff (h : Asked a r lead first a₁) (hx : first.response? = some x) :
    CallTrace.IsUnauthorized ⟨lead, some first, second, retry⟩ a ↔ x.status = 401 ∧
      (a.refreshToken? = none ∨ Exchange.Brings second Response.IsRejection ∨
        ((∃ token, Exchange.Brings second (·.Mints token)) ∧
          Exchange.Brings retry (·.status = 401))) := by
  have hl := h.lead_served fun y hy token hm => hm.not_rejection hy
  simp only [CallTrace.IsUnauthorized, h.session, hl, false_or, Exchange.brings_iff hx]

theorem Asked.isInTrouble_iff (h : Asked a r lead first a₁) (hx : first.response? = some x) :
    CallTrace.IsInTrouble ⟨lead, some first, second, retry⟩ a ↔
      x.status = 401 ∧ Exchange.Brings second Response.IsTrouble := by
  have hl := h.lead_served fun y (hy : y.IsTrouble) => hy.not_mints
  simp only [CallTrace.IsInTrouble, hl, false_or, Exchange.brings_iff hx]

theorem Asked.endsSession_iff (h : Asked a r lead first a₁) (hx : first.response? = some x) :
    CallTrace.EndsSession ⟨lead, some first, second, retry⟩ a ↔
      x.status = 401 ∧ Exchange.Brings second Response.IsRejection := by
  have hl := h.lead_served fun y hy token hm => hm.not_rejection hy
  simp only [CallTrace.EndsSession, hl, false_or, Exchange.brings_iff hx]

theorem Asked.refreshToken_some {p : Response → Prop} {e : Ended RefreshResult}
    (h : Asked a r lead first a₁) (hr : Renewed a₁ second e a')
    (hb : Exchange.Brings second p) : a.refreshToken? ≠ none := by
  have hs := hr.isSome_iff.mp hb.isSome
  rw [h.refreshToken] at hs
  exact Option.isSome_iff_ne_none.mp hs

theorem Asked.settles_answer (ha : Asked a r lead first a') (hx : first.response? = some x)
    (hu : x.status ≠ 401) (hh : TokenAfter a.accessToken? lead held)
    (hv : a.vault.ServedBy a.disk) :
    CallTrace.Settles { lead, first := some first } a held (.done x) a' where
  unauthorized := by simp [ha.isUnauthorized_iff none hx, hu]
  trouble := by simp [ha.isInTrouble_iff none hx, hu]
  ended := by simp [ha.endsSession_iff none hx, ha.kept.session_iff, ha.session]
  deleted := by simp [ha.endsSession_iff none hx]
  kept _ := ha.kept.keeps (.line a'.line) hv (ha.accessToken hh ▸ .kept (by simp))

theorem Asked.settles_tokenless (ha : Asked a r lead first a') (hx : first.response? = some x)
    (hu : x.status = 401) (ht : a.refreshToken? = none)
    (hh : TokenAfter a.accessToken? lead held) (hv : a.vault.ServedBy a.disk) :
    CallTrace.Settles { lead, first := some first } a held (.failed x.failure) a' := by
  obtain ⟨m, hm⟩ := Response.failure_unauthorized ((Response.isUnauthorized_iff x).mpr hu)
  exact {
    unauthorized := by simp [ha.isUnauthorized_iff none hx, hu, ht, hm]
    trouble := by simp [ha.isInTrouble_iff none hx, hm, Failure.isUnauthorized]
    ended := by simp [ha.endsSession_iff none hx, ha.kept.session_iff, ha.session]
    deleted := by simp [ha.endsSession_iff none hx]
    kept := fun _ =>
      ha.kept.keeps (.line a'.line) hv (ha.accessToken hh ▸ .kept (by simp)) }

theorem Asked.settles_ended {m : String} (ha : Asked a r lead first a₁)
    (hx : first.response? = some x) (hu : x.status = 401)
    (hr : Renewed a₁ second (.done (.rejected m)) a') (hv : a.vault.ServedBy a.disk) :
    CallTrace.Settles { lead, first := some first, second } a held (.failed sessionExpired)
      a'.discard := by
  have hb := hr.turned_down
  have ht := hb.excludes fun y hy (ht : y.IsTrouble) => ht.not_rejection hy
  have hends := (ha.endsSession_iff none hx).mpr ⟨hu, hb⟩
  have hserved : a'.vault.ServedBy a'.disk := by
    rw [hr.kept.vault, ha.kept.vault]
    exact (hv.leads ha.kept.leads).leads (ha.kept.vault ▸ hr.kept.leads)
  exact {
    unauthorized := by simp [ha.isUnauthorized_iff none hx, hu, hb, sessionExpired]
    trouble := by
      simp [ha.isInTrouble_iff none hx, ht, sessionExpired, Failure.isUnauthorized]
    ended := by simp [hends, discard]
    deleted := fun _ => discard_isThere hserved
    kept := fun h => absurd hends h }

theorem Asked.settles_trouble {f : Failure} (ha : Asked a r lead first a₁)
    (hx : first.response? = some x) (hu : x.status = 401)
    (hr : Renewed a₁ second (.done (.unavailable f)) a')
    (hh : TokenAfter a.accessToken? lead held) (hv : a.vault.ServedBy a.disk) :
    CallTrace.Settles { lead, first := some first, second } a held (.failed f) a' := by
  have hb := hr.in_trouble
  have hn := hb.excludes fun y hy => hy.not_rejection
  have hm := fun token => hb.excludes fun y hy => hy.not_mints token
  have hk := hr.trouble_kind.1
  exact {
    unauthorized := by
      simp only [ha.isUnauthorized_iff none hx, ha.refreshToken_some hr hb, hn, hm,
        exists_false, false_and, or_false, and_false, iff_false]
      rintro ⟨m, hm⟩
      cases hm
      cases hk
    trouble := by simp [ha.isInTrouble_iff none hx, hu, hb, hk]
    ended := by
      simp [ha.endsSession_iff none hx, hn, hr.kept.session_iff, ha.kept.session_iff, ha.session]
    deleted := by simp [ha.endsSession_iff none hx, hn]
    kept := fun _ => ha.kept.keeps hr.kept hv (ha.accessToken hh ▸ hr.tokenAfter) }

theorem Asked.settles_retry {y : Response} {token : String} {l : Line}
    (ha : Asked a r lead first a₁) (hx : first.response? = some x) (hu : x.status = 401)
    (hr : Renewed a₁ second (.done .refreshed) a')
    (hh : TokenAfter a.accessToken? lead held) (hv : a.vault.ServedBy a.disk) :
    CallTrace.Settles
      { lead, first := some first, second, retry := some ⟨r.withBearer token, some y⟩ } a held
      (if y.isUnauthorized then .failed y.failure else .done y) { a' with line := l } := by
  obtain ⟨fresh, hb, _⟩ := hr.minted
  have hn := hb.excludes fun y hy => hy.not_rejection
  have ht := hb.excludes fun y hy (ht : y.IsTrouble) => ht.not_mints fresh hy
  exact {
    unauthorized := by
      have hm : ∃ token, Exchange.Brings second (·.Mints token) := ⟨fresh, hb⟩
      simp only [ha.isUnauthorized_iff _ hx, hu, ha.refreshToken_some hr hb, hn, hm,
        Exchange.brings_answered, true_and, false_or, ← Response.isUnauthorized_iff]
      split
      · rename_i hy
        simpa [hy] using Response.failure_unauthorized hy
      · rename_i hy
        simp [hy]
    trouble := by
      simp only [ha.isInTrouble_iff _ hx, ht, and_false, iff_false]
      rintro ⟨f, hf, hk⟩
      split at hf <;> cases hf
      rename_i hy
      obtain ⟨m, hm⟩ := Response.failure_unauthorized hy
      rw [hm] at hk
      cases hk
    ended := by
      simp [ha.endsSession_iff _ hx, hn, hr.kept.session_iff, ha.kept.session_iff, ha.session]
    deleted := by simp [ha.endsSession_iff _ hx, hn]
    kept := fun _ =>
      ha.kept.keeps (hr.kept.then_line l) hv (ha.accessToken hh ▸ hr.tokenAfter) }

end Answers

theorem Called.settles (h : Called a r t e a') (he : e ≠ .dropped) (hp : a.Proper)
    (hv : a.vault.ServedBy a.disk) (hh : TokenAfter a.accessToken? t.lead held) :
    t.Settles a held e a' := by
  cases h with
  | loggedOut hs =>
    have hn : a.accessToken? = none := by simp [accessToken?, hs]
    exact {
      unauthorized := by simp [CallTrace.IsUnauthorized, hs]
      trouble := by simp [CallTrace.IsInTrouble, Failure.isUnauthorized]
      ended := by simp [hs]
      deleted := by simp [CallTrace.EndsSession]
      kept := fun _ => (Kept.line a.line).keeps (Kept.line a.line) hv
        ((Led.tokenAfter (.notDue (by simp [Account.refreshDue, hs]))).unique hh ▸
          .kept (by simp)) }
  | leadUnavailable hs _ hl ht => exact hl.settles_trouble hs ht hh hv
  | leadRejected _ _ hl ht => exact hl.settles_ended ht hv
  | tokenless hs _ hl ht hp' =>
    -- impossible: a renewal that brings no token says why
    rcases (hl.tokenless hp hs ht).2 with ⟨m, rfl⟩ | ⟨f, rfl⟩ <;> simp at hp'
  | answered ha hx hu => exact ha.settles_answer hx hu hh hv
  | secondRejected ha hx hu hr => exact ha.settles_ended hx hu hr hv
  | secondUnavailable ha hx hu hr => exact ha.settles_trouble hx hu hr hh hv
  | secondTokenless ha hx hu hr =>
    obtain ⟨rfl, ht, rfl⟩ := hr.nothing_sent
    exact ha.settles_tokenless hx hu (ha.refreshToken ▸ ht) hh hv
  | retried ha hx hu hr _ _ => exact ha.settles_retry hx hu hr hh hv
  | leadDropped => exact absurd rfl he
  | firstDropped => exact absurd rfl he
  | secondDropped => exact absurd rfl he
  | retryDropped => exact absurd rfl he

end Called

/-- A protected call fails for want of a token, fails because the service is in trouble, or gives
a response, as its exchanges say. It ends the session and empties the vault only when the service
turns the refresh token down; else it keeps both. -/
theorem authorizedCall_outcome {a a' : Account} {r : Request} {e : Ended Response}
    (ha : a.Reachable) (hv : a.vault.ServedBy a.disk) (h : (authorizedCall r).run a = (e, a'))
    (hd : e ≠ .dropped) : ∃ (t : CallTrace) (held : Option String),
      t.Follows a r held a'.line ∧ t.Settles a held e a' := by
  obtain ⟨t, hc⟩ := authorizedCall_cases h
  obtain ⟨held, hf⟩ := hc.follows hd
  exact ⟨t, held, hf, hc.settles hd ha.proper hv hf.begins.token⟩

theorem stale_reachable : stale.Reachable := .line _ (.operate _ (.new _ _ _ _))

theorem stale_housed :
    stale.vault.Housed ["cache", "session.json"] ["cache", "session.json.tmp"] stale.disk where
  named := by decide +kernel
  directories := ⟨["cache"], rfl, by decide +kernel, trivial⟩
  filePlace := toOption_eq_some_iff.mp (by decide +kernel)
  fileFree := by decide +kernel
  filePlain := by decide +kernel
  draftPlace := toOption_eq_some_iff.mp (by decide +kernel)
  draftFree := by decide +kernel
  draftPlain := by decide +kernel
  apart := by decide +kernel

theorem authorizedCall_outcome_stale :
    stale.Reachable ∧ stale.vault.ServedBy stale.disk ∧
    ((authorizedCall (.get "/api/client/orders")).run stale).1 ≠ .dropped ∧
    ∃ (t : CallTrace) (held : Option String),
      t.Follows stale (.get "/api/client/orders") held
        ((authorizedCall (.get "/api/client/orders")).run stale).2.line ∧
      t.Settles stale held ((authorizedCall (.get "/api/client/orders")).run stale).1
        ((authorizedCall (.get "/api/client/orders")).run stale).2 := by
  have hd : ((authorizedCall (.get "/api/client/orders")).run stale).1 ≠ .dropped := by
    decide +kernel
  have hv := stale_housed.servedBy
  exact ⟨stale_reachable, hv, hd, authorizedCall_outcome stale_reachable hv (Prod.eta _).symm hd⟩

end Account

end Larder
