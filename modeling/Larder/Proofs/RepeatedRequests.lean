import Larder.Proofs.AccountStories

namespace Larder

/-- The requests of a protected call: the caller's own, sent again only after a 401 and with a new
access token, and renewals. -/
structure CallTrace.Repeats (t : CallTrace) (r : Request) : Prop where
  renewals : ∀ x, t.lead = some x ∨ t.second = some x → x.request.path = Account.refreshPath
  requests : ∀ x, t.first = some x ∨ t.retry = some x → ∃ token, x.request = r.withBearer token
  renewed : t.second.isSome → Exchange.Brings t.first (·.status = 401)
  retried : t.retry.isSome → t.first.isSome ∧ ∃ token, Exchange.Brings t.second (·.Mints token)

namespace CallTrace.Repeats

variable {t : CallTrace} {r : Request}

theorem turnedDown (h : t.Repeats r) (hr : t.retry.isSome) :
    Exchange.Brings t.first (·.status = 401) := by
  obtain ⟨_, token, hm⟩ := h.retried hr
  exact h.renewed hm.isSome

/-- A success is the last that is sent. -/
theorem last (h : t.Repeats r) {x : Exchange} {y : Response}
    (hx : t.first = some x ∨ t.retry = some x) (hy : x.response? = some y)
    (hs : y.isSuccess = true) : y.status ≠ 401 ∧
      ∃ z, t.legs.getLast? = some (.request, z) ∧ z.response? = some y := by
  have hstatus : y.status ≠ 401 := by
    intro he
    simp [Response.isSuccess, he] at hs
  refine ⟨hstatus, x, ?_, hy⟩
  rw [legs_getLast?]
  rcases hx with hx | hx
  · have hfirst : ¬ Exchange.Brings t.first (·.status = 401) := by
      rw [hx, Exchange.brings_iff hy]
      exact hstatus
    have hsecond : t.second = none := by
      simpa using fun hn => hfirst (h.renewed hn)
    have hretry : t.retry = none := by
      simpa using fun hn => hfirst (h.turnedDown hn)
    simp [hx, hsecond, hretry]
  · simp [hx]

end CallTrace.Repeats

namespace Account

section Repeats

variable {a a₁ a₂ a' : Account} {r : Request} {lead second : Option Exchange} {first : Exchange}
  {x : Response} {e : Ended RefreshResult}

theorem isRenewal_path {y : Exchange} (h : CallTrace.IsRenewal a y) :
    y.request.path = refreshPath := by
  obtain ⟨token, _, hy⟩ := h
  rw [hy]
  rfl

theorem Led.repeats {e : Ended (Option RefreshResult)} (h : Led a lead e a') :
    CallTrace.Repeats { lead } r where
  renewals y hy := isRenewal_path (h.request (hy.resolve_right (by simp)))
  requests := by simp
  renewed := by simp
  retried := by simp

theorem Asked.repeats (h : Asked a r lead first a₁) :
    CallTrace.Repeats { lead, first := some first } r where
  renewals y hy := isRenewal_path (h.led.request (hy.resolve_right (by simp)))
  requests := by simpa using ⟨_, h.request⟩
  renewed := by simp
  retried := by simp

theorem Asked.renewals_path {y : Exchange} (h : Asked a r lead first a₁)
    (hr : Renewed a₁ second e a₂) (hy : lead = some y ∨ second = some y) :
    y.request.path = refreshPath := by
  rcases hy with hy | hy
  · exact isRenewal_path (h.led.request hy)
  · exact isRenewal_path (h.second_request hr hy)

theorem Asked.repeats_renewal (h : Asked a r lead first a₁) (hx : first.response? = some x)
    (hu : x.status = 401) (hr : Renewed a₁ second e a₂) :
    CallTrace.Repeats { lead, first := some first, second } r where
  renewals _ := h.renewals_path hr
  requests := by simpa using ⟨_, h.request⟩
  renewed _ := (Exchange.brings_iff hx _).mpr hu
  retried := by simp

theorem Asked.repeats_retry {y? : Option Response} (token : String) (h : Asked a r lead first a₁)
    (hx : first.response? = some x) (hu : x.status = 401)
    (hr : Renewed a₁ second (.done .refreshed) a₂) :
    CallTrace.Repeats
      { lead, first := some first, second, retry := some ⟨r.withBearer token, y?⟩ } r where
  renewals _ := h.renewals_path hr
  requests := by
    rintro y (hy | hy)
    · cases hy
      exact ⟨_, h.request⟩
    · cases hy
      exact ⟨token, rfl⟩
  renewed _ := (Exchange.brings_iff hx _).mpr hu
  retried _ := by
    obtain ⟨token, hm, _⟩ := hr.minted
    exact ⟨rfl, token, hm⟩

theorem Called.repeats {t : CallTrace} {e : Ended Response} (h : Called a r t e a') :
    t.Repeats r := by
  cases h with
  | loggedOut hs => exact Led.repeats (a := a) (.notDue (by simp [refreshDue, hs]))
  | leadDropped _ hl => exact hl.repeats
  | leadUnavailable _ _ hl => exact hl.repeats
  | leadRejected _ _ hl => exact hl.repeats
  | tokenless _ _ hl => exact hl.repeats
  | firstDropped ha => exact ha.repeats
  | answered ha => exact ha.repeats
  | secondDropped ha hx hu hr => exact ha.repeats_renewal hx hu hr
  | secondRejected ha hx hu hr => exact ha.repeats_renewal hx hu hr
  | secondUnavailable ha hx hu hr => exact ha.repeats_renewal hx hu hr
  | secondTokenless ha hx hu hr => exact ha.repeats_renewal hx hu hr
  | retryDropped ha hx hu hr => exact ha.repeats_retry _ hx hu hr
  | retried ha hx hu hr => exact ha.repeats_retry _ hx hu hr

end Repeats

/-- A success ends a protected call. -/
theorem Called.accepted {a a' : Account} {r : Request} {t : CallTrace} {e : Ended Response}
    {x : Exchange} {y : Response} (h : Called a r t e a') (hx : t.first = some x ∨ t.retry = some x)
    (hy : x.response? = some y) (hs : y.isSuccess = true) : e = .done y :=
  (h.done_iff y).mpr (h.repeats.last hx hy hs)

end Account

end Larder
