import Larder.Proofs.ProtectedCalls
import Larder.Proofs.Vaults

namespace Larder

/-- The session has a token to go on with; no token is empty, and just an access token has a time
when it was obtained. -/
structure Session.Proper (s : Session) : Prop where
  dated : s.accessToken.isSome = s.refreshedAt.isSome
  access : s.accessToken ≠ some ""
  refresh : s.refreshToken ≠ some ""
  usable : s.accessToken = none → s.refreshToken.isSome

theorem Session.nonEmpty?_ne (token : String) : Session.nonEmpty? token ≠ some "" := by
  unfold Session.nonEmpty?
  split
  · simp
  · rename_i h
    intro he
    cases he
    simp at h

theorem Session.Proper.withAccessToken {s : Session} (h : s.Proper) {token : String}
    (ht : token ≠ "") (now : Nat) : (s.withAccessToken token now).Proper where
  dated := rfl
  access := by simpa [Session.withAccessToken] using ht
  refresh := h.refresh
  usable := by simp [Session.withAccessToken]

theorem Session.proper_ofLogin (deviceId : String) {tokens : Wire.Tokens}
    (ht : tokens.access ≠ "") (now : Nat) : (Session.ofLogin deviceId tokens now).Proper where
  dated := rfl
  access := by simpa [Session.ofLogin] using ht
  refresh := Session.nonEmpty?_ne _
  usable := by simp [Session.ofLogin]

theorem Session.proper_ofCredential {c : Storage.Credential} (hc : c.refreshToken ≠ "") :
    (Session.ofCredential c).Proper where
  dated := rfl
  access := by simp [Session.ofCredential]
  refresh := Session.nonEmpty?_ne _
  usable := by simp [Session.ofCredential, Session.nonEmpty?, hc]

/-- A credential that is read back has a refresh token. -/
theorem Storage.Vault.load_refreshToken {v : Storage.Vault} {d : Storage.Disk}
    {c : Storage.Credential} (h : v.load d = some c) : c.refreshToken ≠ "" := by
  simp only [Storage.Vault.load, Option.bind_eq_bind, Option.bind_eq_some_iff] at h
  obtain ⟨_, _, c', _, h⟩ := h
  split at h
  · cases h
  · rename_i hne
    cases h
    simpa using hne

namespace Account

/-- How a registration goes: at most the line changes. -/
theorem register_cases {r : Wire.Registration} {a a' : Account} {e : Ended Unit}
    (h : (register r).run a = (e, a')) : ∃ line, a' = { a with line } := by
  unfold register at h
  cases hc : checkCredentials r.deviceId r.password with
  | error x =>
    rw [hc] at h
    cases h
    exact ⟨a.line, rfl⟩
  | ok u =>
    rw [hc, Call.ofExcept_ok_bind] at h
    rcases send_bind_cases h with ⟨x, l, _, hx⟩ | ⟨l, _, _, rfl⟩
    · cases hs : x.success with
      | error y =>
        rw [hs] at hx
        cases hx
        exact ⟨l, rfl⟩
      | ok y =>
        rw [hs] at hx
        cases hx
        exact ⟨l, rfl⟩
    · exact ⟨l, rfl⟩

theorem loginTokens_access {x : Response} {tokens : Wire.Tokens} (h : loginTokens x = .ok tokens) :
    tokens.access ≠ "" := by
  simp only [loginTokens, bind_ok] at h
  obtain ⟨t, _, h⟩ := h
  split at h
  · cases h
  · rename_i hne
    cases h
    simpa using hne

/-- How a login goes: a new session is held, or at most the line has changed. -/
theorem login_cases {l : Wire.Login} {a a' : Account} {e : Ended Unit}
    (h : (login l).run a = (e, a')) :
    (e ≠ .done () ∧ ∃ line, a' = { a with line }) ∨
    (e = .done () ∧ ∃ line x tokens, loginTokens x = .ok tokens ∧
      a' = { a with line }.hold (.ofLogin l.deviceId tokens line.now)) := by
  unfold login at h
  cases hc : checkCredentials l.deviceId l.password with
  | error x =>
    rw [hc] at h
    cases h
    exact Or.inl ⟨by simp, a.line, rfl⟩
  | ok u =>
    rw [hc, Call.ofExcept_ok_bind] at h
    rcases send_bind_cases h with ⟨x, line, _, hx⟩ | ⟨line, _, rfl, rfl⟩
    · cases ht : loginTokens x with
      | error y =>
        rw [ht] at hx
        cases hx
        exact Or.inl ⟨by simp, line, rfl⟩
      | ok tokens =>
        rw [ht] at hx
        cases hx
        exact Or.inr ⟨rfl, line, x, tokens, ht, rfl⟩
    · exact Or.inl ⟨by simp, line, rfl⟩

/-- How reading a session back goes, with `c` for the credential that was kept. -/
inductive Restored (a : Account) : Ended Bool → Account → Prop where
  | nothing (hl : a.vault.load a.disk = none) : Restored a (.done false) a
  | refreshed {c : Storage.Credential} {x : Option Exchange} {a' : Account}
      (hl : a.vault.load a.disk = some c)
      (hr : Renewed { a with session := some (.ofCredential c) } x (.done .refreshed) a') :
      Restored a (.done true) a'
  | unavailable {c : Storage.Credential} {x : Option Exchange} {f : Failure} {a' : Account}
      (hl : a.vault.load a.disk = some c)
      (hr : Renewed { a with session := some (.ofCredential c) } x (.done (.unavailable f)) a') :
      Restored a (.failed f) { a' with session := none }
  | rejected {c : Storage.Credential} {x : Option Exchange} {m : String} {a' : Account}
      (hl : a.vault.load a.disk = some c)
      (hr : Renewed { a with session := some (.ofCredential c) } x (.done (.rejected m)) a') :
      Restored a (.done false) a'.discard
  | dropped {c : Storage.Credential} {x : Option Exchange} {a' : Account}
      (hl : a.vault.load a.disk = some c)
      (hr : Renewed { a with session := some (.ofCredential c) } x .dropped a') :
      Restored a .dropped a'

theorem restore_cases {a a' : Account} {e : Ended Bool} (h : restore.run a = (e, a')) :
    Restored a e a' := by
  unfold restore at h
  rw [Call.run_view_bind] at h
  cases hl : a.vault.load a.disk with
  | none =>
    rw [hl] at h
    cases h
    exact .nothing hl
  | some c =>
    rw [hl] at h
    dsimp only at h
    rw [Call.run_modify_bind] at h
    rcases Call.bind_cases h with ⟨result, a₁, hr, h₁⟩ | ⟨f, hr, _⟩ | ⟨hr, rfl⟩
    all_goals obtain ⟨x, hr⟩ := renew_cases hr
    · cases result with
      | refreshed =>
        cases h₁
        exact .refreshed hl hr
      | unavailable f =>
        cases h₁
        exact .unavailable hl hr
      | rejected m =>
        cases h₁
        exact .rejected hl hr
      | noRefreshToken =>
        cases hr with
        | tokenless ht =>
          have hu := (Session.proper_ofCredential (Storage.Vault.load_refreshToken hl)).usable rfl
          rw [show (Session.ofCredential c).refreshToken = none from ht] at hu
          cases hu
    · cases hr
    · exact .dropped hl hr

/-- Asking for a new access token does no more to the account than a renewal. -/
theorem refresh_cases {a a' : Account} {e : Ended Bool} (h : refresh.run a = (e, a')) :
    ∃ x e₁, Renewed a x e₁ a' := by
  unfold refresh at h
  rcases Call.bind_cases h with ⟨result, a₁, hr, h₁⟩ | ⟨f, hr, _⟩ | ⟨hr, _⟩
  all_goals obtain ⟨x, hr⟩ := renew_cases hr
  · cases result <;> cases h₁ <;> exact ⟨x, _, hr⟩
  · exact ⟨x, _, hr⟩
  · exact ⟨x, _, hr⟩

theorem ensureFresh_cases {a a' : Account} {e : Ended Bool} (h : ensureFresh.run a = (e, a')) :
    ∃ x e₁, Led a x e₁ a' := by
  unfold ensureFresh at h
  rcases Call.bind_cases h with ⟨p, a₁, hr, h₁⟩ | ⟨f, hr, _⟩ | ⟨hr, _⟩
  all_goals obtain ⟨x, hr⟩ := renewIfDue_cases hr
  · cases p with
    | none =>
      cases h₁
      exact ⟨x, _, hr⟩
    | some result => cases result <;> cases h₁ <;> exact ⟨x, _, hr⟩
  · exact ⟨x, _, hr⟩
  · exact ⟨x, _, hr⟩

theorem logout_session {a a' : Account} {e : Ended Unit} (h : logout.run a = (e, a')) :
    a'.session = none := by
  unfold logout at h
  rw [Call.run_modify_bind, Call.run_view_bind] at h
  split at h <;> cases h <;> rfl

/-- The session of an account, if it holds one, is as it should be. -/
def Proper (a : Account) : Prop := ∀ s, a.session = some s → s.Proper

theorem proper_of_none {a : Account} (h : a.session = none) : a.Proper := by
  intro s hs
  rw [h] at hs
  cases hs

theorem proper_of_some {a : Account} {s : Session} (h : a.session = some s) (hs : s.Proper) :
    a.Proper := by
  intro t ht
  rw [h] at ht
  cases ht
  exact hs

/-- Without an access token there is a refresh token. -/
theorem Proper.refreshToken {a : Account} (h : a.Proper) (hs : a.session.isSome)
    (ht : a.accessToken? = none) : a.refreshToken?.isSome := by
  obtain ⟨s, hs⟩ := Option.isSome_iff_exists.mp hs
  simp only [accessToken?, refreshToken?, hs, Option.bind_some] at ht ⊢
  exact (h s hs).usable ht

theorem Renewed.proper {a a' : Account} {x : Option Exchange} {e : Ended RefreshResult}
    (h : Renewed a x e a') (ha : a.Proper) : a'.Proper := by
  cases h with
  | tokenless => exact ha
  | unanswered => exact ha
  | rejected => exact ha
  | unavailable => exact ha
  | refreshed hs _ _ hx => exact proper_of_some rfl ((ha _ hs).withAccessToken hx.2.2 _)

/-- What can be done with an account. -/
inductive Operation where
  | register (r : Wire.Registration)
  | login (l : Wire.Login)
  | restore
  | refresh
  | ensureFresh
  | call (r : Request)
  | logout

/-- The account after an operation, however it ended. -/
def Operation.after (a : Account) : Operation → Account
  | register r => ((Account.register r).run a).2
  | login l => ((Account.login l).run a).2
  | restore => (Account.restore.run a).2
  | refresh => (Account.refresh.run a).2
  | ensureFresh => (Account.ensureFresh.run a).2
  | call r => ((authorizedCall r).run a).2
  | logout => (Account.logout.run a).2

/-- The accounts that a new one can become. Between two operations its line may become any line,
with any clock and any replies to come, and its disk any disk. -/
inductive Reachable : Account → Prop where
  | new (line : Line) (disk : Storage.Disk) (vault : Storage.Vault) (refreshInterval : Nat) :
      Reachable ⟨line, disk, vault, refreshInterval, none⟩
  | operate {a : Account} (o : Operation) (h : Reachable a) : Reachable (o.after a)
  | line {a : Account} (line : Line) (h : Reachable a) : Reachable { a with line }
  | disk {a : Account} (disk : Storage.Disk) (h : Reachable a) : Reachable { a with disk }

/-- A property that is kept by all that changes a session, except by setting it aside and by reading
one back. -/
structure Preserved (P : Account → Prop) : Prop where
  line : ∀ {a : Account} (line : Line), P a → P { a with line }
  hold : ∀ {a : Account} {s : Session}, s.Proper → P a → P (a.hold s)
  renewed : ∀ {a a' : Account} {x : Option Exchange} {e : Ended RefreshResult},
    Renewed a x e a' → P a → P a'
  discard : ∀ {a : Account}, P a → P a.discard
  logout : ∀ {a : Account}, P a → P (Operation.logout.after a)

/-- So every operation but the one that reads a session back keeps it. -/
theorem Preserved.after {P : Account → Prop} (hP : Preserved P) {a : Account} {o : Operation}
    (ho : o ≠ .restore) (h : P a) : P (o.after a) := by
  cases o with
  | register r =>
    obtain ⟨line, hr⟩ := register_cases (Prod.eta ((Account.register r).run a)).symm
    rw [Operation.after, hr]
    exact hP.line line h
  | login l =>
    rcases login_cases (Prod.eta ((Account.login l).run a)).symm with
      ⟨_, line, hl⟩ | ⟨_, line, x, tokens, ht, hl⟩
    · rw [Operation.after, hl]
      exact hP.line line h
    · rw [Operation.after, hl]
      exact hP.hold (Session.proper_ofLogin _ (loginTokens_access ht) _) (hP.line line h)
  | restore => exact absurd rfl ho
  | refresh =>
    obtain ⟨x, e, hr⟩ := refresh_cases (Prod.eta (Account.refresh.run a)).symm
    exact hP.renewed hr h
  | ensureFresh =>
    obtain ⟨x, e, hl⟩ := ensureFresh_cases (Prod.eta (Account.ensureFresh.run a)).symm
    exact hl.invariant hP.renewed h
  | call r =>
    obtain ⟨t, hc⟩ := authorizedCall_cases (Prod.eta ((authorizedCall r).run a)).symm
    exact hc.invariant hP.line hP.renewed hP.discard h
  | logout => exact hP.logout h

/-- If those two keep it as well, every operation does. -/
theorem Preserved.always {P : Account → Prop} (hP : Preserved P)
    (haside : ∀ {a : Account}, P a → P { a with session := none })
    (hread : ∀ {a : Account} {c : Storage.Credential}, a.vault.load a.disk = some c → P a →
      P { a with session := some (.ofCredential c) })
    {a : Account} (o : Operation) (h : P a) : P (o.after a) := by
  by_cases ho : o = .restore
  · subst ho
    obtain ⟨e, a', hrun⟩ : ∃ e a', Account.restore.run a = (e, a') := ⟨_, _, rfl⟩
    rw [Operation.after, hrun]
    cases restore_cases hrun with
    | nothing => exact h
    | refreshed hl hr => exact hP.renewed hr (hread hl h)
    | unavailable hl hr => exact haside (hP.renewed hr (hread hl h))
    | rejected hl hr => exact hP.discard (hP.renewed hr (hread hl h))
    | dropped hl hr => exact hP.renewed hr (hread hl h)
  · exact hP.after ho h

theorem proper_preserved : Preserved Proper where
  line _ h := h
  hold hs _ := proper_of_some rfl hs
  renewed := Renewed.proper
  discard _ := proper_of_none rfl
  logout _ := proper_of_none (logout_session rfl)

theorem Operation.after_proper {a : Account} (ha : a.Proper) (o : Operation) :
    (o.after a).Proper := by
  refine proper_preserved.always (fun _ => proper_of_none rfl) ?_ o ha
  intro a c hl _
  exact proper_of_some rfl (Session.proper_ofCredential (Storage.Vault.load_refreshToken hl))

theorem Reachable.proper {a : Account} (h : a.Reachable) : a.Proper := by
  induction h with
  | new => exact proper_of_none rfl
  | operate o _ ih => exact o.after_proper ih
  | line _ _ ih => exact ih
  | disk _ _ ih => exact ih

end Account

end Larder
