import Larder.Proofs.AccountStories
import Larder.Proofs.Sessions

namespace Larder

namespace Line

/-- No operation is to be dropped before now. -/
def Ahead (l : Line) : Prop := ∀ d, l.dropAt = some d → l.now ≤ d

/-- The same line at a time, from which on its instants count. -/
def startingAt (now : Nat) (l : Line) : Line :=
  { l with now, cancelAt := l.cancelAt.map (now + ·), dropAt := l.dropAt.map (now + ·) }

theorem startingAt_ahead (now : Nat) (l : Line) : (l.startingAt now).Ahead := by
  intro d hd
  obtain ⟨wait, _, rfl⟩ := Option.map_eq_some_iff.mp hd
  exact Nat.le_add_right now wait

@[simp] theorem posted_now (r : Request) (l : Line) : (l.posted r).now = l.now := by
  unfold posted
  dsimp only
  split <;> rfl

theorem Ahead.waitUntil {l : Line} {t : Nat} (hl : l.Ahead) (ht : l.now ≤ t) :
    l.now ≤ (l.waitUntil t).2.now ∧ (l.waitUntil t).2.Ahead := by
  unfold Ahead at hl ⊢
  rw [waitUntil_eq]
  cases hd : l.dropAt with
  | none => simpa [waitEnd, hd] using ht
  | some d =>
    have hnow := hl d hd
    by_cases hlate : d < t
    · simpa [waitEnd, hd, hlate] using hnow
    · have hle : t ≤ d := Nat.le_of_not_lt hlate
      simpa [waitEnd, hd, hlate] using ⟨ht, hle⟩

/-- Time does not go back while a request is under way. -/
theorem Ahead.send {r : Request} {l m : Line} {x? : Option Response} (hl : l.Ahead)
    (h : l.send r = (x?, m)) : l.now ≤ m.now ∧ m.Ahead := by
  have hposted : (l.posted r).Ahead := by
    unfold Ahead at hl ⊢
    simpa using hl
  cases ha : (l.answer r).1 with
  | none =>
    rw [send_of_unanswered ha] at h
    cases h
    exact ⟨Nat.le_of_eq (posted_now r l).symm, hposted⟩
  | some reply =>
    rw [send_of_answered ha] at h
    cases h
    have hwait := hposted.waitUntil (t := (l.posted r).after reply.delay) (Nat.le_add_right _ _)
    rwa [posted_now] at hwait

end Line

namespace Account

/-- What an access token is renewed for. -/
inductive Occasion where
  /-- The session has just been read back and has none. -/
  | restored
  /-- The caller asks for it. -/
  | asked
  /-- It is due before anything else is sent. -/
  | due
  /-- The service has turned the old one down. -/
  | refused
  deriving DecidableEq, Repr

inductive Deed where
  /-- The refresh token is sent, and that comes to an end. -/
  | renewal (o : Occasion) (e : Ended RefreshResult)
  /-- A login is accepted and its session held. -/
  | login (l : Wire.Login)
  /-- Any other request, which leaves the session as it is. -/
  | request (r : Request)
  /-- The session of the credential on disk is read back. -/
  | readBack
  /-- The session is given up. -/
  | ended
  deriving Repr

structure Stage where
  before : Account
  deed : Deed
  after : Account

/-- The requests that are not there to renew anything. -/
inductive Asks (a : Account) : Request → Prop where
  | registration (r : Wire.Registration) : Asks a (registerRequest r)
  | login (l : Wire.Login) : Asks a (loginRequest l)
  | bearing (r : Request) {token : String} (ht : a.accessToken? = some token) :
      Asks a (r.withBearer token)

/-- What a deed makes of an account. -/
inductive Stage.Goes : Stage → Prop where
  | renewal {a a' : Account} {o : Occasion} {x : Exchange} {e : Ended RefreshResult}
      (hr : Renewed a (some x) e a') (hd : o = .due → a.refreshDue = true) :
      Goes ⟨a, .renewal o e, a'⟩
  | login {a : Account} {l : Wire.Login} {x : Response} {tokens : Wire.Tokens} {line : Line}
      (hl : a.line.send (loginRequest l) = (some x, line)) (hx : loginTokens x = .ok tokens) :
      Goes ⟨a, .login l, { a with line }.hold (.ofLogin l.deviceId tokens line.now)⟩
  | request {a : Account} {r : Request} {x? : Option Response} {line : Line} (hr : Asks a r)
      (hl : a.line.send r = (x?, line)) : Goes ⟨a, .request r, { a with line }⟩
  | readBack {a : Account} {c : Storage.Credential} (hl : a.vault.load a.disk = some c) :
      Goes ⟨a, .readBack, { a with session := some (.ofCredential c) }⟩
  | ended (a : Account) (disk : Storage.Disk) :
      Goes ⟨a, .ended, { a with session := none, disk }⟩

/-- Stages one after the other, with nothing in between. -/
inductive Row : Account → List Stage → Account → Prop where
  | nil (a : Account) : Row a [] a
  | cons {s : Stage} {stages : List Stage} {a' : Account} (first : s.Goes)
      (rest : Row s.after stages a') : Row s.before (s :: stages) a'

/-- At most one renewal, on an occasion. -/
def Renews (o : Occasion) (deeds : List Deed) : Prop := deeds = [] ∨ ∃ e, deeds = [.renewal o e]

/-- What a protected call can end with. -/
inductive Closes (r : Request) : List Deed → Prop where
  | nothing : Closes r []
  | ended : Closes r [.ended]
  | request (token : String) : Closes r [.request (r.withBearer token)]

/-- The deeds that an operation can take. -/
def Operation.Takes : Operation → List Deed → Prop
  | register r, deeds => deeds = [] ∨ deeds = [.request (registerRequest r)]
  | login l, deeds => deeds = [] ∨ deeds = [.request (loginRequest l)] ∨ deeds = [.login l]
  | restore, deeds => deeds = [] ∨ ∃ e last, deeds = .readBack :: .renewal .restored e :: last ∧
      (last = [] ∨ last = [.ended])
  | refresh, deeds => Renews .asked deeds
  | ensureFresh, deeds => Renews .due deeds
  | call r, deeds => ∃ lead rest, deeds = lead ++ rest ∧ Renews .due lead ∧
      (Closes r rest ∨ ∃ token e last,
        rest = .request (r.withBearer token) :: .renewal .refused e :: last ∧ Closes r last)
  | logout, deeds => deeds = [.ended]

section Row

variable {a a₁ a' : Account} {r : Request} {stages rest : List Stage} {lead : Option Exchange}
  {o : Occasion}

theorem Stage.Goes.row {s : Stage} (h : s.Goes) : Row s.before [s] s.after := .cons h (.nil _)

theorem Row.append (h : Row a stages a₁) (h' : Row a₁ rest a') : Row a (stages ++ rest) a' := by
  induction h with
  | nil => exact h'
  | cons first _ ih => exact .cons first (ih h')

theorem Renewed.row_sent {x : Option Exchange} {e : Ended RefreshResult}
    (hd : o = .due → a.refreshDue = true) (he : e ≠ .done .noRefreshToken)
    (h : Renewed a x e a') : Row a [⟨a, .renewal o e, a'⟩] a' := by
  cases x with
  | none =>
    cases h with
    | tokenless => exact absurd rfl he
  | some x => exact (Stage.Goes.renewal h hd).row

theorem Renewed.row {x : Option Exchange} {e : Ended RefreshResult}
    (hd : o = .due → a.refreshDue = true) (h : Renewed a x e a') :
    ∃ stages, Row a stages a' ∧ Renews o (stages.map Stage.deed) := by
  by_cases he : e = .done .noRefreshToken
  · subst he
    obtain ⟨_, _, rfl⟩ := h.nothing_sent
    exact ⟨[], .nil _, Or.inl rfl⟩
  · exact ⟨_, h.row_sent hd he, Or.inr ⟨e, rfl⟩⟩

theorem Led.row {e : Ended (Option RefreshResult)} (h : Led a lead e a') :
    ∃ stages, Row a stages a' ∧ Renews .due (stages.map Stage.deed) := by
  cases h with
  | notDue => exact ⟨[], .nil a, Or.inl rfl⟩
  | due hd hr => exact hr.row fun _ => hd
  | dropped hd hr => exact hr.row fun _ => hd

theorem discard_row (a : Account) : Row a [⟨a, .ended, a.discard⟩] a.discard :=
  (Stage.Goes.ended a _).row

theorem Led.call_row {e : Ended (Option RefreshResult)} (h : Led a lead e a₁)
    (hrest : Row a₁ rest a') (hdeeds : Closes r (rest.map Stage.deed) ∨ ∃ token e last,
      rest.map Stage.deed = .request (r.withBearer token) :: .renewal .refused e :: last ∧
        Closes r last) :
    ∃ stages, Row a stages a' ∧ (Operation.call r).Takes (stages.map Stage.deed) := by
  obtain ⟨stages, hrow, hdue⟩ := h.row
  exact ⟨_, hrow.append hrest, _, _, List.map_append, hdue, hdeeds⟩

/-- A protected call that is over with its request. -/
theorem Asked.call_row {first : Exchange} (h : Asked a r lead first a') :
    ∃ stages, Row a stages a' ∧ (Operation.call r).Takes (stages.map Stage.deed) := by
  obtain ⟨_, hled, hheld, hsent, _, rfl⟩ := h
  exact hled.call_row (Stage.Goes.request (.bearing r hheld) hsent).row (Or.inl (.request _))

/-- A protected call that goes on with a renewal, and perhaps with one thing more. -/
theorem Asked.call_row_renewed {first : Exchange} {second : Option Exchange}
    {e : Ended RefreshResult} {a₂ : Account} (h : Asked a r lead first a₁)
    (hr : Renewed a₁ second e a₂) (he : e ≠ .done .noRefreshToken) (hrest : Row a₂ rest a')
    (hlast : Closes r (rest.map Stage.deed)) :
    ∃ stages, Row a stages a' ∧ (Operation.call r).Takes (stages.map Stage.deed) := by
  obtain ⟨_, hled, hheld, hsent, _, rfl⟩ := h
  have hrow := (hr.row_sent (o := .refused) (by simp) he).append hrest
  exact hled.call_row (.cons (.request (.bearing r hheld) hsent) hrow)
    (Or.inr ⟨_, e, _, rfl, hlast⟩)

theorem Called.row {t : CallTrace} {e : Ended Response} (h : Called a r t e a') :
    ∃ stages, Row a stages a' ∧ (Operation.call r).Takes (stages.map Stage.deed) := by
  cases h with
  | loggedOut => exact ⟨[], .nil a, [], [], rfl, Or.inl rfl, Or.inl .nothing⟩
  | leadDropped _ hl => exact hl.call_row (.nil _) (Or.inl .nothing)
  | leadUnavailable _ _ hl => exact hl.call_row (.nil _) (Or.inl .nothing)
  | leadRejected _ _ hl => exact hl.call_row (discard_row _) (Or.inl .ended)
  | tokenless _ _ hl => exact hl.call_row (.nil _) (Or.inl .nothing)
  | firstDropped ha => exact ha.call_row
  | answered ha => exact ha.call_row
  | secondDropped ha _ _ hr => exact ha.call_row_renewed hr (by simp) (.nil _) .nothing
  | secondRejected ha _ _ hr => exact ha.call_row_renewed hr (by simp) (discard_row _) .ended
  | secondUnavailable ha _ _ hr => exact ha.call_row_renewed hr (by simp) (.nil _) .nothing
  | secondTokenless ha _ _ hr =>
    obtain ⟨_, _, rfl⟩ := hr.nothing_sent
    exact ha.call_row
  | retryDropped ha _ _ hr ht hl =>
    exact ha.call_row_renewed hr (by simp) (Stage.Goes.request (.bearing r ht) hl).row (.request _)
  | retried ha _ _ hr ht hl =>
    exact ha.call_row_renewed hr (by simp) (Stage.Goes.request (.bearing r ht) hl).row (.request _)

theorem Renewed.restore_row {c : Storage.Credential} {x : Option Exchange}
    {e : Ended RefreshResult} (hl : a.vault.load a.disk = some c)
    (h : Renewed { a with session := some (.ofCredential c) } x e a₁)
    (he : e ≠ .done .noRefreshToken) (hrest : Row a₁ rest a')
    (hlast : rest.map Stage.deed = [] ∨ rest.map Stage.deed = [.ended]) :
    ∃ stages, Row a stages a' ∧ Operation.restore.Takes (stages.map Stage.deed) := by
  have hrow := (h.row_sent (o := .restored) (by simp) he).append hrest
  exact ⟨_, .cons (.readBack hl) hrow, Or.inr ⟨e, _, rfl, hlast⟩⟩

theorem Restored.row {e : Ended Bool} (h : Restored a e a') :
    ∃ stages, Row a stages a' ∧ Operation.restore.Takes (stages.map Stage.deed) := by
  cases h with
  | nothing => exact ⟨[], .nil a, Or.inl rfl⟩
  | refreshed hl hr => exact hr.restore_row hl (by simp) (.nil _) (Or.inl rfl)
  | unavailable hl hr =>
    exact hr.restore_row hl (by simp) (Stage.Goes.ended _ _).row (Or.inr rfl)
  | rejected hl hr => exact hr.restore_row hl (by simp) (discard_row _) (Or.inr rfl)
  | dropped hl hr => exact hr.restore_row hl (by simp) (.nil _) (Or.inl rfl)

/-- Every operation is a row of the deeds that it can take. -/
theorem Operation.row (op : Operation) (a : Account) :
    ∃ stages, Row a stages (op.after a) ∧ op.Takes (stages.map Stage.deed) := by
  cases op with
  | register r =>
    rcases register_sends (Prod.eta ((Account.register r).run a)).symm with hs | ⟨_, _, _, hl, hs⟩
    all_goals rw [Operation.after, hs]
    · exact ⟨[], .nil a, Or.inl rfl⟩
    · exact ⟨_, (Stage.Goes.request (.registration r) hl).row, Or.inr rfl⟩
  | login l =>
    have hlogin := login_sends (Prod.eta ((Account.login l).run a)).symm
    rw [Operation.after]
    generalize ((Account.login l).run a).2 = a' at hlogin
    cases hlogin with
    | unchecked => exact ⟨[], .nil a, Or.inl rfl⟩
    | refused _ hl => exact ⟨_, (Stage.Goes.request (.login l) hl).row, Or.inr (Or.inl rfl)⟩
    | accepted _ hl hx => exact ⟨_, (Stage.Goes.login hl hx).row, Or.inr (Or.inr rfl)⟩
  | restore => exact (restore_cases (Prod.eta (Account.restore.run a)).symm).row
  | refresh =>
    obtain ⟨x, e, hr⟩ := refresh_cases (Prod.eta (Account.refresh.run a)).symm
    exact hr.row (by simp)
  | ensureFresh =>
    obtain ⟨x, e, hl⟩ := ensureFresh_cases (Prod.eta (Account.ensureFresh.run a)).symm
    exact hl.row
  | call r =>
    obtain ⟨t, hc⟩ := authorizedCall_cases (Prod.eta ((authorizedCall r).run a)).symm
    exact hc.row
  | logout =>
    have hstory := logout_story (P := fun _ => False) (D := fun _ => False)
      (Prod.eta (Account.logout.run a)).symm
    rw [Operation.after]
    generalize (Account.logout.run a).2 = a' at hstory
    cases hstory with
    | cons first rest =>
      cases rest
      cases first with
      | ended disk => exact ⟨_, (Stage.Goes.ended a disk).row, rfl⟩

end Row

end Account

end Larder
