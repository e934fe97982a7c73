import Larder.Proofs.CallTraces

namespace Larder

namespace Account

/-- The request that registers a device. -/
def registerRequest (r : Wire.Registration) : Request :=
  (Request.post registerPath).withBody r.toJson

/-- The request that logs a device in. -/
def loginRequest (l : Wire.Login) : Request := (Request.post loginPath).withBody l.toJson

/-- A registration goes out once its credentials have been checked. -/
theorem register_sends {r : Wire.Registration} {a a' : Account} {e : Ended Unit}
    (h : (register r).run a = (e, a')) : a' = a ∨
      (checkCredentials r.deviceId r.password = .ok () ∧ ∃ x? line,
        a.line.send (registerRequest r) = (x?, line) ∧ a' = { a with line }) := by
  unfold register at h
  cases hc : checkCredentials r.deviceId r.password with
  | error x =>
    rw [hc] at h
    cases h
    exact Or.inl rfl
  | ok u =>
    rw [hc, Call.ofExcept_ok_bind] at h
    rcases send_bind_cases h with ⟨x, l, hl, hx⟩ | ⟨l, hl, _, rfl⟩
    · have hafter : a' = { a with line := l } := by
        cases hs : x.success <;> rw [hs] at hx <;> cases hx <;> rfl
      exact Or.inr ⟨rfl, _, l, hl, hafter⟩
    · exact Or.inr ⟨rfl, _, l, hl, rfl⟩

/-- How a login goes: it is turned down, here or there, or its session is held. -/
inductive LogsIn (a : Account) (l : Wire.Login) : Account → Prop where
  | unchecked : LogsIn a l a
  | refused {x? : Option Response} {line : Line}
      (hc : checkCredentials l.deviceId l.password = .ok ())
      (hl : a.line.send (loginRequest l) = (x?, line))
      (hx : ∀ x tokens, x? = some x → loginTokens x ≠ .ok tokens) : LogsIn a l { a with line }
  | accepted {x : Response} {tokens : Wire.Tokens} {line : Line}
      (hc : checkCredentials l.deviceId l.password = .ok ())
      (hl : a.line.send (loginRequest l) = (some x, line)) (hx : loginTokens x = .ok tokens) :
      LogsIn a l ({ a with line }.hold (.ofLogin l.deviceId tokens line.now))

theorem login_sends {l : Wire.Login} {a a' : Account} {e : Ended Unit}
    (h : (login l).run a = (e, a')) : LogsIn a l a' := by
  unfold login at h
  cases hc : checkCredentials l.deviceId l.password with
  | error x =>
    rw [hc] at h
    cases h
    exact .unchecked
  | ok u =>
    rw [hc, Call.ofExcept_ok_bind] at h
    rcases send_bind_cases h with ⟨x, line, hl, hx⟩ | ⟨line, hl, _, rfl⟩
    · cases ht : loginTokens x with
      | error y =>
        rw [ht] at hx
        cases hx
        refine .refused hc hl ?_
        intro x' tokens hx'
        cases hx'
        simp [ht]
      | ok tokens =>
        rw [ht] at hx
        cases hx
        exact .accepted hc hl ht
    · exact .refused hc hl (by simp)

inductive Happening where
  /-- A request was sent from the account as it was then. -/
  | sent (a : Account) (x : Exchange)
  /-- The session of a credential was read back. -/
  | readBack (c : Storage.Credential)
  /-- The session was given up. -/
  | ended

def Happening.exchange? : Happening → Option Exchange
  | sent _ x => some x
  | _ => none

/-- What was sent, the first request first. -/
def exchanges (hs : List Happening) : List Exchange := hs.filterMap Happening.exchange?

@[simp] theorem exchanges_nil : exchanges [] = [] := rfl

@[simp] theorem exchanges_sent (a : Account) (x : Exchange) (hs : List Happening) :
    exchanges (.sent a x :: hs) = x :: exchanges hs := rfl

@[simp] theorem exchanges_readBack (c : Storage.Credential) (hs : List Happening) :
    exchanges (.readBack c :: hs) = exchanges hs := rfl

@[simp] theorem exchanges_ended (hs : List Happening) : exchanges (.ended :: hs) = exchanges hs :=
  rfl

@[simp] theorem exchanges_append (hs hs' : List Happening) :
    exchanges (hs ++ hs') = exchanges hs ++ exchanges hs' := List.filterMap_append

theorem mem_exchanges {hs : List Happening} {x : Exchange} :
    x ∈ exchanges hs ↔ ∃ a, .sent a x ∈ hs := by
  simp only [exchanges, List.mem_filterMap]
  constructor
  · rintro ⟨h, hm, hx⟩
    cases h with
    | sent a y =>
      cases hx
      exact ⟨a, hm⟩
    | readBack c => cases hx
    | ended => cases hx
  · rintro ⟨a, hm⟩
    exact ⟨_, hm, rfl⟩

/-- What one happening makes of an account, where `P` says which requests are made with its access
token, and `D` which devices get a session. -/
inductive Happens (P : Request → Prop) (D : String → Prop) (a : Account) :
    Happening → Account → Prop where
  | registration {r : Wire.Registration} {x? : Option Response} {line : Line}
      (hl : a.line.send (registerRequest r) = (x?, line)) :
      Happens P D a (.sent a ⟨registerRequest r, x?⟩) { a with line }
  | loginRefused {l : Wire.Login} {x? : Option Response} {line : Line}
      (hl : a.line.send (loginRequest l) = (x?, line))
      (hx : ∀ x tokens, x? = some x → loginTokens x ≠ .ok tokens) :
      Happens P D a (.sent a ⟨loginRequest l, x?⟩) { a with line }
  | loggedIn {l : Wire.Login} {x : Response} {tokens : Wire.Tokens} {line : Line}
      (hl : a.line.send (loginRequest l) = (some x, line)) (hx : loginTokens x = .ok tokens)
      (hd : D l.deviceId) :
      Happens P D a (.sent a ⟨loginRequest l, some x⟩)
        ({ a with line }.hold (.ofLogin l.deviceId tokens line.now))
  | renewal {x : Exchange} {e : Ended RefreshResult} {a' : Account}
      (hr : Renewed a (some x) e a') : Happens P D a (.sent a x) a'
  | request {r : Request} {token : String} {x? : Option Response} {line : Line} (hr : P r)
      (ht : a.accessToken? = some token) (hl : a.line.send (r.withBearer token) = (x?, line)) :
      Happens P D a (.sent a ⟨r.withBearer token, x?⟩) { a with line }
  | readBack {c : Storage.Credential} (hl : a.vault.load a.disk = some c) (hd : D c.deviceId) :
      Happens P D a (.readBack c) { a with session := some (.ofCredential c) }
  | ended (disk : Storage.Disk) : Happens P D a .ended { a with session := none, disk }

/-- The requests that can be sent from an account. -/
inductive Sends (P : Request → Prop) (a : Account) : Request → Prop where
  | registration (r : Wire.Registration) : Sends P a (registerRequest r)
  | login (l : Wire.Login) : Sends P a (loginRequest l)
  | renewal {token : String} (ht : a.refreshToken? = some token) :
      Sends P a (refreshRequest token)
  | request {r : Request} {token : String} (hr : P r) (ht : a.accessToken? = some token) :
      Sends P a (r.withBearer token)

/-- What happens to an account, one thing after the other. -/
inductive Story (P : Request → Prop) (D : String → Prop) :
    Account → List Happening → Account → Prop where
  | nil (a : Account) : Story P D a [] a
  | cons {a a₁ a' : Account} {h : Happening} {hs : List Happening} (first : Happens P D a h a₁)
      (rest : Story P D a₁ hs a') : Story P D a (h :: hs) a'

section Story

variable {P Q : Request → Prop} {D E : String → Prop} {a a₁ a' : Account} {h : Happening}
  {hs hs' : List Happening}

theorem Happens.story (h₁ : Happens P D a h a') : Story P D a [h] a' := .cons h₁ (.nil a')

theorem Story.append (h₁ : Story P D a hs a₁) (h₂ : Story P D a₁ hs' a') :
    Story P D a (hs ++ hs') a' := by
  induction h₁ with
  | nil => exact h₂
  | cons first _ ih => exact .cons first (ih h₂)

theorem Happens.mono (hPQ : ∀ r, P r → Q r) (hDE : ∀ d, D d → E d) (h₁ : Happens P D a h a') :
    Happens Q E a h a' := by
  cases h₁ with
  | registration hl => exact .registration hl
  | loginRefused hl hx => exact .loginRefused hl hx
  | loggedIn hl hx hd => exact .loggedIn hl hx (hDE _ hd)
  | renewal hr => exact .renewal hr
  | request hr ht hl => exact .request (hPQ _ hr) ht hl
  | readBack hl hd => exact .readBack hl (hDE _ hd)
  | ended disk => exact .ended disk

theorem Story.mono (hPQ : ∀ r, P r → Q r) (hDE : ∀ d, D d → E d) (h₁ : Story P D a hs a') :
    Story Q E a hs a' := by
  induction h₁ with
  | nil => exact .nil _
  | cons first _ ih => exact .cons (first.mono hPQ hDE) ih

/-- What holds of each happening holds of all of them. -/
theorem Story.forall_mem {R : Happening → Prop} (h₁ : Story P D a hs a')
    (hR : ∀ {a h a'}, Happens P D a h a' → R h) : ∀ h ∈ hs, R h := by
  induction h₁ with
  | nil => simp
  | cons first _ ih => exact List.forall_mem_cons.mpr ⟨hR first, ih⟩

/-- A request is told with the account that it goes out from. -/
theorem Happens.sends {b : Account} {x : Exchange} (h₁ : Happens P D a (.sent b x) a') :
    b = a ∧ Sends P a x.request := by
  cases h₁ with
  | registration => exact ⟨rfl, .registration _⟩
  | loginRefused => exact ⟨rfl, .login _⟩
  | loggedIn => exact ⟨rfl, .login _⟩
  | renewal hr =>
    obtain ⟨token, ht, hx⟩ := hr.request rfl
    exact ⟨rfl, hx ▸ .renewal ht⟩
  | request hr ht => exact ⟨rfl, .request hr ht⟩

theorem Story.sends {b : Account} {x : Exchange} (h₁ : Story P D a hs a') (hm : .sent b x ∈ hs) :
    Sends P b x.request := by
  refine h₁.forall_mem (R := fun h => ∀ b x, h = .sent b x → Sends P b x.request) ?_ _ hm b x rfl
  rintro a h a' h₁ b x rfl
  obtain ⟨rfl, hs⟩ := h₁.sends
  exact hs

/-- What each happening keeps lasts over all of them, up to any of them. -/
theorem Story.invariant {I : Account → Prop} (hI : ∀ {a h a'}, Happens P D a h a' → I a → I a')
    (h₁ : Story P D a hs a') (ha : I a) : (∀ b x, .sent b x ∈ hs → I b) ∧ I a' := by
  induction h₁ with
  | nil => exact ⟨by simp, ha⟩
  | @cons a a₁ a' h hs first _ ih =>
    obtain ⟨hmem, hend⟩ := ih (hI first ha)
    refine ⟨?_, hend⟩
    intro b x hb
    rcases List.mem_cons.mp hb with rfl | hb
    · cases first <;> exact ha
    · exact hmem b x hb

theorem Happens.sent_eq (h₁ : Happens P D a h a') :
    a'.line.sent = a.line.sent ++ (exchanges [h]).map Exchange.request := by
  cases h₁ with
  | registration hl => exact Line.send_sent hl
  | loginRefused hl => exact Line.send_sent hl
  | loggedIn hl =>
    rw [hold_line]
    exact Line.send_sent hl
  | renewal hr => exact hr.carries.sent
  | request _ _ hl => exact Line.send_sent hl
  | readBack => simp
  | ended => simp

/-- The record of all requests grows by just those that were sent. -/
theorem Story.sent_eq (h₁ : Story P D a hs a') :
    a'.line.sent = a.line.sent ++ (exchanges hs).map Exchange.request := by
  induction h₁ with
  | nil => simp
  | @cons a a₁ a' h hs first _ ih =>
    have hcons : exchanges (h :: hs) = exchanges [h] ++ exchanges hs :=
      exchanges_append [h] hs
    rw [ih, first.sent_eq, hcons, List.map_append, List.append_assoc]

end Story

section Operations

variable {P : Request → Prop} {D : String → Prop} {a a₁ a' : Account} {r : Request}
  {lead : Option Exchange}

theorem Renewed.story {x : Option Exchange} {e : Ended RefreshResult} (h : Renewed a x e a') :
    ∃ hs, Story P D a hs a' ∧ exchanges hs = x.toList := by
  cases x with
  | none =>
    cases h with
    | tokenless => exact ⟨[], .nil a, rfl⟩
  | some x => exact ⟨_, (Happens.renewal h).story, rfl⟩

theorem Led.story {e : Ended (Option RefreshResult)} (h : Led a lead e a') :
    ∃ hs, Story P D a hs a' ∧ exchanges hs = lead.toList := by
  cases h with
  | notDue => exact ⟨[], .nil a, rfl⟩
  | due _ hr => exact hr.story
  | dropped _ hr => exact hr.story

theorem Asked.story {first : Exchange} (h : Asked a r lead first a') (hr : P r) :
    ∃ hs, Story P D a hs a' ∧ exchanges hs = lead.toList ++ [first] := by
  obtain ⟨_, hled, hheld, hsent, hrequest, rfl⟩ := h
  obtain ⟨hs, hstory, hx⟩ := hled.story
  obtain ⟨request, response?⟩ := first
  dsimp only at hrequest
  subst hrequest
  exact ⟨_, hstory.append (Happens.request hr hheld hsent).story, by simp [hx]⟩

theorem discard_story (a : Account) : Story P D a [.ended] a.discard :=
  (Happens.ended _).story

/-- A protected call sends what its trace says. -/
theorem Called.story {t : CallTrace} {e : Ended Response} (h : Called a r t e a') (hr : P r) :
    ∃ hs, Story P D a hs a' ∧ exchanges hs = t.exchanges := by
  simp only [CallTrace.exchanges_eq]
  cases h with
  | loggedOut => exact ⟨[], .nil a, rfl⟩
  | leadDropped _ hl =>
    obtain ⟨hs, hstory, hx⟩ := hl.story
    exact ⟨hs, hstory, by simp [hx]⟩
  | leadUnavailable _ _ hl =>
    obtain ⟨hs, hstory, hx⟩ := hl.story
    exact ⟨hs, hstory, by simp [hx]⟩
  | leadRejected _ _ hl =>
    obtain ⟨hs, hstory, hx⟩ := hl.story
    exact ⟨_, hstory.append (discard_story _), by simp [hx]⟩
  | tokenless _ _ hl =>
    obtain ⟨hs, hstory, hx⟩ := hl.story
    exact ⟨hs, hstory, by simp [hx]⟩
  | firstDropped ha =>
    obtain ⟨hs, hstory, hx⟩ := ha.story hr
    exact ⟨hs, hstory, by simp [hx]⟩
  | answered ha =>
    obtain ⟨hs, hstory, hx⟩ := ha.story hr
    exact ⟨hs, hstory, by simp [hx]⟩
  | secondDropped ha _ _ hr' =>
    obtain ⟨hs, hstory, hx⟩ := ha.story hr
    obtain ⟨hs', hstory', hx'⟩ := hr'.story
    exact ⟨_, hstory.append hstory', by simp [hx, hx']⟩
  | secondRejected ha _ _ hr' =>
    obtain ⟨hs, hstory, hx⟩ := ha.story hr
    obtain ⟨hs', hstory', hx'⟩ := hr'.story
    exact ⟨_, (hstory.append hstory').append (discard_story _), by simp [hx, hx']⟩
  | secondUnavailable ha _ _ hr' =>
    obtain ⟨hs, hstory, hx⟩ := ha.story hr
    obtain ⟨hs', hstory', hx'⟩ := hr'.story
    exact ⟨_, hstory.append hstory', by simp [hx, hx']⟩
  | secondTokenless ha _ _ hr' =>
    obtain ⟨hs, hstory, hx⟩ := ha.story hr
    obtain ⟨hs', hstory', hx'⟩ := hr'.story
    exact ⟨_, hstory.append hstory', by simp [hx, hx']⟩
  | retryDropped ha _ _ hr' ht hl =>
    obtain ⟨hs, hstory, hx⟩ := ha.story hr
    obtain ⟨hs', hstory', hx'⟩ := hr'.story
    exact ⟨_, (hstory.append hstory').append (Happens.request hr ht hl).story, by simp [hx, hx']⟩
  | retried ha _ _ hr' ht hl =>
    obtain ⟨hs, hstory, hx⟩ := ha.story hr
    obtain ⟨hs', hstory', hx'⟩ := hr'.story
    exact ⟨_, (hstory.append hstory').append (Happens.request hr ht hl).story, by simp [hx, hx']⟩

theorem register_story {r : Wire.Registration} {e : Ended Unit}
    (h : (register r).run a = (e, a')) : ∃ hs, Story P D a hs a' := by
  rcases register_sends h with rfl | ⟨_, _, _, hl, rfl⟩
  · exact ⟨[], .nil _⟩
  · exact ⟨_, (Happens.registration hl).story⟩

theorem login_story {l : Wire.Login} {e : Ended Unit} (hd : D l.deviceId)
    (h : (login l).run a = (e, a')) : ∃ hs, Story P D a hs a' := by
  cases login_sends h with
  | unchecked => exact ⟨[], .nil a⟩
  | refused _ hl hx => exact ⟨_, (Happens.loginRefused hl hx).story⟩
  | accepted _ hl hx => exact ⟨_, (Happens.loggedIn hl hx hd).story⟩

theorem Restored.story {e : Ended Bool} (hd : ∀ c, a.vault.load a.disk = some c → D c.deviceId)
    (h : Restored a e a') : ∃ hs, Story P D a hs a' := by
  cases h with
  | nothing => exact ⟨[], .nil a⟩
  | refreshed hl hr =>
    obtain ⟨hs, hstory, _⟩ := hr.story
    exact ⟨_, .cons (.readBack hl (hd _ hl)) hstory⟩
  | unavailable hl hr =>
    obtain ⟨hs, hstory, _⟩ := hr.story
    exact ⟨_, .cons (.readBack hl (hd _ hl)) (hstory.append (Happens.ended _).story)⟩
  | rejected hl hr =>
    obtain ⟨hs, hstory, _⟩ := hr.story
    exact ⟨_, .cons (.readBack hl (hd _ hl)) (hstory.append (discard_story _))⟩
  | dropped hl hr =>
    obtain ⟨hs, hstory, _⟩ := hr.story
    exact ⟨_, .cons (.readBack hl (hd _ hl)) hstory⟩

theorem logout_story {e : Ended Unit} (h : logout.run a = (e, a')) : Story P D a [.ended] a' := by
  unfold logout at h
  rw [Call.run_modify_bind, Call.run_view_bind] at h
  split at h <;> cases h
  · exact (Happens.ended _).story
  · exact (Happens.ended a.disk).story

end Operations

end Account

end Larder
